import THue.Globals
import THue.CheckedArray
import THue.FaultRun
import THue.Entertainment

/-!
# Rooms and lights as fetched from the bridge

The globals filled by the `Hue` getters. What the bridge answers is an
argument: lists of groups and lights, and a light for each request of
`getLightStates`. Cells of a local array that the answer does not fill are an
argument as well.
-/

set_option autoImplicit false

namespace THue.Bridge
open THue.Globals THue.CheckedArray THue.FaultRun THue.Entertainment

structure House where
  rooms : Fin 50 → Room := fun _ => {}
  roomsCount : UInt8 := 0
  roomPagination : Bool := false
  currentRoom : Room := {}
  lastRoom : ℤ := 0
  lights : Fin 50 → Light := fun _ => {}
  lightCount : UInt8 := 0
  lightIds : Fin 50 → Light := fun _ => {}
  allLightCount : UInt8 := 0
  allLightsPagination : Bool := false
  entertainmentRoom : Room := {}
  entertainmentLights : Fin 20 → Light := fun _ => {}
  currentLight : Light := {}

/-- One group of an answer; `unset` stands for the cells `copyArray` does not fill. -/
structure Group where
  id : UInt8 := 0
  name : String := ""
  on : Bool := false
  bri : ℤ := 0
  lights : List UInt8 := []
  unset : Fin 20 → UInt8 := fun _ => 0

/-- `copyArray` copies at most the cells of the destination. -/
def copyArray (src : List UInt8) (dst : Fin 20 → UInt8) : Fin 20 → UInt8 :=
  fun i => src.getD i.val (dst i)

def Group.room (g : Group) : Room where
  id := g.id
  name := g.name
  on := g.on
  bri := g.bri
  lightIds := copyArray g.lights g.unset
  lightCounter := UInt8.ofNat g.lights.length

def storeFrom {α : Type} {n : ℕ} (e : ℤ → Fault) : ℤ → List α → (Fin n → α) →
    Except Fault (Fin n → α)
  | _, [], a => .ok a
  | i, x::xs, a => write a i x (e i) >>= storeFrom e (i+1) xs

/-- The stored count is `i - 1`. -/
def getGroups (groups : List Group) (h : House) : Except Fault House := do
  let rooms ← storeFrom (.outside .rooms) 0 (groups.map Group.room) h.rooms
  let roomsCount := toUInt8 ((groups.length:ℤ)-1)
  pure { h with
    rooms := rooms, roomsCount := roomsCount, roomPagination := decide (4 < roomsCount) }

/-- `ENTERTAINMENT_ID` is the room asked for; its cells beyond the answer keep what they held. -/
def getGroup (roomId : UInt8) (g : Group) (h : House) : House :=
  { h with entertainmentRoom :=
      { h.entertainmentRoom with
        id := roomId, name := g.name, on := g.on
        lightIds := copyArray g.lights h.entertainmentRoom.lightIds
        lightCounter := UInt8.ofNat g.lights.length } }

def getLightIds (lights : List Light) (h : House) : Except Fault House := do
  let lightIds ← storeFrom (.outside .lightIds) 0 lights h.lightIds
  let allLightCount := UInt8.ofNat lights.length
  pure { h with lightIds := lightIds, allLightCount := allLightCount,
                allLightsPagination := decide (4 < allLightCount) }

/-- The loop of `getLightStates` from index `i`, for a destination array of `n` lights. -/
def getLightStatesFrom {n : ℕ} (e : ℤ → Fault) (states : ℕ → Light) (lightIds : Fin 20 → UInt8) :
    ℕ → ℕ → (Fin n → Light) → Except Fault (Fin n → Light)
  | 0, _, lights => .ok lights
  | rounds+1, i, lights => do
      let lightId ← read lightIds i (.outside .roomLightIds i)
      let lights ← write lights i { states i with id := lightId } (e i)
      getLightStatesFrom e states lightIds rounds (i+1) lights

def getLightStates {n : ℕ} (e : ℤ → Fault) (states : ℕ → Light) (lightIds : Fin 20 → UInt8)
    (lightCount : UInt8) (lights : Fin n → Light) : Except Fault (Fin n → Light) :=
  getLightStatesFrom e states lightIds lightCount.toNat 0 lights

section Stores
variable {α : Type} {n : ℕ} {e : ℤ → Fault}

theorem storeFrom_ok {i : ℕ} {xs : List α} {a b : Fin n → α}
    (h : storeFrom e i xs a = .ok b) :
    (xs ≠ [] → i+xs.length ≤ n) ∧
      ∀ k (hk : k < n), b ⟨k,hk⟩ = if i ≤ k then xs.getD (k-i) (a ⟨k,hk⟩) else a ⟨k,hk⟩ := by
  induction xs generalizing i a with
  | nil =>
    cases h
    simp
  | cons x xs ih =>
    obtain ⟨c,hc,h⟩ := bind_ok.mp h
    obtain ⟨j,hj,hi,rfl⟩ := write_ok.mp hc
    obtain rfl : i = j := by exact_mod_cast hi
    obtain ⟨hl,hb⟩ := ih (i := i+1) (by exact_mod_cast h)
    refine ⟨fun _ => ?_,fun k hk => ?_⟩
    · by_cases hx : xs = []
      · simp [hx]
        omega
      · have := hl hx
        simp only [List.length_cons]
        omega
    · rw [hb k hk]
      by_cases hik : i = k
      · subst hik
        simp
      · have hne : (⟨k,hk⟩ : Fin n) ≠ ⟨i,hj⟩ := fun he => hik (Fin.mk.inj he).symm
        rw [Function.update_of_ne hne]
        by_cases hlt : i+1 ≤ k
        · have he : k-i = (k-(i+1))+1 := by omega
          rw [if_pos hlt, if_pos (by omega), he]
          rfl
        · rw [if_neg hlt, if_neg (by omega)]

end Stores

theorem getLightStatesFrom_ok {n : ℕ} {e : ℤ → Fault} {states : ℕ → Light}
    {ids : Fin 20 → UInt8} {rounds i : ℕ} {a b : Fin n → Light}
    (h : getLightStatesFrom e states ids rounds i a = .ok b) :
    (rounds ≠ 0 → i+rounds ≤ 20) ∧
      (∀ k (hk : k < n) (h20 : k < 20), i ≤ k → k < i+rounds →
        b ⟨k,hk⟩ = { states k with id := ids ⟨k,h20⟩ }) ∧
      ∀ k (hk : k < n), k < i ∨ i+rounds ≤ k → b ⟨k,hk⟩ = a ⟨k,hk⟩ := by
  induction rounds generalizing i a with
  | zero =>
    cases h
    exact ⟨fun h => absurd rfl h,fun k _ _ h1 h2 => by omega,fun _ _ _ => rfl⟩
  | succ rounds ih =>
    obtain ⟨x,hx,h⟩ := bind_ok.mp h
    obtain ⟨c,hc,h⟩ := bind_ok.mp h
    obtain ⟨p,hp,hip,rfl⟩ := read_ok.mp hx
    obtain ⟨q,hq,hiq,rfl⟩ := write_ok.mp hc
    obtain rfl : i = p := by exact_mod_cast hip
    obtain rfl : i = q := by exact_mod_cast hiq
    obtain ⟨hl,hfilled,hkept⟩ := ih h
    refine ⟨fun _ => ?_,fun k hk h20 h1 h2 => ?_,fun k hk hout => ?_⟩
    · by_cases hr : rounds = 0
      · omega
      · have := hl hr
        omega
    · by_cases hki : k = i
      · subst hki
        rw [hkept k hk (Or.inl (Nat.lt_succ_self k)), Function.update_self]
      · exact hfilled k hk h20 (by omega) (by omega)
    · rw [hkept k hk (by omega)]
      exact Function.update_of_ne (fun he => by have := Fin.mk.inj he; omega) _ _

end THue.Bridge
