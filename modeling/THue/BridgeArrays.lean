import THue.Pages

/-!
# The arrays of the bridge

What the getters of a refresh store, and where they leave their arrays. The
answers stay within the limits of the bridge; the arrays are smaller.
-/

set_option autoImplicit false

namespace THue.BridgeArrays
open THue.Globals THue.CheckedArray THue.FaultRun THue.Entertainment THue.Bridge THue.Pages

def bridgeArrays : List ArrayName := [.rooms,.roomLightIds,.lights,.lightIds,.entertainmentLights]

/-- A fault at none of these arrays. -/
def Inside (e : Fault) : Prop := ∀ n ∈ bridgeArrays, ∀ i, e ≠ .outside n i

theorem inside {n : ArrayName} (hn : n ∉ bridgeArrays) (i : ℤ) : Inside (.outside n i) := by
  rintro m hm j h
  cases h
  exact hn hm

theorem inside_read {α : Type} {n : ℕ} (a : Fin n → α) (e : Fault) {i : ℤ} (h0 : 0 ≤ i)
    (hn : i < n) : Ends (CheckedArray.read a i e) (fun v => ∃ k : Fin n, (k.val:ℤ) = i ∧ v = a k)
      Inside := by
  rw [CheckedArray.read, dif_pos ⟨h0,hn⟩]
  exact ⟨⟨i.toNat,by omega⟩,Int.toNat_of_nonneg h0,rfl⟩

theorem other_read {α : Type} {n : ℕ} {name : ArrayName} (a : Fin n → α) (i : ℤ)
    (hn : name ∉ bridgeArrays) :
    Ends (CheckedArray.read a i (.outside name i)) (fun _ => True) Inside := by
  rw [CheckedArray.read]
  split
  · trivial
  · exact inside hn i

theorem other_write {α : Type} {n : ℕ} {name : ArrayName} (a : Fin n → α) (i : ℤ) (v : α)
    (hn : name ∉ bridgeArrays) :
    Ends (write a i v (.outside name i)) (fun _ => True) Inside := by
  rw [write]
  split
  · trivial
  · exact inside hn i

structure Fitted (h : House) : Prop where
  rooms : ∀ j, (h.rooms j).lightCounter.toNat ≤ 20
  room : h.currentRoom.lightCounter.toNat ≤ 20
  count : h.lightCount.toNat ≤ 20
  entertainment : h.entertainmentRoom.lightCounter.toNat ≤ 20
  all : h.allLightCount.toNat ≤ 50

/-- At most the groups and lights that a bridge has. -/
def Limited (a : Answers) : Prop :=
  a.groups.length ≤ 64 ∧ (∀ g ∈ a.groups, g.lights.length ≤ 50) ∧
    a.entertainmentGroup.lights.length ≤ 50 ∧ a.allLights.length ≤ 50

instance limited_decidable (a : Answers) : Decidable (Limited a) :=
  inferInstanceAs (Decidable (_ ∧ _))

/-- The answers fit the arrays that they are stored in. -/
def Fits (a : Answers) : Prop :=
  a.groups.length ≤ 50 ∧ (∀ g ∈ a.groups, g.lights.length ≤ 20) ∧
    a.entertainmentGroup.lights.length ≤ 20

instance fits_decidable (a : Answers) : Decidable (Fits a) :=
  inferInstanceAs (Decidable (_ ∧ _))

/-- The counter of a room is the number of ids stored, at most 20, and the ids are
those answered. -/
structure Stores (r : Room) (lights : List UInt8) : Prop where
  counter : r.lightCounter.toNat = min 20 lights.length
  ids : ∀ k : Fin 20, k.val < r.lightCounter.toNat → lights[k.val]? = some (r.lightIds k)

structure Stored (a : Answers) (h : House) : Prop where
  rooms : ∀ (j : Fin 50) g, a.groups[j.val]? = some g → Stores (h.rooms j) g.lights
  entertainment : Stores h.entertainmentRoom a.entertainmentGroup.lights

theorem stores_copied {lights : List UInt8} (h : lights.length ≤ 20) {r : Room}
    {dst : Fin 20 → UInt8} (hids : r.lightIds = copyArray lights dst)
    (hcount : r.lightCounter = UInt8.ofNat lights.length) : Stores r lights := by
  have hlen : r.lightCounter.toNat = lights.length := by
    rw [hcount, UInt8.toNat_ofNat']
    omega
  refine ⟨by omega,fun k hk => ?_⟩
  rw [hlen] at hk
  rw [hids, copyArray, List.getD_eq_getElem?_getD, List.getElem?_eq_getElem hk]
  rfl

theorem storeFrom_inside {α : Type} {n : ℕ} (e : ℤ → Fault) (xs : List α) (i : ℕ) (a : Fin n → α)
    (h : i+xs.length ≤ n) : ∃ b, storeFrom e i xs a = .ok b := by
  induction xs generalizing i a with
  | nil => exact ⟨a,rfl⟩
  | cons x xs ih =>
    rw [List.length_cons] at h
    obtain ⟨b,hb⟩ := ih (i+1) (Function.update a ⟨i,by omega⟩ x) (by omega)
    refine ⟨b,?_⟩
    rw [storeFrom, write_inside a x _ i (by omega)]
    exact_mod_cast hb

theorem getLightStatesFrom_inside {n : ℕ} (e : ℤ → Fault) (states : ℕ → Light)
    (ids : Fin 20 → UInt8) (rounds i : ℕ) (lights : Fin n → Light) (h20 : i+rounds ≤ 20)
    (hn : i+rounds ≤ n) {E : Fault → Prop} :
    Ends (getLightStatesFrom e states ids rounds i lights) (fun _ => True) E := by
  induction rounds generalizing i lights with
  | zero => trivial
  | succ rounds ih =>
    refine ends_bind_ok (read_inside ids _ i (by omega)) ?_
    exact ends_bind_ok (write_inside lights _ _ i (by omega)) (ih (i+1) _ (by omega) (by omega))

theorem storeFrom_faults {α : Type} {n : ℕ} {name : ArrayName} (hn : name ∈ bridgeArrays)
    (xs : List α) (i : ℕ) (a : Fin n → α) :
    Ends (storeFrom (.outside name) i xs a) (fun _ => True) (fun e => ¬Inside e) := by
  induction xs generalizing i a with
  | nil => trivial
  | cons x xs ih =>
    rw [storeFrom, write]
    split
    · exact_mod_cast ih (i+1) _
    · exact fun h => h name hn i rfl

theorem getLightStatesFrom_faults {n : ℕ} {name : ArrayName} (hn : name ∈ bridgeArrays)
    (states : ℕ → Light) (ids : Fin 20 → UInt8) (rounds i : ℕ) (lights : Fin n → Light) :
    Ends (getLightStatesFrom (.outside name) states ids rounds i lights) (fun _ => True)
      (fun e => ¬Inside e) := by
  induction rounds generalizing i lights with
  | zero => trivial
  | succ rounds ih =>
    refine ends_bind (Q := fun _ => True) ?_ fun _ _ => ends_bind (Q := fun _ => True) ?_
      fun _ _ => ih (i+1) _
    · rw [CheckedArray.read]
      split
      · trivial
      · exact fun h => h .roomLightIds (by decide) i rfl
    · rw [write]
      split
      · trivial
      · exact fun h => h name hn i rfl

structure Fetched (a : Answers) (h i : House) : Prop where
  groups : a.groups.length ≤ 50
  lights : a.entertainmentGroup.lights.length ≤ 20
  rooms : ∀ j : Fin 50, i.rooms j = ((a.groups[j.val]?).map Group.room).getD (h.rooms j)
  room : i.currentRoom = h.currentRoom
  count : i.lightCount = h.lightCount
  entertainment : i.entertainmentRoom =
    (getGroup ENTERTAINMENT_ID a.entertainmentGroup h).entertainmentRoom
  all : i.allLightCount = UInt8.ofNat a.allLights.length

theorem ofNat_toNat {n : ℕ} (h : n ≤ 64) : (UInt8.ofNat n).toNat = n := by
  rw [UInt8.toNat_ofNat']
  omega

theorem fetchHouse_fetched {a : Answers} (hl : Limited a) (h : House) :
    Ends (fetchHouse a h) (Fetched a h) (fun e => ¬Inside e) := by
  obtain ⟨-,-,hent,-⟩ := hl
  refine ends_bind (ends_and (getLightStatesFrom_faults (by decide) _ _ _ 0 _) (ends_self _))
    fun lights hlights => ?_
  have hrounds := (getLightStatesFrom_ok hlights.2).1
  rw [show (getGroup ENTERTAINMENT_ID a.entertainmentGroup h).entertainmentRoom.lightCounter.toNat =
    a.entertainmentGroup.lights.length from ofNat_toNat (by omega)] at hrounds
  refine ends_bind (Q := fun i => ∃ rooms, storeFrom (.outside .rooms) 0
      (a.groups.map Group.room) h.rooms = .ok rooms ∧ i = { getGroup ENTERTAINMENT_ID
        a.entertainmentGroup h with
          entertainmentLights := lights
          rooms := rooms
          roomsCount := toUInt8 ((a.groups.length:ℤ)-1)
          roomPagination := decide (4 < toUInt8 ((a.groups.length:ℤ)-1)) }) ?_ ?_
  · exact ends_bind (ends_and (storeFrom_faults (by decide) _ 0 _) (ends_self _))
      fun rooms hrooms => ⟨rooms,hrooms.2,rfl⟩
  · rintro i ⟨rooms,hrooms,rfl⟩
    refine ends_bind (storeFrom_faults (by decide) _ 0 _) fun ids _ => ?_
    obtain ⟨hlen,hcell⟩ := storeFrom_ok (i := 0) hrooms
    refine ⟨?_,?_,fun j => ?_,rfl,rfl,rfl,rfl⟩
    · by_cases hg : a.groups = []
      · rw [hg]
        exact Nat.zero_le _
      · have := hlen (by simpa using hg)
        rw [List.length_map] at this
        omega
    · by_cases h0 : a.entertainmentGroup.lights.length = 0
      · omega
      · have := hrounds h0
        omega
    · have hj := hcell j.val j.isLt
      rw [if_pos (Nat.zero_le _), Nat.sub_zero, List.getD_eq_getElem?_getD, List.getElem?_map] at hj
      exact hj

theorem fetchHouse_ok {a : Answers} (hl : Limited a) (ha : Fits a) (h : House) :
    ∃ i, fetchHouse a h = .ok i := by
  obtain ⟨hgroups,-,hent⟩ := ha
  have hsafe : Ends (fetchHouse a h) (fun _ => True) Inside := by
    obtain ⟨-,-,hlimit,hall⟩ := hl
    have hrounds : (getGroup ENTERTAINMENT_ID a.entertainmentGroup
        h).entertainmentRoom.lightCounter.toNat ≤ 20 := (ofNat_toNat (by omega)).trans_le hent
    refine ends_bind (getLightStatesFrom_inside _ _ _ _ 0 _ (by omega) (by omega))
      fun lights _ => ?_
    obtain ⟨rooms,hrooms⟩ := storeFrom_inside (.outside .rooms) (a.groups.map Group.room) 0 h.rooms
      (by rw [List.length_map]; omega)
    obtain ⟨ids,hids⟩ := storeFrom_inside (.outside .lightIds) a.allLights 0 h.lightIds (by omega)
    exact ends_bind_ok (bind_ok.mpr ⟨rooms,hrooms,rfl⟩) (ends_bind_ok hids trivial)
  have hfault := fetchHouse_fetched hl h
  cases hx : fetchHouse a h with
  | ok i => exact ⟨i,rfl⟩
  | error e =>
    rw [hx] at hsafe hfault
    exact absurd hsafe hfault

theorem fetched_fitted {a : Answers} {h i : House} (hl : Limited a) (ha : Fits a) (hh : Fitted h)
    (hi : Fetched a h i) : Fitted i := by
  obtain ⟨-,hlimits,hent,hall⟩ := hl
  obtain ⟨-,hlights,hfit⟩ := ha
  refine ⟨fun j => ?_,hi.room ▸ hh.room,hi.count ▸ hh.count,?_,?_⟩
  · rw [hi.rooms]
    cases hg : a.groups[j.val]? with
    | none => exact hh.rooms j
    | some g =>
      have hlen := hlights g (List.mem_of_getElem? hg)
      exact (ofNat_toNat (by omega)).trans_le hlen
  · rw [hi.entertainment]
    exact (ofNat_toNat (by omega)).trans_le hfit
  · rw [hi.all]
    exact (ofNat_toNat (by omega)).trans_le hall

theorem fetchHouse_stored {a : Answers} (hl : Limited a) (h : House) :
    Ends (fetchHouse a h) (Stored a) Inside ↔ Fits a := by
  have hfetched := fetchHouse_fetched hl h
  obtain ⟨-,hlimits,-⟩ := id hl
  constructor
  · intro hstored
    cases hx : fetchHouse a h with
    | error e =>
      rw [hx] at hstored hfetched
      exact absurd hstored hfetched
    | ok i =>
      rw [hx] at hstored hfetched
      obtain ⟨hgroups,hlights,hrooms,-⟩ := id hfetched
      refine ⟨hgroups,fun g hg => ?_,hlights⟩
      obtain ⟨j,hj⟩ := List.getElem?_of_mem hg
      have hlt := (List.getElem?_eq_some_iff.mp hj).1
      have hcounter := (hstored.rooms ⟨j,by omega⟩ g hj).counter
      rw [hrooms, hj] at hcounter
      have := hlimits g hg
      have hlen : (g.room).lightCounter.toNat = g.lights.length := ofNat_toNat (by omega)
      exact le_trans (hlen.symm.trans hcounter).le (Nat.min_le_left _ _)
  · intro ha
    obtain ⟨i,hx⟩ := fetchHouse_ok hl ha h
    rw [hx] at hfetched ⊢
    obtain ⟨-,hlights,hent⟩ := ha
    refine ⟨fun j g hg => ?_,?_⟩
    · rw [(hfetched : Fetched a h i).rooms, hg]
      exact stores_copied (hlights g (List.mem_of_getElem? hg)) rfl rfl
    · rw [(hfetched : Fetched a h i).entertainment]
      exact stores_copied hent rfl rfl

end THue.BridgeArrays
