import THue.DialTargets
import THue.DialPositions

/-!
# Choosing a bulb by dial

Both loops that choose a bulb count over the bulbs of a room and one place
more. The loops are stated here for any way of reading the id at the counter,
so that a room may have more bulbs than its array has cells. The display task
may leave any state behind between two iterations.
-/

set_option autoImplicit false

namespace THue.DialCycle
open THue.Globals THue.CheckedArray THue.FaultRun THue.Bridge THue.Pages THue.Encoder
open THue.DialTargets THue.DialPositions

variable {lightAt : ℕ → Except Fault UInt8}

def cells (r : Room) (k : ℕ) : Except Fault UInt8 := read r.lightIds k (.outside .roomLightIds k)

def chooseBulbAt (lightAt : ℕ → Except Fault UInt8) (i : Input) (c : Choosing) (s : Eink) :
    Except Fault (Turn Choosing) :=
  if i.direction = .none then .ok { loop := c, eink := s }
  else do
    let room := s.house.currentRoom
    let counter := nextCounter c.counter room.lightCounter i.direction
    let c := { c with dialTurned := true, elapsedMillis := i.millis, counter := counter }
    let id ← lightAt counter.toNat
    if counter = room.lightCounter then
      pure { loop := c, eink := s, sent := [.groupFlash room.id] }
    else do
      let s ← setCurrentLight id s
      pure { loop := { c with currentLightId := id }, eink := s, sent := [.flash id] }

def chooseAndAlterLightInRoomAt (lightAt : ℕ → Except Fault UInt8) (i : Input) (c : Choosing)
    (s : Eink) : Except Fault (Turn Choosing) := do
  let c := waitTurn i.millis s.uiLevel c
  let s ← openChosen i c s
  let t := (switchChosen i c s).andThen (brightenChosen i)
  let u ← chooseBulbAt lightAt i t.loop t.eink
  pure { u with sent := t.sent ++ u.sent }

def chooseLightInRoomAt (lightAt : ℕ → Except Fault UInt8) (i : Input) (c : Flashing) (s : Eink) :
    Except Fault (Turn Flashing) :=
  if i.direction = .none then .ok { loop := c, eink := s }
  else do
    let room := s.house.currentRoom
    let counter := nextCounter c.counter room.lightCounter i.direction
    let c := { c with counter := counter }
    let id ← lightAt counter.toNat
    if counter = room.lightCounter then
      pure { loop := c, eink := s, sent := [.groupFlash room.id] }
    else pure { loop := { c with currentLightId := id }, eink := s, sent := [.flash id] }

def flashes (cs : List Command) : List Command :=
  cs.filter fun
    | .flash _ | .groupFlash _ => true
    | _ => false

/-- The stages before a bulb is chosen flash nothing and keep the counter and the room's bulbs. -/
structure Prepared (c : Choosing) (s : Eink) (t : Turn Choosing) : Prop where
  loop : ∃ on, t.loop = { c with roomState := on }
  nav : t.eink.nav = s.nav
  room : ∃ bri, t.eink.house.currentRoom = { s.house.currentRoom with bri := bri }
  sent : flashes t.sent = []

theorem switchChosen_flashes (i : Input) (c : Choosing) (s : Eink) :
    flashes (switchChosen i c s).sent = [] := by
  simp only [switchChosen]
  split
  · rfl
  · split
    · rfl
    · split
      · rfl
      · split <;> rfl

theorem brightenChosen_flashes (i : Input) (c : Choosing) (s : Eink) :
    flashes (brightenChosen i c s).sent = [] := by
  rw [brightenChosen]
  split
  · rfl
  · split <;> rfl
  · split <;> rfl

theorem chosen_prepared (i : Input) (c : Choosing) (s : Eink) :
    Prepared c s ((switchChosen i c s).andThen (brightenChosen i)) := by
  have hboth := dialled_trans (switchChosen_dialled i c s)
    (brightenChosen_dialled i (switchChosen i c s).loop (switchChosen i c s).eink)
  obtain ⟨on,hloop⟩ := switchChosen_loop i c s
  have hroom := congrArg House.currentRoom hboth.house
  refine ⟨⟨on,(brightenChosen_loop i _ _).trans hloop⟩,hboth.nav,⟨_,hroom⟩,?_⟩
  rw [Turn.andThen, flashes, List.filter_append]
  exact List.append_eq_nil_iff.mpr ⟨switchChosen_flashes i _ _,brightenChosen_flashes i _ _⟩

theorem opened_room {s o : Eink} (ho : LightOf s o) :
    o.house.currentRoom = s.house.currentRoom := by rw [ho]

theorem chooseLightInRoom_cells (i : Input) (c : Flashing) (s : Eink) :
    chooseLightInRoom i c s = chooseLightInRoomAt (cells s.house.currentRoom) i c s := rfl

theorem chooseAndAlterLightInRoom_cells (i : Input) (c : Choosing) (s : Eink) :
    chooseAndAlterLightInRoom i c s =
      chooseAndAlterLightInRoomAt (cells s.house.currentRoom) i c s := by
  rw [chooseAndAlterLightInRoom, chooseAndAlterLightInRoomAt]
  have ho := openChosen_house i (waitTurn i.millis s.uiLevel c) s
  cases hx : openChosen i (waitTurn i.millis s.uiLevel c) s with
  | error e => rfl
  | ok o =>
    rw [hx] at ho
    obtain ⟨bri,hroom⟩ := (chosen_prepared i (waitTurn i.millis s.uiLevel c) o).room
    rw [opened_room ho] at hroom
    have hcells : cells s.house.currentRoom = cells
        ((switchChosen i (waitTurn i.millis s.uiLevel c) o).andThen
          (brightenChosen i)).eink.house.currentRoom := by
      rw [hroom]
      rfl
    rw [hcells]
    rfl

def detent : Direction → List ℤ
  | .none => []
  | .up => [1]
  | .down => [-1]

theorem nextCounter_up {counter n : UInt8} (h : counter ≤ n) :
    (nextCounter counter n .up).toNat = place (n.toNat+1) (counter.toNat+1) := by
  have hle := UInt8.le_iff_toNat_le.mp h
  have hn := n.toNat_lt
  have hadd : (counter+1).toNat = (counter.toNat+1) % 2^8 := UInt8.toNat_add counter 1
  rw [nextCounter]
  by_cases hc : counter.toNat = n.toNat
  · have hzero : place (n.toNat+1) (counter.toNat+1) = 0 := by
      rw [hc, place]
      simp
    rw [hzero]
    split
    · rfl
    · next hlt =>
      rw [UInt8.lt_iff_toNat_lt, hadd] at hlt
      rw [hadd]
      omega
  · have hplace : place (n.toNat+1) (counter.toNat+1) = counter.toNat+1 := by
      exact_mod_cast place_of_lt (m := n.toNat+1) (k := counter.toNat+1) (by omega)
    have hlt : ¬n < counter+1 := by
      rw [UInt8.lt_iff_toNat_lt, hadd]
      omega
    rw [hplace, if_neg hlt, hadd]
    omega

theorem nextCounter_down {counter n : UInt8} (h : counter ≤ n) :
    (nextCounter counter n .down).toNat = place (n.toNat+1) (counter.toNat-1) := by
  have hle := UInt8.le_iff_toNat_le.mp h
  have hn := n.toNat_lt
  have hsub : (counter-1).toNat = (2^8 - 1 + counter.toNat) % 2^8 := UInt8.toNat_sub counter 1
  rw [nextCounter]
  by_cases hc : counter.toNat = 0
  · have htop : place (n.toNat+1) (counter.toNat-1) = n.toNat := by
      rw [hc]
      exact place_neg_one (by omega)
    rw [htop]
    split
    · rfl
    · next hlt =>
      rw [UInt8.lt_iff_toNat_lt, hsub] at hlt
      omega
  · have hplace : place (n.toNat+1) (counter.toNat-1) = counter.toNat-1 := by
      have := place_of_lt (m := n.toNat+1) (k := counter.toNat-1) (by omega)
      rwa [Nat.cast_sub (by omega)] at this
    have hlt : ¬n < counter-1 := by
      rw [UInt8.lt_iff_toNat_lt, hsub]
      omega
    rw [hplace, if_neg hlt, hsub]
    omega

theorem nextCounter_place {counter n : UInt8} {d : Direction} (h : counter ≤ n) :
    (nextCounter counter n d).toNat = place (n.toNat+1) (counter.toNat + (detent d).sum) := by
  have hle := UInt8.le_iff_toNat_le.mp h
  cases d with
  | none =>
    simp only [detent, List.sum_nil, add_zero]
    exact (place_of_lt (k := counter.toNat) (by omega)).symm
  | up => simpa [detent] using nextCounter_up h
  | down => simpa [detent, sub_eq_add_neg] using nextCounter_down h

/-- What a loop finds in an iteration: the dials, and the state the display task left. -/
structure Iteration where
  input : Input := {}
  eink : Eink := {}

/-- The variables of a loop, the detents so far, and the counter after each of them. -/
structure Dialling (α : Type) where
  loop : α
  detents : List ℤ := []
  trail : List UInt8 := []

/-- A loop that chooses bulbs, and where it keeps the counter and the chosen light. -/
structure Chooser (α : Type) where
  iteration : Input → α → Eink → Except Fault (Turn α)
  counter : α → UInt8
  currentLightId : α → UInt8

def inRoom (lightAt : ℕ → Except Fault UInt8) : Chooser Flashing where
  iteration := chooseLightInRoomAt lightAt
  counter := Flashing.counter
  currentLightId := Flashing.currentLightId

def atHome (lightAt : ℕ → Except Fault UInt8) : Chooser Choosing where
  iteration := chooseAndAlterLightInRoomAt lightAt
  counter := Choosing.counter
  currentLightId := Choosing.currentLightId

variable {α : Type}

def turn (l : Chooser α) (w : Dialling α) (m : Iteration) : Except Fault (Dialling α) := do
  let t ← l.iteration m.input w.loop m.eink
  pure { loop := t.loop
         detents := w.detents ++ detent m.input.direction
         trail := w.trail ++ (detent m.input.direction).map fun _ => l.counter t.loop }

/-- A detent flashes the bulb at the counter and makes it the chosen light, or flashes the room. -/
def Flashes (l : Chooser α) (lightAt : ℕ → Except Fault UInt8) (m : Iteration) (t : Turn α) :
    Prop :=
  if m.input.direction = .none then flashes t.sent = []
  else if l.counter t.loop = m.eink.house.currentRoom.lightCounter then
    flashes t.sent = [.groupFlash m.eink.house.currentRoom.id]
  else ∃ id, lightAt (l.counter t.loop).toNat = .ok id ∧ flashes t.sent = [.flash id] ∧
    l.currentLightId t.loop = id

def Lit (l : Chooser α) (lightAt : ℕ → Except Fault UInt8) (w : Dialling α) (m : Iteration) :
    Prop :=
  Ends (l.iteration m.input w.loop m.eink) (Flashes l lightAt m) (fun _ => True)

def Counts (l : Chooser α) (c : α) (m : Iteration) (t : Turn α) : Prop :=
  l.counter t.loop =
    nextCounter (l.counter c) m.eink.house.currentRoom.lightCounter m.input.direction

theorem flashes_room {l : Chooser α} {m : Iteration} {t : Turn α} (hd : m.input.direction ≠ .none)
    (hr : l.counter t.loop = m.eink.house.currentRoom.lightCounter)
    (hs : flashes t.sent = [.groupFlash m.eink.house.currentRoom.id]) : Flashes l lightAt m t := by
  rw [Flashes, if_neg hd, if_pos hr]
  exact hs

theorem flashes_bulb {l : Chooser α} {m : Iteration} {t : Turn α} {id : UInt8}
    (hd : m.input.direction ≠ .none)
    (hr : l.counter t.loop ≠ m.eink.house.currentRoom.lightCounter)
    (hid : lightAt (l.counter t.loop).toNat = .ok id) (hs : flashes t.sent = [.flash id])
    (hl : l.currentLightId t.loop = id) : Flashes l lightAt m t := by
  rw [Flashes, if_neg hd, if_neg hr]
  exact ⟨id,hid,hs,hl⟩

theorem ends_reads (k : ℕ) :
    Ends (lightAt k) (fun id => lightAt k = .ok id) (fun e => ∃ j, lightAt j = .error e) := by
  cases h : lightAt k with
  | ok id => rfl
  | error e => exact ⟨k,h⟩

theorem inRoom_counts (c : Flashing) (m : Iteration) :
    Ends ((inRoom lightAt).iteration m.input c m.eink)
      (fun t => Counts (inRoom lightAt) c m t ∧ Flashes (inRoom lightAt) lightAt m t)
      (fun e => ∃ k, lightAt k = .error e) := by
  show Ends (chooseLightInRoomAt lightAt m.input c m.eink) _ _
  rw [chooseLightInRoomAt]
  split
  · next hd => exact ⟨by rw [Counts, hd]; rfl,by rw [Flashes, if_pos hd]; rfl⟩
  · next hd =>
    refine ends_bind (ends_reads _) fun id hid => ?_
    split
    · next hroom => exact ⟨rfl,flashes_room hd hroom rfl⟩
    · next hroom => exact ⟨rfl,flashes_bulb hd hroom hid rfl rfl⟩

theorem atHome_counts (c : Choosing) (m : Iteration) :
    Ends ((atHome lightAt).iteration m.input c m.eink)
      (fun t => Counts (atHome lightAt) c m t ∧ Flashes (atHome lightAt) lightAt m t)
      (fun _ => True) := by
  refine ends_bind (openChosen_house m.input _ m.eink) fun o ho => ?_
  obtain ⟨⟨on,hloop⟩,-,⟨bri,hroom⟩,hsent⟩ :=
    chosen_prepared m.input (waitTurn m.input.millis m.eink.uiLevel c) o
  rw [opened_room ho] at hroom
  have hcounter := (congrArg Choosing.counter hloop).trans
    (waitTurn_bulb m.input.millis m.eink.uiLevel c).1
  dsimp only
  generalize (switchChosen m.input _ o).andThen (brightenChosen m.input) = t at *
  refine ends_bind (Q := fun u => u.loop.counter =
      nextCounter c.counter m.eink.house.currentRoom.lightCounter m.input.direction ∧
    Flashes (atHome lightAt) lightAt m u) ?_ fun u hu => ?_
  · rw [chooseBulbAt, hroom, hcounter]
    split
    · next hd => exact ⟨by rw [hd]; exact hcounter,by rw [Flashes, if_pos hd]; rfl⟩
    · next hd =>
      refine ends_bind (ends_mono (ends_reads _) (fun _ h => h) fun _ _ => trivial) fun id hid => ?_
      split
      · next hr => exact ⟨rfl,flashes_room hd hr rfl⟩
      · next hr =>
        exact ends_bind (ends_true _) fun s _ => ⟨rfl,flashes_bulb hd hr hid rfl rfl⟩
  · refine ⟨hu.1,?_⟩
    have hall : flashes (t.sent ++ u.sent) = flashes u.sent := by
      rw [flashes, List.filter_append]
      exact (congrArg (· ++ flashes u.sent) hsent).trans (List.nil_append _)
    have hflash := hu.2
    rw [Flashes] at hflash ⊢
    rw [hall]
    exact hflash

/-- Counter, detents and trail as the ring has them. -/
structure Placed (l : Chooser α) (n start : UInt8) (w : Dialling α) : Prop where
  counter : (l.counter w.loop).toNat = place (n.toNat+1) (start.toNat + w.detents.sum)
  trail : w.trail.map UInt8.toNat = stops (n.toNat+1) start.toNat w.detents
  single : ∀ d ∈ w.detents, d = 1 ∨ d = -1

theorem detent_single (d : Direction) : ∀ x ∈ detent d, x = 1 ∨ x = -1 := by
  cases d <;> decide

theorem counts_placed {l : Chooser α} {n start : UInt8} {w : Dialling α} {m : Iteration}
    {t : Turn α}
    (hw : Placed l n start w) (hn : m.eink.house.currentRoom.lightCounter = n)
    (ht : Counts l w.loop m t) : Placed l n start
      { loop := t.loop
        detents := w.detents ++ detent m.input.direction
        trail := w.trail ++ (detent m.input.direction).map fun _ => l.counter t.loop } := by
  have hle : l.counter w.loop ≤ n := by
    have := place_lt (m := n.toNat+1) (by omega) (start.toNat + w.detents.sum)
    rw [UInt8.le_iff_toNat_le, hw.counter]
    omega
  have hnext : (l.counter t.loop).toNat =
      place (n.toNat+1) (start.toNat + (w.detents ++ detent m.input.direction).sum) := by
    rw [ht, hn, nextCounter_place hle, hw.counter, place_add (by omega), List.sum_append, add_assoc]
  refine ⟨hnext,?_,fun d hd => ?_⟩
  · rw [List.map_append, hw.trail, stops_append, List.map_map]
    congr 1
    rw [List.sum_append, ← add_assoc] at hnext
    cases hdir : m.input.direction with
    | none => rfl
    | up | down =>
      rw [hdir] at hnext
      simpa [detent, stops] using hnext
  · obtain hd | hd := List.mem_append.mp hd
    · exact hw.single d hd
    · exact detent_single _ d hd

theorem turn_placed {l : Chooser α} {E : Fault → Prop}
    (hl : ∀ c m, Ends (l.iteration m.input c m.eink)
      (fun t => Counts l c m t ∧ Flashes l lightAt m t) E) {n start : UInt8} {w : Dialling α}
    {m : Iteration} (hw : Placed l n start w) (hn : m.eink.house.currentRoom.lightCounter = n) :
    Ends (turn l w m) (Placed l n start) E :=
  ends_bind (hl w.loop m) fun _ ht => counts_placed hw hn ht.1

def threeBulbs : Eink := { house := { currentRoom := { lightCounter := 3 } } }

def detents (ds : List Direction) : List Iteration :=
  ds.map fun d => { input := { direction := d }, eink := threeBulbs }

end THue.DialCycle
