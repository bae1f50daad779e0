import THue.RoomVisits

/-!
# Records left behind

`drawLight` searches the light list up to the light count of the bridge and
keeps the last match. The front of the list is the room opened last; behind it
stand lights of larger rooms visited before, and one of them wins the search
when it has the identifier of a light of this room.
-/

set_option autoImplicit false

namespace THue.LightRecords
open THue.Globals THue.CheckedArray THue.FaultRun THue.TouchScreen THue.Bridge THue.Pages
open THue.Encoder THue.RoomVisits

/-- The last of the first `c` lights with an identifier. -/
def LastWith (lights : Fin 50 → Light) (id : ℤ) (c : ℕ) (j : Fin 50) : Prop :=
  j.val < c ∧ (lights j).id.toNat = id ∧
    ∀ k : Fin 50, j < k → k.val < c → (lights k).id.toNat ≠ id

section Search
variable {lights : Fin 50 → Light} {id : ℤ} {c : ℕ} {i j : Fin 50}

theorem lastWith_unique (hi : LastWith lights id c i) (hj : LastWith lights id c j) : i = j := by
  rcases lt_trichotomy i j with h | h | h
  · exact absurd hj.2.1 (hi.2.2 j h hj.1)
  · exact h
  · exact absurd hi.2.1 (hj.2.2 i h hi.1)

theorem findLight_ok {rounds i : ℕ} {found light : Light}
    (h : findLight lights id rounds i found = .ok light) :
    (light = found ∧ ∀ k : Fin 50, i ≤ k.val → k.val < i+rounds → (lights k).id.toNat ≠ id) ∨
      ∃ j, i ≤ j.val ∧ LastWith lights id (i+rounds) j ∧ light = lights j := by
  induction rounds generalizing i found with
  | zero =>
    cases h
    exact Or.inl ⟨rfl,fun k hk hlt => absurd hlt (by omega)⟩
  | succ rounds ih =>
    obtain ⟨l,hl,hrest⟩ := bind_ok.mp h
    obtain ⟨k,hk,he,rfl⟩ := read_ok.mp hl
    obtain rfl : i = k := by omega
    rcases ih hrest with ⟨hlight,hnone⟩ | ⟨j,hj,hlast,hlight⟩
    · have hafter : ∀ n : Fin 50, i < n.val → n.val < i+(rounds+1) → (lights n).id.toNat ≠ id :=
        fun n hn hlt => hnone n (by omega) (by omega)
      by_cases hid : ((lights ⟨i,hk⟩).id.toNat:ℤ) = id
      · rw [if_pos hid] at hlight
        exact Or.inr ⟨⟨i,hk⟩,le_refl i,⟨by show i < _; omega,hid,hafter⟩,hlight⟩
      · rw [if_neg hid] at hlight
        refine Or.inl ⟨hlight,fun n hn hlt => ?_⟩
        rcases Nat.lt_or_eq_of_le hn with hgt | heq
        · exact hafter n hgt hlt
        · rwa [show n = ⟨i,hk⟩ from Fin.ext heq.symm]
    · rw [Nat.add_right_comm, Nat.add_assoc] at hlast
      exact Or.inr ⟨j,by omega,hlast,hlight⟩

end Search

/-- The fields that the light page shows. -/
def Alike (l m : Light) : Prop :=
  l.on = m.on ∧ l.brightness = m.brightness ∧ l.onlyDimmable = m.onlyDimmable

/-- The button of the light in cell `k` of a room. -/
def ButtonOf (b : Button) (room : Room) (k : Fin 20) : Prop :=
  b.event = some .drawLight ∧ k.val < room.lightCounter.toNat ∧ b.id = (room.lightIds k).toNat

/-- The room opened last has each of its lights once, and the bridge knows as many. -/
def Stocked (w : Visited) (m : RoomVisits.Move) : Prop :=
  m.button.event = some .drawLight →
    w.eink.house.currentRoom.lightCounter ≤ w.eink.house.allLightCount ∧
    w.eink.house.allLightCount ≤ 50 ∧
    ∀ j k : Fin 20, j.val < w.eink.house.currentRoom.lightCounter.toNat →
      k.val < w.eink.house.currentRoom.lightCounter.toNat →
      w.eink.house.currentRoom.lightIds j = w.eink.house.currentRoom.lightIds k → j = k

/-- The touch of a light's button shows the record of the latest visit. -/
def ShowsFetched (w : Visited) (m : RoomVisits.Move) : Prop :=
  ∀ k, ButtonOf m.button w.eink.house.currentRoom k →
    Ends (pressed m.answers m.button m.index w.eink)
      (fun t => Alike t.house.currentLight (w.states k)) (fun _ => True)

/-- Of the lights left behind the room, the last with this identifier says what
the room's own record says. -/
def Unshadowed (w : Visited) (m : RoomVisits.Move) : Prop :=
  ∀ k j, ButtonOf m.button w.eink.house.currentRoom k →
    w.eink.house.currentRoom.lightCounter.toNat ≤ j.val →
    LastWith w.eink.house.lights m.button.id w.eink.house.allLightCount.toNat j →
      Alike (w.eink.house.lights j) (w.states k)

theorem pressed_found {a : Answers} {b : Button} (i : Fin 30) {s : Eink}
    (hb : b.event = some .drawLight) :
    Ends (pressed a b i s) (fun t => findLight s.house.lights b.id
      s.house.allLightCount.toNat 0 s.house.currentLight = .ok t.house.currentLight)
      (fun _ => True) := by
  rw [pressed, hb]
  refine ends_imp (drawLight_found a b.id (s := { s with pressedButton := b }) (Or.inr rfl))
    fun t ht => ht.2

theorem showsFetched_iff {w : Visited} {m : RoomVisits.Move} {v : Visited} (hw : Visiting w)
    (hs : Stocked w m) (h : visit w m = .ok v) : ShowsFetched w m ↔ Unshadowed w m := by
  obtain ⟨t,ht,-⟩ := bind_ok.mp h
  refine forall_congr' fun k => ?_
  let n := w.eink.house.currentRoom.lightCounter.toNat
  by_cases hk : ButtonOf m.button w.eink.house.currentRoom k
  · obtain ⟨hb,hkn,hid⟩ := hk
    obtain ⟨hle,-,hinj⟩ := hs hb
    have hle := UInt8.le_iff_toNat_le.mp hle
    have hroom : ∀ i : Fin 20, i.val < n → w.eink.house.lights ⟨i,by omega⟩ =
        { w.states i with id := w.eink.house.currentRoom.lightIds i } := fun i hi => by
      have hfront := hw.front i (by omega) i.isLt (by rw [← hw.room]; exact hi)
      rw [← hw.room] at hfront
      exact hfront
    have hown : ((w.eink.house.lights ⟨k,by omega⟩).id.toNat:ℤ) = m.button.id := by
      rw [hroom k hkn, hid]
    -- The search ends behind the room, or on the light itself.
    have hfound := ends_of_ok (pressed_found m.index hb) ht
    rcases findLight_ok hfound with ⟨-,hnone⟩ | ⟨j,-,hlast,hlight⟩
    · exact absurd hown (hnone ⟨k,by omega⟩ (by omega) (by show k.val < _; omega))
    rw [Nat.zero_add] at hlast
    have hshow : (ButtonOf m.button w.eink.house.currentRoom k →
        Ends (pressed m.answers m.button m.index w.eink)
          (fun t => Alike t.house.currentLight (w.states k)) (fun _ => True)) ↔
        Alike (w.eink.house.lights j) (w.states k) := by
      rw [ht, ends_ok, hlight]
      exact ⟨fun h => h ⟨hb,hkn,hid⟩,fun h _ => h⟩
    rw [hshow]
    by_cases hj : n ≤ j.val
    · exact ⟨fun h i _ _ hi => by rw [lastWith_unique hi hlast]; exact h,
        fun h => h j ⟨hb,hkn,hid⟩ hj hlast⟩
    · have hsmall := hw.small
      rw [← hw.room] at hsmall
      have hjn : j.val < n := by omega
      have hsame : j.val = k.val := by
        refine congrArg Fin.val (hinj ⟨j.val,by omega⟩ k hjn hkn ?_)
        have hj := hlast.2.1
        rw [show j = ⟨j.val,j.isLt⟩ from rfl, hroom ⟨j.val,by omega⟩ hjn, hid] at hj
        exact UInt8.toNat_inj.mp (Int.ofNat_inj.mp hj)
      have hjk : j = ⟨k.val,by omega⟩ := Fin.ext hsame
      refine ⟨fun h i _ hi hw => absurd hi ?_,fun _ => ?_⟩
      · rw [lastWith_unique hw hlast]
        exact hj
      · rw [hjk, hroom k hkn]
        exact ⟨rfl,rfl,rfl⟩
  · exact ⟨fun _ _ h => absurd h hk,fun _ h => absurd h hk⟩

/-- In a run from boot that returns, every touch of the button of a light of
the room opened last shows the record of its latest visit if and only if no
light left behind by another room says otherwise under its identifier. -/
theorem shown_iff_unshadowed {ms : List RoomVisits.Move} {u : Visited}
    (hr : run visit {} ms = .ok u) (hl : Meets visit Leveled {} ms)
    (hs : Meets visit Stocked {} ms) :
    Meets visit ShowsFetched {} ms ↔ Meets visit Unshadowed {} ms := by
  have hboth := meets_and (meets_returned hr hl) hs
  refine meets_iff (I := Visiting) (fun w m v hw hm hv => ?_) (fun w m hw hm => ?_) visiting_boot
    hboth
  · exact ends_of_ok (visit_visiting hw hm.1.1) hv
  · obtain ⟨⟨-,v,hv⟩,hstock⟩ := hm
    exact showsFetched_iff hw hstock hv

instance lastWith_decidable (lights : Fin 50 → Light) (id : ℤ) (c : ℕ) (j : Fin 50) :
    Decidable (LastWith lights id c j) :=
  inferInstanceAs (Decidable (_ ∧ _ ∧ ∀ _ : Fin 50, _ → _ → _))

instance alike_decidable (l m : Light) : Decidable (Alike l m) :=
  inferInstanceAs (Decidable (_ ∧ _ ∧ _))

instance buttonOf_decidable (b : Button) (room : Room) (k : Fin 20) :
    Decidable (ButtonOf b room k) :=
  inferInstanceAs (Decidable (_ ∧ _ ∧ _))

instance stocked_decidable (w : Visited) (m : RoomVisits.Move) : Decidable (Stocked w m) :=
  inferInstanceAs (Decidable (_ → _ ∧ _ ∧ ∀ _ _ : Fin 20, _ → _ → _ → _))

instance showsFetched_decidable (w : Visited) (m : RoomVisits.Move) :
    Decidable (ShowsFetched w m) :=
  inferInstanceAs (Decidable (∀ _ : Fin 20, _ → _))

instance unshadowed_decidable (w : Visited) (m : RoomVisits.Move) : Decidable (Unshadowed w m) :=
  inferInstanceAs (Decidable (∀ (_ : Fin 20) (_ : Fin 50), _ → _ → _ → _))

def sharedLamp (on : Bool) : Answers where
  groups := [{ id := 1, name := "Gang", lights := [7] },
    { id := 2, name := "Stue", lights := [5,6,7] }]
  allLights := [{ id := 5 },{ id := 6 },{ id := 7 }]
  states := fun _ => { name := "Pære", on := on }

def openWith (on : Bool) (r : ℤ) : RoomVisits.Move where
  answers := sharedLamp on
  button := { event := some .drawRoom, id := r }

def openLamp (id : ℤ) : RoomVisits.Move where
  answers := sharedLamp false
  button := { event := some .drawLight, id := id }

def refreshed : RoomVisits.Move where
  answers := sharedLamp false
  button := { event := some .fetchData }

/-- The lamp in the larger room, and again in the smaller one. -/
theorem shared_lamp_shown :
    Meets visit ShowsFetched {}
      [refreshed,openWith false 1,openLamp 7,openWith false 0,openLamp 7] :=
  (shown_iff_unshadowed (u := (run visit {} [refreshed,openWith false 1,openLamp 7,
    openWith false 0,openLamp 7]).toOption.getD {})
    (ok_getD {} (by decide +kernel)) (by decide +kernel) (by decide +kernel)).mpr
    (by decide +kernel)

/-- The lamp was turned on between the two visits. -/
theorem lit_lamp_shown_dark : ¬∀ (ms : List RoomVisits.Move) (u : Visited),
    run visit {} ms = .ok u → Meets visit Leveled {} ms → Meets visit Stocked {} ms →
    Meets visit ShowsFetched {} ms := by
  intro h
  have hshown := h [refreshed,openWith false 1,openWith true 0,openLamp 7]
    ((run visit {} [refreshed,openWith false 1,openWith true 0,openLamp 7]).toOption.getD {})
    (ok_getD {} (by decide +kernel)) (by decide +kernel) (by decide +kernel)
  revert hshown
  decide +kernel

end THue.LightRecords
