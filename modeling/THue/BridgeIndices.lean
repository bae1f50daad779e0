import THue.DialCycle
import THue.PageBounds

/-!
# Indices from the bridge

The counts of a refresh become bounds of loops, places of the dials and pages of
lists. Of every run from power-up it is known which acts index outside an array.
-/

set_option autoImplicit false

namespace THue.BridgeIndices
open THue.Globals THue.CheckedArray THue.FaultRun THue.Entertainment THue.TouchScreen THue.Bridge
open THue.Pages THue.PagedLists THue.PageDrawing THue.Navigation THue.Encoder
open THue.BridgeArrays THue.ListBounds THue.PageBounds

/-- From here a detent leads to place 20. -/
def Arrives (counter : UInt8) : Direction → Prop
  | .none => False
  | .up => counter = 19
  | .down => counter = 0

instance arrives_decidable (counter : UInt8) : ∀ dir, Decidable (Arrives counter dir)
  | .none => isFalse id
  | .up => inferInstanceAs (Decidable (_ = _))
  | .down => inferInstanceAs (Decidable (_ = _))

/-- The place of a loop's dial is one of at most 20 bulbs or the room behind them. -/
def Placed : Loop → Prop
  | .choosing c => c.counter.toNat ≤ 20
  | .flashing c => c.counter.toNat ≤ 20
  | .outside | .adjusting _ => True

/-- The task reads `lightIds` at the place of the room: where it enters
`chooseAndAlterLightInRoom`, or where a detent arrives there. A full path stops an
iteration that opens a light before. -/
def Lands (i : Input) (d : Device) : Prop :=
  match d.loop with
  | .outside => Chooses d.eink
  | .choosing c => Chooses d.eink ∧ Arrives c.counter i.direction ∧
      ¬(OpensLight i (waitTurn i.millis d.eink.uiLevel c) d.eink ∧ Blocked d.eink.nav)
  | .flashing c => d.currentScreen = .room ∧ Arrives c.counter i.direction
  | .adjusting _ => False

instance lands_decidable (i : Input) : ∀ d, Decidable (Lands i d)
  | ⟨_,_,.outside⟩ => inferInstanceAs (Decidable (Chooses _))
  | ⟨_,_,.choosing _⟩ => inferInstanceAs (Decidable (_ ∧ _ ∧ ¬_))
  | ⟨_,_,.flashing _⟩ => inferInstanceAs (Decidable (_ ∧ _))
  | ⟨_,_,.adjusting _⟩ => isFalse id

structure Dialing (d : Device) : Prop where
  ranged : Ranged d.eink
  placed : Placed d.loop

section Dials
variable {s t : Eink} {d : Device} {counter : UInt8} {dir : Direction}

theorem arrives_iff (hc : counter.toNat ≤ 20) :
    (dir ≠ .none ∧ nextCounter counter 20 dir = 20) ↔ Arrives counter dir := by
  have hplaces : ∀ k : Fin 21, (nextCounter (UInt8.ofNat k) 20 .up = 20 ↔ UInt8.ofNat k = 19) ∧
      (nextCounter (UInt8.ofNat k) 20 .down = 20 ↔ UInt8.ofNat k = 0) := by decide
  obtain ⟨hup,hdown⟩ := hplaces ⟨counter.toNat,by omega⟩
  rw [UInt8.ofNat_toNat] at hup hdown
  cases dir with
  | none => exact ⟨fun h => absurd rfl h.1,False.elim⟩
  | up => exact ⟨fun h => hup.mp h.2,fun h => ⟨by decide,hup.mpr h⟩⟩
  | down => exact ⟨fun h => hdown.mp h.2,fun h => ⟨by decide,hdown.mpr h⟩⟩

theorem place_read {r : Room} (hr : r.lightCounter.toNat ≤ 20) (hc : counter ≤ r.lightCounter)
    (h20 : r.lightCounter = 20 → counter ≠ 20) :
    Ends (read r.lightIds counter.toNat (Fault.outside .roomLightIds counter.toNat))
      (fun _ => True) Inside := by
  have hle := UInt8.le_iff_toNat_le.mp hc
  have hlt : counter.toNat < 20 := by
    by_contra hn
    have hplace : counter = 20 := UInt8.toNat_inj.mp (show counter.toNat = 20 by omega)
    have hroom : r.lightCounter = 20 :=
      UInt8.toNat_inj.mp (show r.lightCounter.toNat = 20 by omega)
    exact h20 hroom hplace
  exact ends_imp (inside_read _ _ (by omega) (by omega)) fun _ _ => trivial

theorem next_read {r : Room} (hr : r.lightCounter.toNat ≤ 20) (hc : counter.toNat ≤ 20)
    (hd : dir ≠ .none) (h20 : r.lightCounter = 20 → ¬Arrives counter dir) :
    (nextCounter counter r.lightCounter dir).toNat ≤ 20 ∧
      Ends (read r.lightIds (nextCounter counter r.lightCounter dir).toNat
        (Fault.outside .roomLightIds (nextCounter counter r.lightCounter dir).toNat))
        (fun _ => True) Inside := by
  have hle : nextCounter counter r.lightCounter dir ≤ r.lightCounter :=
    DialTargets.nextCounter_le hd
  refine ⟨(UInt8.le_iff_toNat_le.mp hle).trans hr,place_read hr hle fun hn => ?_⟩
  rw [hn]
  exact fun h => h20 hn ((arrives_iff hc).mp ⟨hd,h⟩)

theorem place_outside (ids : Fin 20 → UInt8) (h : counter = 20) :
    read ids counter.toNat (Fault.outside .roomLightIds counter.toNat) =
      .error (.outside .roomLightIds 20) := by
  rw [h]
  exact read_outside ids _ 20 (by decide)

theorem setCurrentLightFrom_inside (lightIds : Fin 50 → Light) (id : UInt8) {rounds i : ℕ}
    (found : Light) (h : i+rounds ≤ 50) :
    Ends (setCurrentLightFrom lightIds id rounds i found) (fun _ => True) Inside := by
  induction rounds generalizing i found with
  | zero => trivial
  | succ rounds ih =>
    exact ends_bind_ok (read_inside lightIds _ i (by omega)) (ih _ (by omega))

theorem setCurrentLight_ranged (id : UInt8) (hs : Ranged s) :
    Ends (setCurrentLight id s) Ranged Inside := by
  have hall := hs.house.all
  exact ends_bind (setCurrentLightFrom_inside _ _ _ (by omega)) fun light _ =>
    dialled_ranged hs ⟨rfl,rfl,rfl,rfl⟩

theorem chooseBulb_ranged (i : Input) {c : Choosing} (hs : Ranged s) (hc : c.counter.toNat ≤ 20)
    (h20 : s.house.currentRoom.lightCounter = 20 → ¬Arrives c.counter i.direction) :
    Ends (chooseBulb i c s) (fun t => Ranged t.eink ∧ t.loop.counter.toNat ≤ 20) Inside := by
  rw [chooseBulb]
  split
  · exact ⟨hs,hc⟩
  · next hd =>
    obtain ⟨hle,hread⟩ := next_read hs.house.room hc hd h20
    refine ends_bind hread fun id _ => ?_
    split
    · exact ⟨hs,hle⟩
    · exact ends_bind (setCurrentLight_ranged id hs) fun t ht => ⟨ht,hle⟩

theorem chooseBulb_outside {i : Input} {c : Choosing} (hc : c.counter.toNat ≤ 20)
    (h20 : s.house.currentRoom.lightCounter = 20) (ha : Arrives c.counter i.direction) :
    chooseBulb i c s = .error (.outside .roomLightIds 20) := by
  obtain ⟨hd,hnext⟩ := (arrives_iff hc).mpr ha
  rw [chooseBulb, if_neg hd]
  rw [← h20] at hnext
  dsimp only
  rw [place_outside _ (hnext.trans h20)]
  rfl

theorem openChosen_ranged (i : Input) (c : Choosing) (hs : Ranged s) :
    Ends (openChosen i c s) Ranged Inside := by
  rw [openChosen]
  split
  · exact drawLight_ranged (s := logAction _ _ { s with calledFromEncoder := true }) _ _ hs.house
  · exact hs

theorem openChosen_blocked (i : Input) (c : Choosing) (hs : Fitted s.house) :
    Ends (openChosen i c s) (fun _ => ¬(OpensLight i c s ∧ Blocked s.nav))
      (fun _ => OpensLight i c s ∧ Blocked s.nav) := by
  rw [openChosen]
  split
  · next ho =>
    exact ends_mono (drawLight_blocked (s := logAction _ _ { s with calledFromEncoder := true })
      _ _ hs) (fun _ hb h => hb h.2) fun _ hb => ⟨ho,hb⟩
  · next ho => exact fun h => ho h.1

theorem stages_keep (i : Input) (c : Choosing) (s : Eink) :
    ((switchChosen i c s).andThen (brightenChosen i)).loop.counter = c.counter ∧
      Dialled s ((switchChosen i c s).andThen (brightenChosen i)).eink := by
  obtain ⟨on,hloop⟩ := (DialCycle.chosen_prepared i c s).loop
  refine ⟨by rw [hloop],dialled_trans (switchChosen_dialled i c s) (brightenChosen_dialled i _ _)⟩

section Choose
variable {i : Input} {c : Choosing}

theorem chooseAndAlterLightInRoom_ranged (hs : Ranged s) (hc : c.counter.toNat ≤ 20)
    (h20 : s.house.currentRoom.lightCounter = 20 → Arrives c.counter i.direction →
      OpensLight i (waitTurn i.millis s.uiLevel c) s ∧ Blocked s.nav) :
    Ends (chooseAndAlterLightInRoom i c s) (fun t => Ranged t.eink ∧ t.loop.counter.toNat ≤ 20)
      Inside := by
  have hwait := (DialTargets.waitTurn_bulb i.millis s.uiLevel c).1
  refine ends_bind (ends_and (ends_and (openChosen_ranged i _ hs) (openChosen_blocked i _ hs.house))
    (openChosen_house i _ s)) ?_
  rintro o ⟨⟨ho,hopen⟩,hroom⟩
  obtain ⟨hcounter,hdial⟩ := stages_keep i (waitTurn i.millis s.uiLevel c) o
  rw [hwait] at hcounter
  refine ends_bind (chooseBulb_ranged i (dialled_ranged ho hdial) (hcounter ▸ hc) fun hn ha => ?_)
    fun t ht => ht
  rw [(dialled_room hdial).2, DialCycle.opened_room hroom] at hn
  rw [hcounter] at ha
  exact hopen (h20 hn ha)

theorem chooseAndAlterLightInRoom_outside (hs : Fitted s.house) (hc : c.counter.toNat ≤ 20)
    (h20 : s.house.currentRoom.lightCounter = 20) (ha : Arrives c.counter i.direction)
    (hopen : ¬(OpensLight i (waitTurn i.millis s.uiLevel c) s ∧ Blocked s.nav)) :
    chooseAndAlterLightInRoom i c s = .error (.outside .roomLightIds 20) := by
  have hwait := (DialTargets.waitTurn_bulb i.millis s.uiLevel c).1
  have hblocked := openChosen_blocked i (waitTurn i.millis s.uiLevel c) hs
  have hroom := openChosen_house i (waitTurn i.millis s.uiLevel c) s
  rw [chooseAndAlterLightInRoom]
  cases hx : openChosen i (waitTurn i.millis s.uiLevel c) s with
  | error e =>
    rw [hx] at hblocked
    exact absurd hblocked hopen
  | ok o =>
    rw [hx] at hroom
    obtain ⟨hcounter,hdial⟩ := stages_keep i (waitTurn i.millis s.uiLevel c) o
    rw [hwait] at hcounter
    have hn := (dialled_room hdial).2
    rw [DialCycle.opened_room hroom, h20] at hn
    show (chooseBulb i ((switchChosen i _ o).andThen (brightenChosen i)).loop
      ((switchChosen i _ o).andThen (brightenChosen i)).eink >>= _) = _
    rw [chooseBulb_outside (hcounter ▸ hc) hn (hcounter ▸ ha)]
    rfl

end Choose

theorem chooseLightInRoom_ranged (i : Input) {c : Flashing} (hs : Ranged s)
    (hc : c.counter.toNat ≤ 20)
    (h20 : s.house.currentRoom.lightCounter = 20 → ¬Arrives c.counter i.direction) :
    Ends (chooseLightInRoom i c s) (fun t => Ranged t.eink ∧ t.loop.counter.toNat ≤ 20) Inside := by
  rw [chooseLightInRoom]
  split
  · exact ⟨hs,hc⟩
  · next hd =>
    obtain ⟨hle,hread⟩ := next_read hs.house.room hc hd h20
    refine ends_bind hread fun id _ => ?_
    split <;> exact ⟨hs,hle⟩

theorem chooseLightInRoom_outside {i : Input} {c : Flashing} (hc : c.counter.toNat ≤ 20)
    (h20 : s.house.currentRoom.lightCounter = 20) (ha : Arrives c.counter i.direction) :
    chooseLightInRoom i c s = .error (.outside .roomLightIds 20) := by
  obtain ⟨hd,hnext⟩ := (arrives_iff hc).mpr ha
  rw [chooseLightInRoom, if_neg hd]
  rw [← h20] at hnext
  dsimp only
  rw [place_outside _ (hnext.trans h20)]
  rfl

theorem enter_placed (hs : Fitted s.house)
    (h20 : s.house.currentRoom.lightCounter = 20 → ¬Chooses s) : Ends (enter s) Placed Inside := by
  have hroom := hs.room
  rw [enter]
  split
  · trivial
  · next ht =>
    exact ends_bind (place_read hroom (UInt8.le_refl _) fun hn => absurd (Or.inl ht) (h20 hn))
      fun _ _ => hroom
  · next ht =>
    exact ends_bind (place_read hroom (UInt8.le_refl _) fun hn => absurd (Or.inr ht) (h20 hn))
      fun _ _ => hroom
  · exact ends_bind (place_read hroom UInt8.zero_le fun _ => by decide) fun _ _ => Nat.zero_le _
  · trivial

theorem enter_outside (h20 : s.house.currentRoom.lightCounter = 20) (hc : Chooses s) :
    enter s = .error (.outside .roomLightIds 20) := by
  rw [enter]
  obtain ht | ht := hc
  · rw [ht]
    dsimp only
    rw [place_outside _ h20]
    rfl
  · rw [ht]
    dsimp only
    rw [place_outside _ h20]
    rfl

theorem turn_dialing {i : Input} (hd : Dialing d)
    (h20 : d.eink.house.currentRoom.lightCounter = 20 → ¬Lands i d) :
    Ends (iterate i d) (fun p => Dialing p.1) Inside := by
  obtain ⟨hs,hplaced⟩ := hd
  refine iterate_ends (fun hl => ?_) ⟨hs,trivial⟩ (fun c hl hch => ?_) (fun c hl hroom => ?_)
    fun c _ _ => ⟨dialled_ranged hs (adjustLight_dialled i c d.eink),trivial⟩
  · refine ends_imp (enter_placed hs.house fun hn hch => h20 hn ?_) fun l h => ⟨hs,h⟩
    rw [Lands, hl]
    exact hch
  · rw [hl] at hplaced
    refine ends_imp (chooseAndAlterLightInRoom_ranged hs hplaced fun hn ha => ?_)
      fun t ht => ⟨ht.1,ht.2⟩
    have hno := h20 hn
    rw [Lands, hl] at hno
    exact not_not.mp fun hopen => hno ⟨hch,ha,hopen⟩
  · rw [hl] at hplaced
    refine ends_imp (chooseLightInRoom_ranged i hs hplaced fun hn ha => h20 hn ?_)
      fun t ht => ⟨ht.1,ht.2⟩
    rw [Lands, hl]
    exact ⟨hroom,ha⟩

theorem turn_outside {i : Input} (hd : Dialing d)
    (h20 : d.eink.house.currentRoom.lightCounter = 20) (hi : Lands i d) :
    iterate i d = .error (.outside .roomLightIds 20) := by
  obtain ⟨hs,hplaced⟩ := hd
  rw [iterate]
  cases hl : d.loop with
  | outside =>
    rw [Lands, hl] at hi
    dsimp only
    rw [enter_outside h20 hi]
    rfl
  | choosing c =>
    rw [Lands, hl] at hi
    rw [hl] at hplaced
    obtain ⟨hch,ha,hopen⟩ := hi
    dsimp only
    rw [if_pos hch, chooseAndAlterLightInRoom_outside hs.house hplaced h20 ha hopen]
    rfl
  | flashing c =>
    rw [Lands, hl] at hi
    rw [hl] at hplaced
    obtain ⟨hroom,ha⟩ := hi
    dsimp only
    rw [if_pos hroom, chooseLightInRoom_outside hplaced h20 ha]
    rfl
  | adjusting c =>
    rw [Lands, hl] at hi
    exact hi.elim

end Dials

/-- The device boots and fetches, is touched, or runs an iteration of the encoder task. -/
inductive Act where
  | boot (a : Answers)
  | move (m : Encoder.Move)

def act : Device → Act → Except Fault Device
  | _, .boot a => do
      let s ← fetchData a {}
      pure { eink := s }
  | d, .move m => Encoder.step d m

def refresh (d : Device) : Act → Option (Answers × House)
  | .boot a => some (a,{})
  | .move (.touch a x y) =>
      if handler d.eink (.touch a x y) = some .fetchData then some (a,d.eink.house) else none
  | .move (.turn _) => none

def Bounded (d : Device) (m : Act) : Prop := ∀ p ∈ refresh d m, Limited p.1

instance bounded_decidable (d : Device) (m : Act) : Decidable (Bounded d m) :=
  inferInstanceAs (Decidable (∀ p ∈ refresh d m, Limited p.1))

/-- The getters store what the bridge answers, and no index of the act is outside
an array that its counts lead into. -/
def Indexed (d : Device) (m : Act) : Prop :=
  (∀ p ∈ refresh d m, Ends (fetchHouse p.1 p.2) (Stored p.1) Inside) ∧
    Ends (act d m) (fun _ => True) Inside

/-- The answers fit, the next page may start, and the dial does not come to the
place of a room with 20 lights. -/
def Clear (d : Device) : Act → Prop
  | .boot a => Fits a
  | .move (.touch a x y) => ∀ e ∈ handler d.eink (.touch a x y), Admits a d.eink e
  | .move (.turn i) => d.eink.house.currentRoom.lightCounter = 20 → ¬Lands i d

instance clear_decidable (d : Device) : ∀ m, Decidable (Clear d m)
  | .boot _ => inferInstanceAs (Decidable (Fits _))
  | .move (.touch _ _ _) => inferInstanceAs (Decidable (∀ e ∈ handler _ _, Admits _ _ e))
  | .move (.turn _) => inferInstanceAs (Decidable (_ → ¬_))

section Runs
variable {d : Device} {m : Act}

theorem boot_ranged : Ranged {} where
  house := ⟨fun _ => Nat.zero_le _,Nat.zero_le _,Nat.zero_le _,Nat.zero_le _,Nat.zero_le _⟩
  paged := by
    have hnone : ∀ k e, (({} : Eink).screen.buttons k).event ≠ some e := fun k e he => by cases he
    exact ⟨fun k e he => absurd he (hnone k e),fun k _ e he => absurd he (hnone k e)⟩

theorem act_dialing (hd : Dialing d) (hl : Bounded d m) (hm : Clear d m) :
    Ends (act d m) Dialing Inside := by
  cases m with
  | boot a =>
    exact ends_bind (fetchData_ranged (hl _ rfl) hm boot_ranged) fun s hs => ⟨hs,trivial⟩
  | move m =>
    cases m with
    | touch a x y =>
      refine ends_bind (touch_ranged hd.ranged (fun hh => ?_) hm) fun s hs => ⟨hs,hd.placed⟩
      exact hl (a,d.eink.house) (if_pos hh)
    | turn i =>
      refine ends_bind (turn_dialing hd hm) ?_
      rintro ⟨e,sent⟩ he
      exact he

theorem clear_fits (hm : Clear d m) : ∀ p ∈ refresh d m, Fits p.1 := by
  intro p hp
  cases m with
  | boot a =>
    cases hp
    exact hm
  | move m =>
    cases m with
    | turn i => cases hp
    | touch a x y =>
      by_cases hh : handler d.eink (.touch a x y) = some .fetchData
      · rw [refresh, if_pos hh] at hp
        cases hp
        exact (hm _ hh).fetch rfl
      · rw [refresh, if_neg hh] at hp
        cases hp

theorem touch_admits {a : Answers} {x y : ℤ} {e : Event} (hd : Dialing d)
    (hl : Bounded d (.move (.touch a x y))) (hi : Indexed d (.move (.touch a x y)))
    (hh : handler d.eink (.touch a x y) = some e) : Admits a d.eink e := by
  refine ⟨?_,?_⟩
  · rintro rfl
    have hp : (a,d.eink.house) ∈ refresh d (.move (.touch a x y)) := if_pos hh
    exact (fetchHouse_stored (hl _ hp) d.eink.house).mp (hi.1 _ hp)
  · rintro rfl
    obtain ⟨i,hfound,he⟩ := Option.bind_eq_some_iff.mp hh
    by_contra hc
    have hfault := drawNextPage_outside
      (s := { d.eink with pressedButton := d.eink.screen.buttons i })
      (hd.ranged.paged.live i (onTouchEvent_live hfound) _ he (Or.inl rfl)) hc
    have hact : Ends (touch a x y d.eink >>= fun s => pure { d with eink := s }) (fun _ => True)
        Inside := hi.2
    simp only [touch, hfound, he, handle] at hact
    cases hx : drawNextPage { d.eink with pressedButton := d.eink.screen.buttons i } with
    | ok t =>
      rw [hx] at hfault
      exact hfault
    | error f =>
      rw [hx] at hfault hact
      exact hfault hact

theorem indexed_iff (hd : Dialing d) (hl : Bounded d m) : Indexed d m ↔ Clear d m := by
  constructor
  · intro hi
    cases m with
    | boot a => exact (fetchHouse_stored (hl (a,{}) rfl) {}).mp (hi.1 (a,{}) rfl)
    | move m =>
      cases m with
      | touch a x y => exact fun e hh => touch_admits hd hl hi hh
      | turn i =>
        intro h20 hlands
        have hact : Ends (iterate i d >>= fun p => pure p.1) (fun _ => True) Inside := hi.2
        rw [turn_outside hd h20 hlands] at hact
        exact hact .roomLightIds (by decide) 20 rfl
  · intro hm
    refine ⟨fun p hp => (fetchHouse_stored (hl p hp) p.2).mpr (clear_fits hm p hp),?_⟩
    exact ends_imp (act_dialing hd hl hm) fun _ _ => trivial

end Runs

theorem start_dialing : Dialing {} := ⟨boot_ranged,trivial⟩

/-- From power-up on, whatever the bridge answers within its limits. -/
theorem indexed_iff_clear {ms : List Act} (hl : Meets act Bounded {} ms) :
    Meets act Indexed {} ms ↔ Meets act Clear {} ms :=
  meets_iff_guarded (I := Dialing) (fun _ _ _ hd hl hm he => ends_of_ok (act_dialing hd hl hm) he)
    (fun _ _ hd hl => indexed_iff hd hl) start_dialing hl

def ids (n : ℕ) : List UInt8 := (List.range n).map fun i => UInt8.ofNat (i+1)

/-- A house of two rooms, the second with `n` lights, at a UI level. -/
def bridge (n : ℕ) (level : Option ℤ) : Answers where
  groups := [{ id := 1, name := "Gang" },{ id := 2, name := "Stue", lights := ids n }]
  entertainmentGroup := { lights := ids n }
  allLights := (ids n).map fun id => { id := id, name := "Pære" }
  states := fun _ => { name := "Pære" }
  level := level

def tapped (x y : ℤ) : Act := .move (.touch (bridge 20 none) x y)

/-- The second room with its 20 lights: its dial, its next page, and a refresh from home. -/
def tour : List Act :=
  [.boot (bridge 20 none),.move (.turn {}),tapped 50 70,tapped 120 70,.move (.turn {}),
    .move (.turn {}),.move (.turn { direction := .up }),tapped 100 220,tapped 88 251,tapped 29 251]

theorem tour_indexed : (run act {} tour).isOk ∧ Meets act Indexed {} tour :=
  ⟨by decide +kernel,(indexed_iff_clear (by decide +kernel)).mpr (by decide +kernel)⟩

def crowded : List Act := [.boot (bridge 20 (some 1)),.move (.turn {})]

def crowdedHome : Device := (act {} (.boot (bridge 20 (some 1)))).toOption.getD {}

/-- On the home page the task reads the place of the room behind its 20 lights. -/
theorem crowded_outside : ¬∀ ms, Meets act Bounded {} ms → Meets act Indexed {} ms := by
  intro h
  have hboot : act {} (.boot (bridge 20 (some 1))) = .ok crowdedHome :=
    ok_getD {} (by decide +kernel)
  have hturn : act crowdedHome (.move (.turn {})) = .error (.outside .roomLightIds 20) := by rfl
  obtain ⟨-,hrest⟩ := h crowded (by decide +kernel)
  rw [hboot] at hrest
  have hinside := hrest.1.2
  rw [hturn] at hinside
  exact hinside .roomLightIds (by decide) 20 rfl

end THue.BridgeIndices
