import THue.Encoder

/-!
# What the dials address

Each loop of the encoder task acts on copies taken when it was entered or when
a bulb was chosen. They name what is current as long as the task sees every
page change before the page it left comes back.
-/

set_option autoImplicit false

namespace THue.DialTargets
open THue.Globals THue.CheckedArray THue.FaultRun THue.Entertainment THue.Firebase
open THue.TouchScreen THue.Bridge THue.Pages THue.Encoder

/-- The lights of a room: `lightIds[0..lightCounter)`. -/
def roomLights (r : Room) : List UInt8 := front r.lightIds r.lightCounter.toNat

def adjusts : Command → Option UInt8
  | .brightness id _ | .hue id _ | .colorTemp id _ => some id
  | _ => none

def single : Command → Option UInt8
  | .brightness id _ | .hue id _ | .colorTemp id _ | .lightOn id | .lightOff id | .flash id =>
      some id
  | .groupBrightness _ _ | .groupOn _ | .groupOff _ | .groupFlash _ => none

def Addresses (loop : Loop) (h : House) (c : Command) : Prop :=
  match loop with
  | .adjusting _ => ∀ id ∈ adjusts c, id = h.currentLight.id
  | .choosing _ => ∀ id ∈ single c, id ∈ roomLights h.currentRoom
  | .outside | .flashing _ => True

instance addresses_decidable (loop : Loop) (h : House) (c : Command) :
    Decidable (Addresses loop h c) :=
  match loop with
  | .adjusting _ => inferInstanceAs (Decidable (∀ id ∈ adjusts c, _))
  | .choosing _ => inferInstanceAs (Decidable (∀ id ∈ single c, _))
  | .outside | .flashing _ => isTrue trivial

/-- Whatever the dials and the switch say next, the commands go to what is current. -/
def Aims (d : Device) : Prop :=
  ∀ i, Ends (iterate i d) (fun p => ∀ c ∈ p.2, Addresses d.loop p.1.eink.house c) (fun _ => True)

/-- A device and the room that was current in the last iteration of its loop. -/
structure Watched where
  device : Device := {}
  room : Room := {}

def watch (w : Watched) (m : Encoder.Move) : Except Fault Watched := do
  let d ← Encoder.step w.device m
  pure { device := d
         room := match m with
           | .touch _ _ _ => w.room
           | .turn _ => d.eink.house.currentRoom }

def SameRoom (r q : Room) : Prop :=
  roomLights q = roomLights r ∧ q.lightCounter = r.lightCounter

instance sameRoom_decidable (r q : Room) : Decidable (SameRoom r q) :=
  inferInstanceAs (Decidable (_ ∧ _))

/-- What a touch leaves while a loop is not left: `adjustLight` has not seen
another page and the light is the same, or the home page or the room list is
on screen and the room is the one of the last iteration. -/
def Unmoved (w : Watched) (t : Eink) : Prop :=
  match w.device.loop with
  | .adjusting _ =>
      w.device.currentScreen = .light →
        t.house.currentLight.id = w.device.eink.house.currentLight.id
  | .choosing _ => Chooses t → SameRoom w.room t.house.currentRoom
  | .outside | .flashing _ => True

instance unmoved_decidable (w : Watched) (t : Eink) : Decidable (Unmoved w t) := by
  unfold Unmoved
  split <;> infer_instance

def Seen (w : Watched) : Encoder.Move → Prop
  | .touch a x y => Ends (Pages.touch a x y w.device.eink) (Unmoved w) (fun _ => True)
  | .turn _ => True

instance seen_decidable (w : Watched) : ∀ m, Decidable (Seen w m)
  | .touch _ _ _ => inferInstanceAs (Decidable (Ends _ _ _))
  | .turn _ => isTrue trivial

variable {s t : Eink} {r q : Room} {c : Choosing}

def Aimed (c : Choosing) (r : Room) : Prop :=
  c.counter ≠ r.lightCounter → c.currentLightId ∈ roomLights r

theorem aimed_congr (h : SameRoom r q) : Aimed c q ↔ Aimed c r := by
  rw [Aimed, Aimed, h.1, h.2]

theorem dialled_same (h : Dialled s t) : SameRoom s.house.currentRoom t.house.currentRoom := by
  obtain ⟨hids,hcount⟩ := dialled_room h
  exact ⟨by rw [roomLights, roomLights, hids, hcount],hcount⟩

theorem sameRoom_trans {p : Room} (h : SameRoom p q) (g : SameRoom q r) : SameRoom p r :=
  ⟨g.1.trans h.1,g.2.trans h.2⟩

theorem nextCounter_le {counter lightCounter : UInt8} {d : Direction} (hd : d ≠ .none) :
    nextCounter counter lightCounter d ≤ lightCounter := by
  cases d with
  | none => exact absurd rfl hd
  | up =>
    rw [nextCounter]
    split
    · exact UInt8.zero_le
    · next h => exact UInt8.not_lt.mp h
  | down =>
    rw [nextCounter]
    split
    · exact UInt8.le_refl _
    · next h => exact UInt8.not_lt.mp h

theorem cell_light {k : ℕ} (hk : k < 20) (hc : k < r.lightCounter.toNat) :
    r.lightIds ⟨k,hk⟩ ∈ roomLights r :=
  List.mem_of_getElem? (front_get r.lightIds _ k hc hk)

structure Aiming (s : Eink) (t : Turn Choosing) : Prop where
  same : SameRoom s.house.currentRoom t.eink.house.currentRoom
  aimed : Aimed t.loop t.eink.house.currentRoom
  sent : ∀ cmd ∈ t.sent, ∀ id ∈ single cmd, id ∈ roomLights s.house.currentRoom

theorem aiming_append {t u : Turn Choosing} (ht : Aiming s t) (hu : Aiming t.eink u) :
    Aiming s { u with sent := t.sent ++ u.sent } := by
  refine ⟨sameRoom_trans ht.same hu.same,hu.aimed,fun cmd hc id hid => ?_⟩
  obtain hc | hc := List.mem_append.mp hc
  · exact ht.sent cmd hc id hid
  · rw [← ht.same.1]
    exact hu.sent cmd hc id hid

theorem aiming_of {t : Turn Choosing} (ha : Aimed c s.house.currentRoom) (hd : Dialled s t.eink)
    (hc : t.loop.counter = c.counter ∧ t.loop.currentLightId = c.currentLightId)
    (hs : ∀ cmd ∈ t.sent, ∀ id ∈ single cmd,
      c.counter ≠ s.house.currentRoom.lightCounter ∧ id = c.currentLightId) : Aiming s t := by
  refine ⟨dialled_same hd,?_,fun cmd hcmd id hid => ?_⟩
  · rw [aimed_congr (dialled_same hd), Aimed, hc.1, hc.2]
    exact ha
  · obtain ⟨hne,rfl⟩ := hs cmd hcmd id hid
    exact ha hne

theorem switchChosen_loop (i : Input) (c : Choosing) (s : Eink) :
    ∃ on, (switchChosen i c s).loop = { c with roomState := on } := by
  simp only [switchChosen]
  split
  · exact ⟨c.roomState,rfl⟩
  · split
    · exact ⟨false,rfl⟩
    · split
      · exact ⟨true,rfl⟩
      · split <;> exact ⟨c.roomState,rfl⟩

theorem brightenChosen_loop (i : Input) (c : Choosing) (s : Eink) :
    (brightenChosen i c s).loop = c := by
  rw [brightenChosen]
  split
  · rfl
  · split <;> rfl
  · split <;> rfl

theorem switchChosen_aims (i : Input) (ha : Aimed c s.house.currentRoom) :
    Aiming s (switchChosen i c s) := by
  obtain ⟨on,hloop⟩ := switchChosen_loop i c s
  refine aiming_of ha (switchChosen_dialled i c s) (by rw [hloop]; exact ⟨rfl,rfl⟩) ?_
  simp only [switchChosen]
  split
  · simp
  · split
    · simp [single]
    · split
      · simp [single]
      · split <;> simp_all [single]

theorem brightenChosen_aims (i : Input) (ha : Aimed c s.house.currentRoom) :
    Aiming s (brightenChosen i c s) := by
  refine aiming_of ha (brightenChosen_dialled i c s)
    (by rw [brightenChosen_loop]; exact ⟨rfl,rfl⟩) ?_
  rw [brightenChosen]
  split
  · simp
  · split <;> simp_all [brightenLight, brightenRoom, single]
  · split <;> simp_all [brightenLight, brightenRoom, single]

theorem next_light {counter : UInt8} {d : Direction} {e : Fault} (hd : d ≠ .none) :
    Ends (read r.lightIds (nextCounter counter r.lightCounter d).toNat e)
      (fun id => nextCounter counter r.lightCounter d ≠ r.lightCounter → id ∈ roomLights r)
      (fun _ => True) := by
  cases hr : read r.lightIds (nextCounter counter r.lightCounter d).toNat e with
  | error e => trivial
  | ok id =>
    intro hne
    obtain ⟨k,hk,hik,rfl⟩ := read_ok.mp hr
    have hle : (nextCounter counter r.lightCounter d).toNat ≤ r.lightCounter.toNat :=
      UInt8.le_iff_toNat_le.mp (nextCounter_le hd)
    have hne' : (nextCounter counter r.lightCounter d).toNat ≠ r.lightCounter.toNat :=
      fun h => hne (UInt8.toNat_inj.mp h)
    exact cell_light hk (by omega)

theorem chooseBulb_aims (i : Input) (ha : Aimed c s.house.currentRoom) :
    Ends (chooseBulb i c s) (Aiming s) (fun _ => True) := by
  rw [chooseBulb]
  split
  · exact ⟨⟨rfl,rfl⟩,ha,by simp⟩
  · next hd =>
    refine ends_bind (next_light hd) fun id hid => ?_
    split
    · next hroom => exact ⟨⟨rfl,rfl⟩,fun hne => absurd hroom hne,by simp [single]⟩
    · next hne =>
      refine ends_bind (setCurrentLight_dialled id s) fun t ht => ?_
      refine ⟨dialled_same ht,fun _ => ?_,by simpa [single] using hid hne⟩
      rw [(dialled_same ht).1]
      exact hid hne

theorem lightOf_same (h : LightOf s t) : SameRoom s.house.currentRoom t.house.currentRoom := by
  rw [h]
  exact ⟨rfl,rfl⟩

theorem waitTurn_bulb (millis : UInt32) (level : ℤ) (c : Choosing) :
    (waitTurn millis level c).counter = c.counter ∧
      (waitTurn millis level c).currentLightId = c.currentLightId := by
  simp only [waitTurn]
  split <;> split <;> split <;> exact ⟨rfl,rfl⟩

theorem choose_aims (i : Input) (ha : Aimed c s.house.currentRoom) :
    Ends (chooseAndAlterLightInRoom i c s) (Aiming s) (fun _ => True) := by
  obtain ⟨hcount,hid⟩ := waitTurn_bulb i.millis s.uiLevel c
  refine ends_bind (openChosen_house i _ s) fun o ho => ?_
  have haim : Aimed (waitTurn i.millis s.uiLevel c) o.house.currentRoom := by
    rw [aimed_congr (lightOf_same ho), Aimed, hcount, hid]
    exact ha
  have hswitch := switchChosen_aims i haim
  have hboth := aiming_append hswitch (brightenChosen_aims i hswitch.aimed)
  refine ends_bind (chooseBulb_aims i hboth.aimed) fun u hu => ?_
  have h := aiming_append hboth hu
  refine ⟨sameRoom_trans (lightOf_same ho) h.same,h.aimed,fun cmd hc id hi => ?_⟩
  rw [← (lightOf_same ho).1]
  exact h.sent cmd hc id hi

structure Keeping (c : Adjusting) (s : Eink) (t : Turn Adjusting) : Prop where
  light : t.loop.lightId = c.lightId
  current : t.eink.house.currentLight.id = s.house.currentLight.id
  sent : ∀ cmd ∈ t.sent, ∀ id ∈ adjusts cmd, id = c.lightId

theorem keeping_andThen {c : Adjusting} {t : Turn Adjusting} {f : Adjusting → Eink → Turn Adjusting}
    (ht : Keeping c s t) (hf : ∀ c s, Keeping c s (f c s)) : Keeping c s (t.andThen f) := by
  have hu := hf t.loop t.eink
  refine ⟨hu.light.trans ht.light,hu.current.trans ht.current,fun cmd hc id hid => ?_⟩
  obtain hc | hc := List.mem_append.mp hc
  · exact ht.sent cmd hc id hid
  · exact (hu.sent cmd hc id hid).trans ht.light

theorem switchLight_keeps (i : Input) (c : Adjusting) (s : Eink) :
    Keeping c s (switchLight i c s) := by
  rw [switchLight]
  split
  · exact ⟨rfl,rfl,by simp⟩
  · refine ⟨rfl,rfl,?_⟩
    dsimp only
    split <;> simp [adjusts]

theorem adjustBrightness_keeps (i : Input) (c : Adjusting) (s : Eink) :
    Keeping c s (adjustBrightness i c s) := by
  rw [adjustBrightness]
  split
  · exact ⟨rfl,rfl,by simp⟩
  · exact ⟨rfl,rfl,by simp [setBrightness, adjusts]⟩
  · exact ⟨rfl,rfl,by simp [setBrightness, adjusts]⟩

theorem adjustColor_keeps (i : Input) (c : Adjusting) (s : Eink) :
    Keeping c s (adjustColor i c s) := by
  rw [adjustColor]
  split
  · exact ⟨rfl,rfl,by simp⟩
  · exact ⟨rfl,rfl,by simp [setHue, adjusts]⟩
  · exact ⟨rfl,rfl,by simp [setHue, adjusts]⟩
  · exact ⟨rfl,rfl,by simp [setColorTemp, adjusts]⟩
  · exact ⟨rfl,rfl,by simp [setColorTemp, adjusts]⟩

theorem adjustLight_keeps (i : Input) (c : Adjusting) (s : Eink) :
    Keeping c s (adjustLight i c s) :=
  keeping_andThen (keeping_andThen (switchLight_keeps i c s) (adjustBrightness_keeps i))
    (adjustColor_keeps i)

/-- What a loop acts on is current, unless it is about to be left. -/
def Current (w : Watched) : Prop :=
  match w.device.loop with
  | .adjusting c =>
      w.device.currentScreen = .light → c.lightId = w.device.eink.house.currentLight.id
  | .choosing c => Aimed c w.room ∧
      (Chooses w.device.eink → SameRoom w.room w.device.eink.house.currentRoom)
  | .outside | .flashing _ => True

theorem current_choosing {w : Watched} (hl : w.device.loop = .choosing c) :
    Current w ↔ Aimed c w.room ∧
      (Chooses w.device.eink → SameRoom w.room w.device.eink.house.currentRoom) := by
  rw [Current, hl]

theorem current_adjusting {w : Watched} {c : Adjusting} (hl : w.device.loop = .adjusting c) :
    Current w ↔ (w.device.currentScreen = .light →
      c.lightId = w.device.eink.house.currentLight.id) := by
  rw [Current, hl]

theorem current_aims {w : Watched} (hw : Current w) : Aims w.device := by
  refine fun i => iterate_ends (fun _ => ?_) nofun (fun c hl hc => ?_) (fun c hl _ => ?_)
    fun c hl hc => ?_
  · exact ends_imp (ends_true _) fun _ _ => nofun
  · obtain ⟨ha,hs⟩ := (current_choosing hl).mp hw
    refine ends_imp (choose_aims i ((aimed_congr (hs hc)).mpr ha)) fun t ht => ?_
    rw [hl]
    exact fun cmd hcmd id hid => ht.same.1 ▸ ht.sent cmd hcmd id hid
  · rw [hl]
    exact ends_imp (ends_true _) fun _ _ => fun _ _ => trivial
  · have hk := adjustLight_keeps i c w.device.eink
    rw [hl]
    refine fun cmd hcmd id hid => ?_
    exact (hk.sent cmd hcmd id hid).trans (((current_adjusting hl).mp hw hc).trans hk.current.symm)

theorem enter_current (s : Eink) : Ends (enter s) (fun loop => Current
      { device := { eink := s, currentScreen := s.nav.currentScreenType, loop := loop }
        room := s.house.currentRoom }) (fun _ => True) := by
  rw [enter]
  split
  · trivial
  · exact ends_bind (ends_true _) fun id _ => ⟨fun h => absurd rfl h,fun _ => ⟨rfl,rfl⟩⟩
  · exact ends_bind (ends_true _) fun id _ => ⟨fun h => absurd rfl h,fun _ => ⟨rfl,rfl⟩⟩
  · exact ends_bind (ends_true _) fun id _ => trivial
  · exact fun _ => rfl

theorem turn_current {w : Watched} (hw : Current w) (i : Input) :
    Ends (watch w (.turn i)) Current (fun _ => True) := by
  have hi : Ends (iterate i w.device)
      (fun p => Current { device := p.1, room := p.1.eink.house.currentRoom }) (fun _ => True) := by
    refine iterate_ends (fun _ => enter_current w.device.eink) (show Current _ from trivial)
      (fun c hl hc => ?_) (fun c hl _ => ?_) fun c hl hc => ?_
    · obtain ⟨ha,hs⟩ := (current_choosing hl).mp hw
      refine ends_imp (choose_aims i ((aimed_congr (hs hc)).mpr ha)) fun t ht => ?_
      exact ⟨ht.aimed,fun _ => ⟨rfl,rfl⟩⟩
    · exact ends_imp (ends_true _) fun _ _ => trivial
    · have hk := adjustLight_keeps i c w.device.eink
      exact fun _ => hk.light.trans (((current_adjusting hl).mp hw hc).trans hk.current.symm)
  exact ends_bind (Q := fun d => Current { device := d, room := d.eink.house.currentRoom })
    (ends_bind hi fun ⟨_,_⟩ hp => hp) fun d hd => hd

theorem touch_current {w : Watched} {a : Answers} {x y : ℤ} (hw : Current w)
    (hm : Seen w (.touch a x y)) : Ends (watch w (.touch a x y)) Current (fun _ => True) := by
  refine ends_bind (Q := fun d => Current { device := d, room := w.room }) ?_ fun d hd => hd
  refine ends_bind hm fun t ht => ?_
  cases hl : w.device.loop with
  | outside | flashing c => trivial
  | choosing c =>
    rw [Unmoved, hl] at ht
    exact ⟨((current_choosing hl).mp hw).1,ht⟩
  | adjusting c =>
    rw [Unmoved, hl] at ht
    exact fun hc => ((current_adjusting hl).mp hw hc).trans (ht hc).symm

/-- In a run whose page changes the encoder task sees in time, every command
goes to what is on screen. -/
theorem seen_runs_aim {s : Eink} {ms : List Encoder.Move}
    (hm : Meets watch Seen { device := { eink := s } } ms) :
    Runs watch (fun w => Aims w.device) (fun _ => True) { device := { eink := s } } ms := by
  refine runs_of_meets (I := Current) (fun _ hw => current_aims hw) (fun w m hw hm => ?_) trivial hm
  cases m with
  | touch a x y => exact touch_current hw hm
  | turn i => exact turn_current hw i

def twoRooms : Answers where
  groups := [{ id := 1, name := "Gang" },{ id := 2, name := "Stue", lights := [5,6] }]
  allLights := [{ id := 5, name := "Loft" },{ id := 6, name := "Væg" }]
  states := fun _ => { name := "Pære" }

def booted : Eink := (fetchData twoRooms {}).toOption.getD {}

theorem booted_fetched : fetchData twoRooms {} = .ok booted := ok_getD {} (by decide +kernel)

def allRooms : Encoder.Move := .touch twoRooms 50 70

def firstEntry : Encoder.Move := .touch twoRooms 40 70

def secondEntry : Encoder.Move := .touch twoRooms 120 70

def goBack : Encoder.Move := .touch twoRooms 29 251

def idle : Encoder.Move := .turn {}

def brighten : Encoder.Move := .turn { directionCont := .up }

/-- Opening a room and a light of it, with the task running between the touches. -/
theorem light_aimed : Runs watch (fun w => Aims w.device) (fun _ => True)
    { device := { eink := booted } }
    [idle,allRooms,idle,secondEntry,idle,idle,firstEntry,idle,idle,brighten,goBack] :=
  seen_runs_aim (by decide +kernel)

/-- Two lights opened one after the other before the next iteration. -/
theorem light_swapped : ¬∀ (a : Answers) (s : Eink) (ms : List Encoder.Move),
    fetchData a {} = .ok s →
      Runs watch (fun w => Aims w.device) (fun _ => True) { device := { eink := s } } ms := by
  intro hall
  have hruns := runs_ends (hall twoRooms booted
    [allRooms,secondEntry,firstEntry,idle,goBack,secondEntry] booted_fetched)
  have hrun : Ends (run watch { device := { eink := booted } }
      [allRooms,secondEntry,firstEntry,idle,goBack,secondEntry])
      (fun w => ¬Ends (iterate { directionCont := .up } w.device)
        (fun p => ∀ c ∈ p.2, Addresses w.device.loop p.1.eink.house c) (fun _ => True))
      (fun _ => False) := by decide +kernel
  cases hw : run watch { device := { eink := booted } }
      [allRooms,secondEntry,firstEntry,idle,goBack,secondEntry] with
  | error e =>
    rw [hw] at hrun
    exact hrun
  | ok w =>
    rw [hw] at hruns hrun
    exact hrun (hruns { directionCont := .up })

end THue.DialTargets
