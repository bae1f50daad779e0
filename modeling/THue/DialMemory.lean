import THue.DialTargets
import THue.Navigation

/-!
# What the dial remembers

A memory keeps, for each bulb and for the room, what was last commanded. The
dial works on `currentLight`, `currentRoom.bri` and `roomState`. They agree
with the memory as long as no copy that they are taken from is older than a
command.
-/

set_option autoImplicit false

namespace THue.DialMemory
open THue.Globals THue.CheckedArray THue.FaultRun THue.Entertainment THue.Firebase
open THue.TouchScreen THue.Bridge THue.Pages THue.Navigation THue.Encoder THue.DialTargets

structure Memory where
  on : UInt8 → Bool := fun _ => false
  bri : UInt8 → ℤ := fun _ => 0
  roomOn : Bool := false
  roomBri : ℤ := 0

def remember (m : Memory) : Command → Memory
  | .brightness id v => { m with bri := Function.update m.bri id v.toNat }
  | .lightOn id => { m with on := Function.update m.on id true }
  | .lightOff id => { m with on := Function.update m.on id false }
  | .groupBrightness _ v => { m with roomBri := v.toNat }
  | .groupOn _ => { m with roomOn := true }
  | .groupOff _ => { m with roomOn := false }
  | .hue _ _ | .colorTemp _ _ | .flash _ | .groupFlash _ => m

def Recalls (up : Bool) (m : Memory) : Command → Prop
  | .brightness id v => v = toUInt8 (calcBrightness (m.bri id) up)
  | .lightOn id => m.on id = false
  | .lightOff id => m.on id = true
  | .groupBrightness _ v => v = toUInt8 (calcBrightness m.roomBri up)
  | .groupOn _ => m.roomOn = false
  | .groupOff _ => m.roomOn = true
  | .hue _ _ | .colorTemp _ _ | .flash _ | .groupFlash _ => True

instance recalls_decidable (up : Bool) (m : Memory) : ∀ c, Decidable (Recalls up m c)
  | .brightness _ _ | .lightOn _ | .lightOff _ | .groupBrightness _ _ | .groupOn _ | .groupOff _ =>
      inferInstanceAs (Decidable (_ = _))
  | .hue _ _ | .colorTemp _ _ | .flash _ | .groupFlash _ => isTrue trivial

def lapses (up : Bool) : Memory → List Command → List Command
  | _, [] => []
  | m, c::cs => (if Recalls up m c then [] else [c]) ++ lapses up (remember m c) cs

def reported (h : House) (id : UInt8) : Light :=
  (setCurrentLightFrom h.lightIds id h.allLightCount.toNat 0 {}).toOption.getD {}

def fetched (h : House) : Memory where
  on := fun id => (reported h id).on
  bri := fun id => (reported h id).brightness
  roomOn := h.currentRoom.on
  roomBri := h.currentRoom.bri

/-- A device, the memory, and the commands of the dial that did not recall it. -/
structure Recorded where
  device : Device := {}
  memory : Memory := {}
  lapsed : List Command := []

def isUp (i : Input) : Bool := i.directionCont == .up

def switched (s : Eink) (a : Answers) (x y : ℤ) : List Command :=
  if handler s (.touch a x y) = some .switch then
    [if s.house.currentLight.on then .lightOff s.house.currentLight.id
      else .lightOn s.house.currentLight.id]
  else []

def chooses (l : Loop) : Bool :=
  match l with
  | .choosing _ => true
  | .outside | .flashing _ | .adjusting _ => false

def record (w : Recorded) : Encoder.Move → Except Fault Recorded
  | .touch a x y => do
      let s ← Pages.touch a x y w.device.eink
      pure { w with
        device := { w.device with eink := s }
        memory := (switched w.device.eink a x y).foldl remember w.memory }
  | .turn i => do
      let (d,sent) ← iterate i w.device
      pure { device := d
             memory := sent.foldl remember w.memory
             lapsed := w.lapsed ++
               if chooses w.device.loop then lapses (isUp i) w.memory sent else [] }

def Matches (m : Memory) (id : UInt8) (l : Light) : Prop := l.brightness = m.bri id ∧ l.on = m.on id

instance matches_decidable (m : Memory) (id : UInt8) (l : Light) : Decidable (Matches m id l) :=
  inferInstanceAs (Decidable (_ ∧ _))

def selects (i : Input) (c : Choosing) (s : Eink) : Option UInt8 :=
  let room := s.house.currentRoom
  let counter := nextCounter c.counter room.lightCounter i.direction
  if i.direction = .none ∨ counter = room.lightCounter then none
  else (List.ofFn room.lightIds)[counter.toNat]?

def Known (h : House) (id : UInt8) : Prop :=
  ∃ j : Fin 50, j.val < h.allLightCount.toNat ∧ (h.lightIds j).id = id

/-- A bulb is chosen only while the record that the bridge sent for it says what
was last commanded; a bulb is not followed by itself. -/
def Choosable (m : Memory) (c : Choosing) (s : Eink) (id : UInt8) : Prop :=
  Known s.house id ∧ Matches m id (reported s.house id) ∧
    (c.counter ≠ s.house.currentRoom.lightCounter → id ≠ c.currentLightId)

/-- So is a light opened by the dial, whose record is searched in `lights`. -/
def Openable (m : Memory) (i : Input) (c : Choosing) (s : Eink) : Prop :=
  OpensLight i (waitTurn i.millis s.uiLevel c) s →
    Ends (findLight s.house.lights c.currentLightId.toNat s.house.allLightCount.toNat 0
      s.house.currentLight) (Matches m c.currentLightId) (fun _ => True)

def Fresh (w : Recorded) (i : Input) : Prop :=
  match w.device.loop with
  | .outside => Chooses w.device.eink → w.device.eink.house.currentRoom.on = w.memory.roomOn
  | .choosing c => Chooses w.device.eink → Openable w.memory i c w.device.eink ∧
      ∀ id ∈ selects i c w.device.eink, Choosable w.memory c w.device.eink id
  | .flashing _ | .adjusting _ => True

/-- A touch keeps the room with its brightness, and the bulb that is chosen
while the home page or the room list is on screen. -/
def Spared (w : Recorded) (m : Memory) (t : Eink) : Prop :=
  SameRoom w.device.eink.house.currentRoom t.house.currentRoom ∧
    t.house.currentRoom.bri = w.device.eink.house.currentRoom.bri ∧
    match w.device.loop with
    | .choosing c => Chooses t → c.counter ≠ t.house.currentRoom.lightCounter →
        Matches m c.currentLightId t.house.currentLight
    | .outside | .flashing _ | .adjusting _ => True

def Recent (w : Recorded) : Encoder.Move → Prop
  | .touch a x y => Ends (Pages.touch a x y w.device.eink)
      (Spared w ((switched w.device.eink a x y).foldl remember w.memory)) (fun _ => True)
  | .turn i => Fresh w i

instance known_decidable (h : House) (id : UInt8) : Decidable (Known h id) :=
  inferInstanceAs (Decidable (∃ _ : Fin 50, _ ∧ _))

instance choosable_decidable (m : Memory) (c : Choosing) (s : Eink) (id : UInt8) :
    Decidable (Choosable m c s id) :=
  inferInstanceAs (Decidable (_ ∧ _ ∧ (_ → _)))

instance openable_decidable (m : Memory) (i : Input) (c : Choosing) (s : Eink) :
    Decidable (Openable m i c s) :=
  inferInstanceAs (Decidable (_ → Ends _ _ _))

instance fresh_decidable (w : Recorded) (i : Input) : Decidable (Fresh w i) := by
  obtain ⟨⟨s,level,l⟩,m,lapsed⟩ := w
  cases l with
  | outside => exact inferInstanceAs (Decidable (_ → _))
  | choosing c => exact inferInstanceAs (Decidable (_ → _ ∧ _))
  | flashing c | adjusting c => exact inferInstanceAs (Decidable True)

instance spared_decidable (w : Recorded) (m : Memory) : DecidablePred (Spared w m) := fun t => by
  obtain ⟨⟨s,level,l⟩,m',lapsed⟩ := w
  cases l with
  | choosing c => exact inferInstanceAs (Decidable (_ ∧ _ ∧ (_ → _ → _)))
  | outside | flashing c | adjusting c => exact inferInstanceAs (Decidable (_ ∧ _ ∧ True))

instance recent_decidable (w : Recorded) : ∀ m, Decidable (Recent w m)
  | .touch _ _ _ => inferInstanceAs (Decidable (Ends _ _ _))
  | .turn i => inferInstanceAs (Decidable (Fresh w i))

theorem nearest_mem (target : ℤ) (increase : Bool) (arr : List ℤ) :
    getNearestElementInSortedArray target increase arr ∈ 0::arr := by
  induction arr with
  | nil => simp [getNearestElementInSortedArray]
  | cons x rest ih =>
    cases rest with
    | nil => simp [getNearestElementInSortedArray]
    | cons y rest =>
      have hrest : getNearestElementInSortedArray target increase (y::rest) ∈ 0::x::y::rest := by
        obtain h | h := List.mem_cons.mp ih
        · rw [h]
          exact List.mem_cons_self
        · exact List.mem_cons_of_mem _ (List.mem_cons_of_mem _ h)
      rw [getNearestElementInSortedArray]
      split <;> split
      · simp
      · exact hrest
      · simp
      · exact hrest

theorem calcBrightness_range (b : ℤ) (up : Bool) :
    0 ≤ calcBrightness b up ∧ calcBrightness b up ≤ 254 := by
  have hall : ∀ arr : List ℤ, (∀ x ∈ arr, 0 ≤ x ∧ x ≤ 254) →
      0 ≤ getNearestElementInSortedArray b up arr ∧
        getNearestElementInSortedArray b up arr ≤ 254 := by
    intro arr harr
    obtain h | h := List.mem_cons.mp (nearest_mem b up arr)
    · rw [h]
      decide
    · exact harr _ h
  rw [calcBrightness]
  split
  · dsimp only
    split
    · decide
    · exact hall _ (by decide)
  · exact hall _ (by decide)

theorem calcBrightness_byte (b : ℤ) (up : Bool) :
    ((toUInt8 (calcBrightness b up)).toNat : ℤ) = calcBrightness b up := by
  obtain ⟨h0,h1⟩ := calcBrightness_range b up
  exact toUInt8_cast h0 (by omega)

variable {m : Memory} {c : Choosing} {s t : Eink} {up : Bool}

def Sync (m : Memory) (c : Choosing) (s : Eink) : Prop :=
  s.house.currentRoom.bri = m.roomBri ∧ c.roomState = m.roomOn ∧
    (c.counter ≠ s.house.currentRoom.lightCounter →
      Matches m c.currentLightId s.house.currentLight)

theorem lapses_append (cs ds : List Command) :
    lapses up m (cs++ds) = lapses up m cs ++ lapses up (cs.foldl remember m) ds := by
  induction cs generalizing m with
  | nil => rfl
  | cons c cs ih => rw [List.cons_append, lapses, lapses, ih, List.append_assoc]; rfl

theorem lapses_single {cmd : Command} (h : Recalls up m cmd) : lapses up m [cmd] = [] := by
  simp [lapses, h]

structure Recalling (up : Bool) (m : Memory) (c : Choosing) (s : Eink) (t : Turn Choosing) :
    Prop where
  dialled : Dialled s t.eink
  bulb : t.loop.counter = c.counter ∧ t.loop.currentLightId = c.currentLightId
  sent : lapses up m t.sent = []
  sync : Sync (t.sent.foldl remember m) t.loop t.eink
  others : ∀ id l, (c.counter ≠ s.house.currentRoom.lightCounter → id ≠ c.currentLightId) →
    Matches m id l → Matches (t.sent.foldl remember m) id l

theorem recalling_andThen {t : Turn Choosing} {f : Choosing → Eink → Turn Choosing}
    (ht : Recalling up m c s t)
    (hf : ∀ {m c s}, Sync m c s → Recalling up m c s (f c s)) :
    Recalling up m c s (t.andThen f) := by
  have hu := hf ht.sync
  refine ⟨dialled_trans ht.dialled hu.dialled,⟨hu.bulb.1.trans ht.bulb.1,hu.bulb.2.trans ht.bulb.2⟩,
    ?_,?_,fun id l hid hl => ?_⟩
  · simp only [Turn.andThen, lapses_append, ht.sent, hu.sent, List.append_nil]
  · simp only [Turn.andThen, List.foldl_append]
    exact hu.sync
  · simp only [Turn.andThen, List.foldl_append]
    refine hu.others id l ?_ (ht.others id l hid hl)
    rw [ht.bulb.1, ht.bulb.2, (dialled_room ht.dialled).2]
    exact hid

theorem recalling_none (hs : Sync m c s) : Recalling up m c s { loop := c, eink := s } :=
  ⟨⟨rfl,rfl,rfl,rfl⟩,⟨rfl,rfl⟩,rfl,hs,fun _ _ _ h => h⟩

theorem others_update {id j : UInt8} {l : Light} (hj : j ≠ id) (b : ℤ) (v : Bool) :
    (Matches m j l → Matches { m with bri := Function.update m.bri id b } j l) ∧
      (Matches m j l → Matches { m with on := Function.update m.on id v } j l) := by
  constructor <;> intro h <;> simpa [Matches, Function.update_of_ne hj] using h

theorem switchChosen_recalls (up : Bool) (i : Input) (hs : Sync m c s) :
    Recalling up m c s (switchChosen i c s) := by
  obtain ⟨hbri,hroom,hlight⟩ := hs
  simp only [switchChosen]
  split
  · exact recalling_none ⟨hbri,hroom,hlight⟩
  split
  · next h =>
    refine ⟨⟨rfl,rfl,rfl,rfl⟩,⟨rfl,rfl⟩,lapses_single (hroom.symm.trans h.1),⟨hbri,rfl,?_⟩,
      fun _ _ _ h => h⟩
    exact fun hne => absurd h.2 hne
  split
  · next hn h =>
    have hoff : c.roomState = false := by
      cases hr : c.roomState with
      | false => rfl
      | true => exact absurd ⟨hr,h⟩ hn
    refine ⟨⟨rfl,rfl,rfl,rfl⟩,⟨rfl,rfl⟩,lapses_single (hroom.symm.trans hoff),⟨hbri,rfl,?_⟩,
      fun _ _ _ h => h⟩
    exact fun hne => absurd h hne
  split
  · next hne hon =>
    obtain ⟨hb,ho⟩ := hlight hne
    refine ⟨⟨rfl,rfl,rfl,rfl⟩,⟨rfl,rfl⟩,lapses_single (ho.symm.trans hon),
      ⟨hbri,hroom,fun _ => ⟨hb,?_⟩⟩,?_⟩
    · simp [setLight, remember]
    · exact fun id l hid hl => (others_update (hid hne) 0 false).2 hl
  · next hne hon =>
    obtain ⟨hb,ho⟩ := hlight hne
    refine ⟨⟨rfl,rfl,rfl,rfl⟩,⟨rfl,rfl⟩,lapses_single (ho.symm.trans (eq_false_of_ne_true hon)),
      ⟨hbri,hroom,fun _ => ⟨hb,?_⟩⟩,?_⟩
    · simp [setLight, remember]
    · exact fun id l hid hl => (others_update (hid hne) 0 true).2 hl

theorem brightenLight_recalls (i : Input) (context : String) (hs : Sync m c s)
    (hne : c.counter ≠ s.house.currentRoom.lightCounter) :
    Recalling up m c s (brightenLight i up context c s) := by
  obtain ⟨hbri,hroom,hlight⟩ := hs
  obtain ⟨hb,ho⟩ := hlight hne
  refine ⟨⟨rfl,rfl,rfl,rfl⟩,⟨rfl,rfl⟩,lapses_single ?_,⟨hbri,hroom,fun _ => ⟨?_,ho⟩⟩,?_⟩
  · show toUInt8 (calcBrightness s.house.currentLight.brightness up) = _
    rw [hb]
  · simp only [brightenLight, List.foldl_cons, List.foldl_nil, remember, Function.update_self,
      calcBrightness_byte]
    rfl
  · exact fun id l hid hl => (others_update (hid hne) _ true).1 hl

theorem brightenRoom_recalls (i : Input) (hs : Sync m c s)
    (hroom' : c.counter = s.house.currentRoom.lightCounter) :
    Recalling up m c s (brightenRoom i up c s) := by
  obtain ⟨hbri,hroom,hlight⟩ := hs
  refine ⟨⟨rfl,rfl,rfl,rfl⟩,⟨rfl,rfl⟩,lapses_single ?_,⟨?_,hroom,fun hne => absurd hroom' hne⟩,
    fun _ _ _ h => h⟩
  · show toUInt8 (calcBrightness s.house.currentRoom.bri up) = _
    rw [hbri]
  · simp only [brightenRoom, List.foldl_cons, List.foldl_nil, remember, calcBrightness_byte]
    rfl

theorem brightenChosen_recalls (i : Input) (hs : Sync m c s) :
    Recalling (isUp i) m c s (brightenChosen i c s) := by
  have hup : ∀ d, i.directionCont = d → isUp i = (d == .up) := fun d h => by rw [isUp, h]
  rw [brightenChosen]
  split
  · exact recalling_none hs
  · next hd =>
    rw [hup _ hd]
    split
    · next hne => exact brightenLight_recalls i _ hs hne
    · next hne => exact brightenRoom_recalls i hs (not_not.mp hne)
  · next hd =>
    rw [hup _ hd]
    split
    · next hne => exact brightenLight_recalls i _ hs hne
    · next hne => exact brightenRoom_recalls i hs (not_not.mp hne)

theorem setCurrentLightFrom_known {lightIds : Fin 50 → Light} {id : UInt8} {rounds i : ℕ}
    (f g : Light) (h : ∃ j : Fin 50, i ≤ j.val ∧ j.val < i+rounds ∧ (lightIds j).id = id) :
    setCurrentLightFrom lightIds id rounds i f = setCurrentLightFrom lightIds id rounds i g := by
  induction rounds generalizing i f g with
  | zero =>
    obtain ⟨j,h1,h2,-⟩ := h
    omega
  | succ rounds ih =>
    obtain ⟨j,h1,h2,hj⟩ := h
    rw [setCurrentLightFrom, setCurrentLightFrom]
    cases hr : read lightIds i (Fault.outside .lightIds i) with
    | error e => rfl
    | ok light =>
      obtain ⟨k,hk,hik,rfl⟩ := read_ok.mp hr
      obtain rfl : i = k := by exact_mod_cast hik
      show setCurrentLightFrom lightIds id rounds (i+1) _ =
        setCurrentLightFrom lightIds id rounds (i+1) _
      by_cases hid : id = (lightIds ⟨i,hk⟩).id
      · rw [if_pos hid, if_pos hid]
      · rw [if_neg hid, if_neg hid]
        have hne : i ≠ j.val := by
          rintro rfl
          exact hid hj.symm
        exact ih f g ⟨j,by omega,by omega,hj⟩

theorem setCurrentLight_reported {id : UInt8} (hk : Known s.house id) :
    Ends (setCurrentLight id s) (fun t => LightOf s t ∧ t.house.currentLight = reported s.house id)
      (fun _ => True) := by
  obtain ⟨j,hj,hid⟩ := hk
  rw [setCurrentLight, setCurrentLightFrom_known s.house.currentLight {}
    ⟨j,Nat.zero_le _,by omega,hid⟩]
  refine ends_bind (ends_self _) fun light hl => ?_
  refine ⟨rfl,?_⟩
  show light = reported s.house id
  rw [reported, hl]
  rfl

theorem selects_read {i : Input} {id : UInt8} {e : Fault} (hd : i.direction ≠ .none)
    (hne : nextCounter c.counter s.house.currentRoom.lightCounter i.direction ≠
      s.house.currentRoom.lightCounter)
    (hr : read s.house.currentRoom.lightIds
      (nextCounter c.counter s.house.currentRoom.lightCounter i.direction).toNat e = .ok id) :
    selects i c s = some id := by
  obtain ⟨k,hk,hik,rfl⟩ := read_ok.mp hr
  have hk' : (nextCounter c.counter s.house.currentRoom.lightCounter i.direction).toNat = k := by
    exact_mod_cast hik
  rw [selects, if_neg (by simp [hd, hne]), hk', List.getElem?_ofFn, dif_pos hk]

theorem chooseBulb_recalls (up : Bool) (i : Input) (hs : Sync m c s)
    (hsel : ∀ id ∈ selects i c s, Known s.house id ∧ Matches m id (reported s.house id)) :
    Ends (chooseBulb i c s) (fun t => lapses up m t.sent = [] ∧
      Sync (t.sent.foldl remember m) t.loop t.eink) (fun _ => True) := by
  obtain ⟨hbri,hroom,hlight⟩ := hs
  rw [chooseBulb]
  split
  · exact ⟨rfl,hbri,hroom,hlight⟩
  · next hd =>
    refine ends_bind (ends_self _) fun id hid => ?_
    split
    · next h => exact ⟨rfl,hbri,hroom,fun hne => absurd h hne⟩
    · next hne =>
      obtain ⟨hk,hm⟩ := hsel id (selects_read hd hne hid)
      refine ends_bind (setCurrentLight_reported hk) fun t ht => ⟨rfl,?_,hroom,fun _ => ?_⟩
      · show t.house.currentRoom.bri = m.roomBri
        rw [ht.1]
        exact hbri
      · show Matches m id t.house.currentLight
        rw [ht.2]
        exact hm

theorem openChosen_recalls (i : Input) (hs : Sync m c s)
    (ho : OpensLight i c s → Ends (findLight s.house.lights c.currentLightId.toNat
      s.house.allLightCount.toNat 0 s.house.currentLight) (Matches m c.currentLightId)
      (fun _ => True)) :
    Ends (openChosen i c s) (fun t => LightOf s t ∧ Sync m c t) (fun _ => True) := by
  obtain ⟨hbri,hroom,hlight⟩ := hs
  rw [openChosen]
  split
  · next hopen =>
    refine ends_imp (drawLight_found i.answers c.currentLightId.toNat
      (s := logAction i.answers (.withWhat "topDialInteraction" "navigate" "drawLight"
        s.house.currentLight.name) { s with calledFromEncoder := true }) (Or.inl rfl))
      fun t ht => ⟨ht.1,?_,hroom,fun _ => ends_of_ok (ho hopen) ht.2⟩
    rw [ht.1]
    exact hbri
  · exact ⟨rfl,hbri,hroom,hlight⟩

theorem waitTurn_sync (millis : UInt32) (level : ℤ) :
    Sync m (waitTurn millis level c) s ↔ Sync m c s := by
  obtain ⟨h1,h2⟩ := waitTurn_bulb millis level c
  have h3 : (waitTurn millis level c).roomState = c.roomState := by
    simp only [waitTurn]
    split <;> split <;> split <;> rfl
  rw [Sync, Sync, h1, h2, h3]

/-- One iteration recalls the memory, and ends in step with it. -/
theorem choose_recalls (i : Input) (hs : Sync m c s) (ho : Openable m i c s)
    (hsel : ∀ id ∈ selects i c s, Choosable m c s id) :
    Ends (chooseAndAlterLightInRoom i c s) (fun t => lapses (isUp i) m t.sent = [] ∧
      Sync (t.sent.foldl remember m) t.loop t.eink) (fun _ => True) := by
  obtain ⟨hcount,hbulb⟩ := waitTurn_bulb i.millis s.uiLevel c
  let d := waitTurn i.millis s.uiLevel c
  refine ends_bind (openChosen_recalls i ((waitTurn_sync _ _).mpr hs)
    (by rw [hbulb]; exact ho)) fun o ⟨hhouse,hsync⟩ => ?_
  have hv := recalling_andThen (switchChosen_recalls (isUp i) i hsync)
    fun hs => brightenChosen_recalls i hs
  let v := (switchChosen i d o).andThen (brightenChosen i)
  have hids : v.eink.house.lightIds = s.house.lightIds ∧
      v.eink.house.allLightCount = s.house.allLightCount := by
    rw [hv.dialled.house, hhouse]
    exact ⟨rfl,rfl⟩
  have hroom : v.eink.house.currentRoom.lightIds = s.house.currentRoom.lightIds ∧
      v.eink.house.currentRoom.lightCounter = s.house.currentRoom.lightCounter := by
    rw [hv.dialled.house, hhouse]
    exact ⟨rfl,rfl⟩
  have hloop : v.loop.counter = c.counter := hv.bulb.1.trans hcount
  have hchoose := chooseBulb_recalls (isUp i) i hv.sync (s := v.eink) (c := v.loop)
    fun id hid => by
      rw [selects, hroom.1, hroom.2, hloop] at hid
      obtain ⟨hk,hm,hne⟩ := hsel id hid
      refine ⟨?_,?_⟩
      · rw [Known, hids.1, hids.2]
        exact hk
      · rw [reported, hids.1, hids.2]
        refine hv.others id _ ?_ hm
        rw [hcount, hbulb, hhouse]
        exact hne
  refine ends_bind hchoose fun u ⟨hlapse,hsync⟩ => ⟨?_,?_⟩
  · show lapses (isUp i) m (v.sent ++ u.sent) = []
    rw [lapses_append, hlapse, List.append_nil]
    exact hv.sent
  · show Sync ((v.sent ++ u.sent).foldl remember m) u.loop u.eink
    rw [List.foldl_append]
    exact hsync

structure Lighting (s : Eink) (t : Turn Adjusting) : Prop where
  light : LightOf s t.eink
  sent : ∀ cmd ∈ t.sent, single cmd ≠ none

theorem lighting_andThen {t : Turn Adjusting} {f : Adjusting → Eink → Turn Adjusting}
    (ht : Lighting s t) (hf : ∀ c s, Lighting s (f c s)) : Lighting s (t.andThen f) := by
  have hu := hf t.loop t.eink
  refine ⟨?_,fun cmd hc => ?_⟩
  · have hl := hu.light
    rw [LightOf, ht.light] at hl
    exact hl
  · obtain hc | hc := List.mem_append.mp hc
    · exact ht.sent cmd hc
    · exact hu.sent cmd hc

theorem adjustLight_lighting (i : Input) (c : Adjusting) (s : Eink) :
    Lighting s (adjustLight i c s) := by
  refine lighting_andThen (lighting_andThen ?_ fun c s => ?_) fun c s => ?_
  · rw [switchLight]
    split
    · exact ⟨rfl,by simp⟩
    · refine ⟨rfl,?_⟩
      dsimp only
      split <;> simp [single]
  · rw [adjustBrightness]
    split
    · exact ⟨rfl,by simp⟩
    · exact ⟨rfl,by simp [setBrightness, single]⟩
    · exact ⟨rfl,by simp [setBrightness, single]⟩
  · rw [adjustColor]
    split
    · exact ⟨rfl,by simp⟩
    · exact ⟨rfl,by simp [setHue, single]⟩
    · exact ⟨rfl,by simp [setHue, single]⟩
    · exact ⟨rfl,by simp [setColorTemp, single]⟩
    · exact ⟨rfl,by simp [setColorTemp, single]⟩

theorem remember_room {cs : List Command} (hc : ∀ cmd ∈ cs, single cmd ≠ none) :
    (cs.foldl remember m).roomBri = m.roomBri ∧ (cs.foldl remember m).roomOn = m.roomOn := by
  induction cs generalizing m with
  | nil => exact ⟨rfl,rfl⟩
  | cons cmd cs ih =>
    obtain ⟨h1,h2⟩ := ih (m := remember m cmd) fun d hd => hc d (List.mem_cons_of_mem _ hd)
    have hsame : (remember m cmd).roomBri = m.roomBri ∧ (remember m cmd).roomOn = m.roomOn := by
      have := hc cmd List.mem_cons_self
      cases cmd <;> first | exact ⟨rfl,rfl⟩ | exact absurd rfl this
    exact ⟨h1.trans hsame.1,h2.trans hsame.2⟩

theorem switched_single {a : Answers} {x y : ℤ} : ∀ cmd ∈ switched s a x y, single cmd ≠ none := by
  rw [switched]
  split
  · intro cmd hc
    rw [List.mem_singleton.mp hc]
    split <;> simp [single]
  · simp

def Recollected (w : Recorded) : Prop :=
  w.lapsed = [] ∧ w.device.eink.house.currentRoom.bri = w.memory.roomBri ∧
    match w.device.loop with
    | .choosing c => c.roomState = w.memory.roomOn ∧ (Chooses w.device.eink →
        c.counter ≠ w.device.eink.house.currentRoom.lightCounter →
          Matches w.memory c.currentLightId w.device.eink.house.currentLight)
    | .outside | .flashing _ | .adjusting _ => True

theorem enter_recalls {w : Recorded} (hw : Recollected w)
    (hf : Chooses w.device.eink → w.device.eink.house.currentRoom.on = w.memory.roomOn) :
    Ends (enter w.device.eink) (fun loop => Recollected { w with
      device := { w.device with
        currentScreen := w.device.eink.nav.currentScreenType, loop := loop } })
      (fun _ => True) := by
  obtain ⟨hl,hb,-⟩ := hw
  rw [enter]
  split
  · exact ⟨hl,hb,trivial⟩
  · next ht =>
    exact ends_bind (ends_true _) fun id _ => ⟨hl,hb,hf (Or.inl ht),fun _ hne => absurd rfl hne⟩
  · next ht =>
    exact ends_bind (ends_true _) fun id _ => ⟨hl,hb,hf (Or.inr ht),fun _ hne => absurd rfl hne⟩
  · exact ends_bind (ends_true _) fun id _ => ⟨hl,hb,trivial⟩
  · exact ⟨hl,hb,trivial⟩

theorem chooseLightInRoom_flashes (i : Input) (c : Flashing) (s : Eink) :
    Ends (chooseLightInRoom i c s) (fun t => t.eink = s ∧ t.sent.foldl remember m = m)
      (fun _ => True) := by
  rw [chooseLightInRoom]
  split
  · exact ⟨rfl,rfl⟩
  · refine ends_bind (ends_true _) fun id _ => ?_
    split <;> exact ⟨rfl,rfl⟩

theorem turn_recalls {w : Recorded} {i : Input} (hw : Recollected w) (hf : Fresh w i) :
    Ends (record w (.turn i)) Recollected (fun _ => True) := by
  obtain ⟨hl,hb,hc⟩ := hw
  have hi : Ends (iterate i w.device) (fun p => Recollected
      { device := p.1
        memory := p.2.foldl remember w.memory
        lapsed := w.lapsed ++ if chooses w.device.loop then lapses (isUp i) w.memory p.2 else [] })
      (fun _ => True) := by
    refine iterate_ends (fun ho => ?_) ⟨?_,hb,trivial⟩ (fun c ho hch => ?_) (fun c ho _ => ?_)
      fun c ho _ => ?_
    · rw [Fresh, ho] at hf
      refine ends_imp (enter_recalls ⟨hl,hb,hc⟩ hf) fun loop hr => ?_
      rw [ho]
      exact ⟨by simp [hl, chooses],hr.2⟩
    · rw [hl]
      split <;> rfl
    · rw [Fresh, ho] at hf
      rw [ho] at hc
      obtain ⟨hopen,hsel⟩ := hf hch
      refine ends_imp (choose_recalls i ⟨hb,hc.1,hc.2 hch⟩ hopen hsel) fun t ht => ?_
      obtain ⟨hlapse,hbri,hroom,hlight⟩ := ht
      refine ⟨?_,hbri,hroom,fun _ => hlight⟩
      rw [ho, hl]
      exact hlapse
    · refine ends_imp (chooseLightInRoom_flashes (m := w.memory) i c w.device.eink)
        fun t ht => ?_
      refine ⟨by simp [hl, ho, chooses],?_,trivial⟩
      show t.eink.house.currentRoom.bri = (t.sent.foldl remember w.memory).roomBri
      rw [ht.1, ht.2]
      exact hb
    · have ht := adjustLight_lighting i c w.device.eink
      refine ⟨by simp [hl, ho, chooses],?_,trivial⟩
      have hroom : (adjustLight i c w.device.eink).eink.house.currentRoom.bri =
          w.device.eink.house.currentRoom.bri := by rw [ht.light]
      exact hroom.trans (hb.trans (remember_room ht.sent).1.symm)
  exact ends_bind hi fun ⟨_,_⟩ hp => hp

theorem touch_recalls {w : Recorded} {a : Answers} {x y : ℤ} (hw : Recollected w)
    (hm : Recent w (.touch a x y)) :
    Ends (record w (.touch a x y)) Recollected (fun _ => True) := by
  obtain ⟨hl,hb,hc⟩ := hw
  obtain ⟨hbri,hon⟩ := remember_room (m := w.memory)
    (switched_single (s := w.device.eink) (a := a) (x := x) (y := y))
  refine ends_bind hm fun t ⟨hsame,htb,ht⟩ => ⟨hl,?_,?_⟩
  · exact htb.trans (hb.trans hbri.symm)
  · cases ho : w.device.loop with
    | outside | flashing c | adjusting c => trivial
    | choosing c =>
      rw [ho] at hc ht
      exact ⟨hc.1.trans hon.symm,ht⟩

/-- In a run in which no copy taken is older than a command, every command of
the dial continues what was last commanded. -/
theorem recent_runs_recall {d : Device} {ms : List Encoder.Move} (hd : d.loop = .outside)
    (hm : Meets record Recent { device := d, memory := fetched d.eink.house } ms) :
    Runs record (fun w => w.lapsed = []) (fun _ => True)
      { device := d, memory := fetched d.eink.house } ms := by
  refine runs_of_meets (I := Recollected) (fun _ hw => hw.1) (fun w m hw hm => ?_) ⟨rfl,rfl,?_⟩ hm
  · cases m with
    | touch a x y => exact touch_recalls hw hm
    | turn i => exact turn_recalls hw hm
  · rw [hd]
    trivial

def atHome : Device :=
  (run Encoder.step { eink := booted }
    [allRooms,secondEntry,.touch twoRooms 88 251]).toOption.getD {}

theorem atHome_reached :
    run Encoder.step { eink := booted } [allRooms,secondEntry,.touch twoRooms 88 251] =
      .ok atHome :=
  ok_getD {} (by decide +kernel)

def choose : Input := { direction := .up }

def chooseBack : Input := { direction := .down }

def brighter : Input := { directionCont := .up }

/-- The first bulb, the second one, then the room. -/
theorem bulbs_recalled : Runs record (fun w => w.lapsed = []) (fun _ => True)
    { device := atHome, memory := fetched atHome.eink.house }
    ([{},choose,brighter,brighter,choose,brighter,choose,{ pressed := true },
      brighter].map .turn) :=
  recent_runs_recall (by decide +kernel) (by decide +kernel)

/-- A bulb chosen again starts from what the bridge once reported. -/
theorem bulb_forgotten : ¬∀ (a : Answers) (s : Eink) (d : Device) (ms : List Encoder.Move)
    (is : List Input), fetchData a {} = .ok s → run Encoder.step { eink := s } ms = .ok d →
      d.loop = .outside → Runs record (fun w => w.lapsed = []) (fun _ => True)
        { device := d, memory := fetched d.eink.house } (is.map .turn) := by
  intro hall
  have hruns := runs_ends (hall twoRooms booted atHome _
    [{},choose,brighter,choose,chooseBack,brighter] booted_fetched atHome_reached
    (by decide +kernel))
  revert hruns
  decide +kernel

end THue.DialMemory
