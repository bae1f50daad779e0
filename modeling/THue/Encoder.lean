import THue.Pages

/-!
# The encoder task

`encoderLoop` copies the screen type and runs the loop that belongs to it; each
loop takes copies of what it acts on when it is entered. One step is one
iteration of the loop that runs, or entering the next one. What the two dials,
their switch and the clock say in an iteration is an argument; the commands it
sends are returned.
-/

set_option autoImplicit false

namespace THue.Encoder
open THue.Globals THue.CheckedArray THue.FaultRun THue.Entertainment THue.Firebase
open THue.TouchScreen THue.Bridge THue.Pages

inductive Command where
  | brightness (lightId brightness : UInt8)
  | hue (lightId : UInt8) (setHue : UInt16)
  | colorTemp (lightId : UInt8) (temp : UInt16)
  | lightOn (lightId : UInt8)
  | lightOff (lightId : UInt8)
  | flash (lightId : UInt8)
  | groupBrightness (groupId brightness : UInt8)
  | groupOn (groupId : UInt8)
  | groupOff (groupId : UInt8)
  | groupFlash (groupId : UInt8)
  deriving DecidableEq, Repr

inductive Direction where
  | none
  | up
  | down
  deriving DecidableEq, Repr

/-- One reading of `encoder`, `encoderCont`, the switch and the clock. -/
structure Input where
  answers : Answers := {}
  millis : UInt32 := 0
  direction : Direction := .none
  directionCont : Direction := .none
  pressed : Bool := false

def increaseBrightnessArr : List ℤ :=
  [0, 15, 35, 54, 72, 90, 106, 122, 136, 150, 163, 175, 186, 196, 205, 214, 221, 228, 234, 239,
    242, 246, 248, 254]

def decreaseBrightnessArr : List ℤ :=
  [0, 6, 10, 14, 16, 18, 23, 31, 42, 55, 71, 89, 109, 132, 158, 186, 217, 250, 254]

/-- The first pair of neighbours that encloses the target, and its end in the
direction asked for; 0 where there is none. -/
def getNearestElementInSortedArray (target : ℤ) (increase : Bool) : List ℤ → ℤ
  | x::y::rest =>
      if increase then
        if x ≤ target ∧ target < y then y
        else getNearestElementInSortedArray target increase (y::rest)
      else
        if x < target ∧ target ≤ y then x
        else getNearestElementInSortedArray target increase (y::rest)
  | _ => 0

def calcBrightness (currentBrightness : ℤ) (increase : Bool) : ℤ :=
  if increase then
    let nearestIncElement :=
      getNearestElementInSortedArray currentBrightness increase increaseBrightnessArr
    if nearestIncElement = 0 then 254 else nearestIncElement
  else getNearestElementInSortedArray currentBrightness increase decreaseBrightnessArr

/-- The value of an `int16_t`. -/
def toInt16 (x : ℤ) : ℤ := x.bmod 65536

def toUInt16 (x : ℤ) : UInt16 := UInt16.ofNat (x % 65536).toNat

def map (x inMin inMax outMin outMax : ℤ) : ℤ :=
  ((x-inMin)*(outMax-outMin)).tdiv (inMax-inMin) + outMin

/-- The variables of `chooseAndAlterLightInRoom`. -/
structure Choosing where
  counter : UInt8
  currentLightId : UInt8
  roomState : Bool
  elapsedMillis : UInt32 := 0
  dialTurned : Bool := false
  deriving DecidableEq, Repr

/-- The variables of `chooseLightInRoom`. -/
structure Flashing where
  counter : UInt8
  currentLightId : UInt8
  deriving DecidableEq, Repr

structure Adjusting where
  lightId : UInt8
  lightBrigthness : ℤ
  hueCounter : UInt8 := 0
  tempCounter : UInt8 := 10
  deriving DecidableEq, Repr

inductive Loop where
  | outside
  | choosing (c : Choosing)
  | flashing (c : Flashing)
  | adjusting (c : Adjusting)
  deriving DecidableEq, Repr

/-- The display and the encoder task. -/
structure Device where
  eink : Eink := {}
  currentScreen : ScreenType := .none
  loop : Loop := .outside

/-- The variables of a loop, the state and the commands sent so far in an iteration. -/
structure Turn (α : Type) where
  loop : α
  eink : Eink
  sent : List Command := []

def Turn.andThen {α : Type} (t : Turn α) (f : α → Eink → Turn α) : Turn α :=
  let u := f t.loop t.eink
  { u with sent := t.sent ++ u.sent }

def setLight (f : Light → Light) (s : Eink) : Eink :=
  { s with house := { s.house with currentLight := f s.house.currentLight } }

def setRoom (f : Room → Room) (s : Eink) : Eink :=
  { s with house := { s.house with currentRoom := f s.house.currentRoom } }

/-- The loop of `setCurrentLight`; a later match replaces an earlier one. -/
def setCurrentLightFrom (lightIds : Fin 50 → Light) (id : UInt8) : ℕ → ℕ → Light →
    Except Fault Light
  | 0, _, found => .ok found
  | rounds+1, i, found => do
      let light ← read lightIds i (.outside .lightIds i)
      setCurrentLightFrom lightIds id rounds (i+1) (if id = light.id then light else found)

def setCurrentLight (id : UInt8) (s : Eink) : Except Fault Eink := do
  let light ← setCurrentLightFrom s.house.lightIds id s.house.allLightCount.toNat 0
    s.house.currentLight
  pure { s with house := { s.house with currentLight := light } }

/-- Ten seconds without choosing a bulb, or UI level 1, and the dial opens no light. -/
def waitTurn (turnMillis : UInt32) (uiLevel : ℤ) (c : Choosing) : Choosing :=
  let c := if turnMillis - c.elapsedMillis > 10000 ∧ c.dialTurned = true then
      { c with elapsedMillis := turnMillis, dialTurned := false }
    else c
  let c := if c.dialTurned = false then { c with elapsedMillis := turnMillis } else c
  if uiLevel = 1 then { c with dialTurned := false } else c

def OpensLight (i : Input) (c : Choosing) (s : Eink) : Prop :=
  c.dialTurned = true ∧ i.pressed = true ∧ c.counter ≠ s.house.currentRoom.lightCounter

instance opensLight_decidable (i : Input) (c : Choosing) (s : Eink) :
    Decidable (OpensLight i c s) :=
  inferInstanceAs (Decidable (_ ∧ _ ∧ _))

def openChosen (i : Input) (c : Choosing) (s : Eink) : Except Fault Eink :=
  if OpensLight i c s then
    drawLight i.answers c.currentLightId.toNat (logAction i.answers
      (.withWhat "topDialInteraction" "navigate" "drawLight" s.house.currentLight.name)
      { s with calledFromEncoder := true })
  else .ok s

def pageContext (s : Eink) (other : String) : String :=
  if s.nav.currentScreenType = .home then "drawHome" else other

def switchChosen (i : Input) (c : Choosing) (s : Eink) : Turn Choosing :=
  let room := s.house.currentRoom
  if i.pressed = false then { loop := c, eink := s }
  else if c.roomState = true ∧ c.counter = room.lightCounter then
    { loop := { c with roomState := false }
      eink := logAction i.answers (.withWhat "topDialInteraction" "allLightOff"
        (pageContext s "drawRooms") room.name) s
      sent := [.groupOff room.id] }
  else if c.counter = room.lightCounter then
    { loop := { c with roomState := true }
      eink := logAction i.answers (.withWhat "topDialInteraction" "allLightOn"
        (pageContext s "drawRooms") room.name) s
      sent := [.groupOn room.id] }
  else if s.house.currentLight.on then
    { loop := c
      eink := setLight (fun l => { l with on := false }) s
      sent := [.lightOff c.currentLightId] }
  else
    { loop := c
      eink := setLight (fun l => { l with on := true }) s
      sent := [.lightOn c.currentLightId] }

def brightenLight (i : Input) (up : Bool) (context : String) (c : Choosing) (s : Eink) :
    Turn Choosing :=
  let bri := calcBrightness s.house.currentLight.brightness up
  let s := setLight (fun l => { l with brightness := bri }) s
  { loop := c
    eink := logAction i.answers (.withWhatAndValue "topDialInteraction" "setBrigthness"
      (pageContext s context) s.house.currentLight.name bri) s
    sent := [.brightness c.currentLightId (Entertainment.toUInt8 bri)] }

def brightenRoom (i : Input) (up : Bool) (c : Choosing) (s : Eink) : Turn Choosing :=
  let bri := calcBrightness s.house.currentRoom.bri up
  let s := setRoom (fun r => { r with bri := bri }) s
  { loop := c
    eink := logAction i.answers (.withWhatAndValue "topDialInteraction" "setBrigthness"
      (pageContext s "drawRooms") s.house.currentRoom.name bri) s
    sent := [.groupBrightness s.house.currentRoom.id (Entertainment.toUInt8 bri)] }

def brightenChosen (i : Input) (c : Choosing) (s : Eink) : Turn Choosing :=
  match i.directionCont with
  | .none => { loop := c, eink := s }
  | .up =>
      if c.counter ≠ s.house.currentRoom.lightCounter then brightenLight i true "drawRooms" c s
      else brightenRoom i true c s
  | .down =>
      if c.counter ≠ s.house.currentRoom.lightCounter then brightenLight i false "drawRoom" c s
      else brightenRoom i false c s

def nextCounter (counter lightCounter : UInt8) : Direction → UInt8
  | .none => counter
  | .up => if lightCounter < counter+1 then 0 else counter+1
  | .down => if lightCounter < counter-1 then lightCounter else counter-1

def chooseBulb (i : Input) (c : Choosing) (s : Eink) : Except Fault (Turn Choosing) :=
  if i.direction = .none then .ok { loop := c, eink := s }
  else do
    let room := s.house.currentRoom
    let counter := nextCounter c.counter room.lightCounter i.direction
    let c := { c with dialTurned := true, elapsedMillis := i.millis, counter := counter }
    let id ← read room.lightIds counter.toNat (.outside .roomLightIds counter.toNat)
    if counter = room.lightCounter then
      pure { loop := c, eink := s, sent := [.groupFlash room.id] }
    else do
      let s ← setCurrentLight id s
      pure { loop := { c with currentLightId := id }, eink := s, sent := [.flash id] }

def chooseAndAlterLightInRoom (i : Input) (c : Choosing) (s : Eink) :
    Except Fault (Turn Choosing) := do
  let c := waitTurn i.millis s.uiLevel c
  let s ← openChosen i c s
  let t := (switchChosen i c s).andThen (brightenChosen i)
  let u ← chooseBulb i t.loop t.eink
  pure { u with sent := t.sent ++ u.sent }

def chooseLightInRoom (i : Input) (c : Flashing) (s : Eink) : Except Fault (Turn Flashing) :=
  if i.direction = .none then .ok { loop := c, eink := s }
  else do
    let room := s.house.currentRoom
    let counter := nextCounter c.counter room.lightCounter i.direction
    let c := { c with counter := counter }
    let id ← read room.lightIds counter.toNat (.outside .roomLightIds counter.toNat)
    if counter = room.lightCounter then
      pure { loop := c, eink := s, sent := [.groupFlash room.id] }
    else pure { loop := { c with currentLightId := id }, eink := s, sent := [.flash id] }

/-- The switch: `Switch` addresses the current light and logs, then the loop logs. -/
def switchLight (i : Input) (c : Adjusting) (s : Eink) : Turn Adjusting :=
  if i.pressed = false then { loop := c, eink := s }
  else
    let light := s.house.currentLight
    { loop := c
      eink := logAction i.answers
        (.withWhat "topDialInteraction" "switchLight" "drawLight" light.name)
        (Pages.switch i.answers s)
      sent := [if light.on then .lightOff light.id else .lightOn light.id] }

def setBrightness (i : Input) (up : Bool) (c : Adjusting) (s : Eink) : Turn Adjusting :=
  let b := if up then
      (if 254 < toInt16 (c.lightBrigthness+20) then 254 else toInt16 (c.lightBrigthness+20))
    else (if toInt16 (c.lightBrigthness-20) < 1 then 1 else toInt16 (c.lightBrigthness-20))
  let bri := calcBrightness b up
  let s := setLight (fun l => { l with brightness := bri }) s
  { loop := { c with lightBrigthness := b }
    eink := logAction i.answers (.withWhatAndValue "topDialInteraction" "setBrigthness" "drawLight"
      s.house.currentLight.name bri) s
    sent := [.brightness c.lightId (Entertainment.toUInt8 bri)] }

def adjustBrightness (i : Input) (c : Adjusting) (s : Eink) : Turn Adjusting :=
  match i.directionCont with
  | .none => { loop := c, eink := s }
  | .up => setBrightness i true c s
  | .down => setBrightness i false c s

def setHue (i : Input) (hueCounter : UInt8) (c : Adjusting) (s : Eink) : Turn Adjusting :=
  { loop := { c with hueCounter := hueCounter }
    eink := logAction i.answers (.withWhatAndValue "lowerDialInteraction" "setHue" "drawLight"
      s.house.currentLight.name s.house.currentLight.hue.toNat) s
    sent := [.hue c.lightId (toUInt16 (map hueCounter.toNat 0 20 0 65535))] }

def setColorTemp (i : Input) (tempCounter : UInt8) (c : Adjusting) (s : Eink) : Turn Adjusting :=
  { loop := { c with tempCounter := tempCounter }
    eink := logAction i.answers (.withWhatAndValue "lowerDialInteraction" "setColorTemp" "drawLight"
      s.house.currentLight.name s.house.currentLight.ct.toNat) s
    sent := [.colorTemp c.lightId (toUInt16 (map tempCounter.toNat 0 20 6500 2000))] }

/-- The lower dial turns the hue or the temperature; an unsigned counter is never below 0. -/
def adjustColor (i : Input) (c : Adjusting) (s : Eink) : Turn Adjusting :=
  match i.direction, s.RGBMode with
  | .none, _ => { loop := c, eink := s }
  | .up, true => setHue i (if 20 ≤ c.hueCounter+1 then 0 else c.hueCounter+1) c s
  | .down, true => setHue i (if c.hueCounter-1 = 0 then 20 else c.hueCounter-1) c s
  | .up, false => setColorTemp i (if 20 < c.tempCounter+1 then 20 else c.tempCounter+1) c s
  | .down, false => setColorTemp i (c.tempCounter-1) c s

def adjustLight (i : Input) (c : Adjusting) (s : Eink) : Turn Adjusting :=
  ((switchLight i c s).andThen (adjustBrightness i)).andThen (adjustColor i)

def enter (s : Eink) : Except Fault Loop :=
  match s.nav.currentScreenType with
  | .none => .ok .outside
  | .home | .rooms => do
      let counter := s.house.currentRoom.lightCounter
      let id ← read s.house.currentRoom.lightIds counter.toNat
        (.outside .roomLightIds counter.toNat)
      pure (.choosing { counter := counter, currentLightId := id
                        roomState := s.house.currentRoom.on })
  | .room => do
      let id ← read s.house.currentRoom.lightIds 0 (.outside .roomLightIds 0)
      pure (.flashing { counter := 0, currentLightId := id })
  | .light => .ok (.adjusting { lightId := s.house.currentLight.id
                                lightBrigthness := s.house.currentLight.brightness })

def Turn.iterated {α : Type} (loop : α → Loop) (t : Turn α) : Device × List Command :=
  ({ eink := t.eink, currentScreen := t.eink.nav.currentScreenType, loop := loop t.loop },t.sent)

/-- The condition of `chooseAndAlterLightInRoom`. -/
def Chooses (s : Eink) : Prop :=
  s.nav.currentScreenType = .home ∨ s.nav.currentScreenType = .rooms

instance chooses_decidable (s : Eink) : Decidable (Chooses s) :=
  inferInstanceAs (Decidable (_ ∨ _))

/-- One step of the task. A loop whose condition fails is left; two of the
three conditions look at the copy of the screen type. -/
def iterate (i : Input) (e : Device) : Except Fault (Device × List Command) :=
  match e.loop with
  | .outside => do
      let loop ← enter e.eink
      pure ({ e with currentScreen := e.eink.nav.currentScreenType, loop := loop },[])
  | .choosing c =>
      if Chooses e.eink then do
        let t ← chooseAndAlterLightInRoom i c e.eink
        pure (t.iterated .choosing)
      else .ok ({ e with loop := .outside },[])
  | .flashing c =>
      if e.currentScreen = .room then do
        let t ← chooseLightInRoom i c e.eink
        pure (t.iterated .flashing)
      else .ok ({ e with loop := .outside },[])
  | .adjusting c =>
      if e.currentScreen = .light then .ok ((adjustLight i c e.eink).iterated .adjusting)
      else .ok ({ e with loop := .outside },[])

/-- A touch, or an iteration of the encoder task. -/
inductive Move where
  | touch (a : Answers) (x y : ℤ)
  | turn (i : Input)

def step (e : Device) : Move → Except Fault Device
  | .touch a x y => do
      let s ← Pages.touch a x y e.eink
      pure { e with eink := s }
  | .turn i => do
      let (e,_) ← iterate i e
      pure e

theorem iterate_ends {i : Input} {e : Device} {P : Device × List Command → Prop}
    {E : Fault → Prop}
    (houtside : e.loop = .outside → Ends (enter e.eink) (fun loop =>
      P ({ e with currentScreen := e.eink.nav.currentScreenType, loop := loop },[])) E)
    (hleft : P ({ e with loop := .outside },[]))
    (hchoosing : ∀ c, e.loop = .choosing c → Chooses e.eink →
      Ends (chooseAndAlterLightInRoom i c e.eink) (fun t => P (t.iterated .choosing)) E)
    (hflashing : ∀ c, e.loop = .flashing c → e.currentScreen = .room →
      Ends (chooseLightInRoom i c e.eink) (fun t => P (t.iterated .flashing)) E)
    (hadjusting : ∀ c, e.loop = .adjusting c → e.currentScreen = .light →
      P ((adjustLight i c e.eink).iterated .adjusting)) :
    Ends (iterate i e) P E := by
  rw [iterate]
  cases hl : e.loop with
  | outside => exact ends_bind (houtside hl) fun _ h => h
  | choosing c =>
    dsimp only
    split
    · next hc => exact ends_bind (hchoosing c hl hc) fun _ h => h
    · exact hleft
  | flashing c =>
    dsimp only
    split
    · next hc => exact ends_bind (hflashing c hl hc) fun _ h => h
    · exact hleft
  | adjusting c =>
    dsimp only
    split
    · next hc => exact hadjusting c hl hc
    · exact hleft

/-- Only what the dials act on differs: the current light and the room's brightness. -/
structure Dialled (s t : Eink) : Prop where
  nav : t.nav = s.nav
  screen : t.screen = s.screen
  level : t.uiLevel = s.uiLevel
  house : t.house = { s.house with
    currentRoom := { s.house.currentRoom with bri := t.house.currentRoom.bri }
    currentLight := t.house.currentLight }

variable {s t u : Eink}

theorem dialled_trans (h : Dialled s t) (g : Dialled t u) : Dialled s u := by
  refine ⟨g.nav.trans h.nav,g.screen.trans h.screen,g.level.trans h.level,?_⟩
  have hh := g.house
  rw [h.house] at hh
  exact hh

theorem dialled_room (h : Dialled s t) :
    t.house.currentRoom.lightIds = s.house.currentRoom.lightIds ∧
    t.house.currentRoom.lightCounter = s.house.currentRoom.lightCounter := by
  rw [h.house]
  exact ⟨rfl,rfl⟩

def LightOf (s t : Eink) : Prop :=
  t.house = { s.house with currentLight := t.house.currentLight }

theorem onScreen_house (f : Screen → Except Fault Screen) (s : Eink) :
    Ends (onScreen f s) (fun t => t.house = s.house) (fun _ => True) :=
  ends_bind (ends_true _) fun _ _ => rfl

theorem drawHeader_house (text : String) (s : Eink) :
    Ends (drawHeader text s) (fun t => t.house = s.house) (fun _ => True) :=
  ends_bind (ends_true _) fun _ _ => ends_bind (ends_true _) fun _ _ => rfl

theorem drawLight_opens {a : Answers} {id : ℤ} {s : Eink} {P : House → Prop}
    (h : Ends (openLight a id s) (fun p => P p.2.house) (fun _ => True)) :
    Ends (drawLight a id s) (fun t => P t.house) (fun _ => True) := by
  refine ends_bind h ?_
  rintro ⟨name,c⟩ (hc : P c.house)
  refine ends_bind (drawHeader_house name _) fun b (hb : b.house = c.house) => ?_
  refine ends_bind (onScreen_house _ b) fun d hd => ?_
  refine ends_imp (onScreen_house _ d) fun t ht => ?_
  rw [ht, hd, hb]
  exact hc

theorem drawLight_house (a : Answers) (id : ℤ) (s : Eink) :
    Ends (drawLight a id s) (LightOf s) (fun _ => True) := by
  refine drawLight_opens (P := fun i => i = { s.house with currentLight := i.currentLight }) ?_
  rw [openLight]
  split
  · exact ends_bind (ends_true _) fun _ _ => rfl
  · exact ends_bind (ends_true _) fun _ _ => rfl

theorem drawLight_found (a : Answers) (id : ℤ) {s : Eink}
    (hs : s.calledFromEncoder = true ∨ s.pressedButton.id = id) :
    Ends (drawLight a id s) (fun t => LightOf s t ∧ findLight s.house.lights id
      s.house.allLightCount.toNat 0 s.house.currentLight = .ok t.house.currentLight)
      (fun _ => True) := by
  refine ends_and (F := fun _ => True) (drawLight_house a id s) ?_
  refine drawLight_opens (P := fun i => findLight s.house.lights id
    s.house.allLightCount.toNat 0 s.house.currentLight = .ok i.currentLight) ?_
  rw [openLight]
  split
  · exact ends_bind (ends_self _) fun _ hl => hl
  · next hcalled =>
    rw [← hs.resolve_left hcalled]
    exact ends_bind (ends_self _) fun _ hl => hl

theorem openChosen_house (i : Input) (c : Choosing) (s : Eink) :
    Ends (openChosen i c s) (LightOf s) (fun _ => True) := by
  rw [openChosen]
  split
  · exact drawLight_house _ _ (logAction _ _ { s with calledFromEncoder := true })
  · exact rfl

theorem switchChosen_dialled (i : Input) (c : Choosing) (s : Eink) :
    Dialled s (switchChosen i c s).eink := by
  simp only [switchChosen]
  split
  · exact ⟨rfl,rfl,rfl,rfl⟩
  · split
    · exact ⟨rfl,rfl,rfl,rfl⟩
    · split
      · exact ⟨rfl,rfl,rfl,rfl⟩
      · split <;> exact ⟨rfl,rfl,rfl,rfl⟩

theorem brightenChosen_dialled (i : Input) (c : Choosing) (s : Eink) :
    Dialled s (brightenChosen i c s).eink := by
  rw [brightenChosen]
  split
  · exact ⟨rfl,rfl,rfl,rfl⟩
  · split <;> exact ⟨rfl,rfl,rfl,rfl⟩
  · split <;> exact ⟨rfl,rfl,rfl,rfl⟩

theorem setCurrentLight_dialled (id : UInt8) (s : Eink) :
    Ends (setCurrentLight id s) (Dialled s) (fun _ => True) := by
  exact ends_bind (ends_true _) fun light _ => ⟨rfl,rfl,rfl,rfl⟩

theorem chooseBulb_dialled (i : Input) (c : Choosing) (s : Eink) :
    Ends (chooseBulb i c s) (fun t => Dialled s t.eink) (fun _ => True) := by
  rw [chooseBulb]
  split
  · exact ⟨rfl,rfl,rfl,rfl⟩
  · refine ends_bind (ends_true _) fun id _ => ?_
    split
    · exact ⟨rfl,rfl,rfl,rfl⟩
    · exact ends_bind (setCurrentLight_dialled id s) fun _ h => h

theorem switchLight_dialled (i : Input) (c : Adjusting) (s : Eink) :
    Dialled s (switchLight i c s).eink := by
  rw [switchLight]
  split <;> exact ⟨rfl,rfl,rfl,rfl⟩

theorem adjustBrightness_dialled (i : Input) (c : Adjusting) (s : Eink) :
    Dialled s (adjustBrightness i c s).eink := by
  rw [adjustBrightness]
  split <;> exact ⟨rfl,rfl,rfl,rfl⟩

theorem adjustColor_dialled (i : Input) (c : Adjusting) (s : Eink) :
    Dialled s (adjustColor i c s).eink := by
  rw [adjustColor]
  split <;> exact ⟨rfl,rfl,rfl,rfl⟩

theorem adjustLight_dialled (i : Input) (c : Adjusting) (s : Eink) :
    Dialled s (adjustLight i c s).eink :=
  dialled_trans (dialled_trans (switchLight_dialled i c s) (adjustBrightness_dialled i _ _))
    (adjustColor_dialled i _ _)

end THue.Encoder
