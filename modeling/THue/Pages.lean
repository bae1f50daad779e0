import THue.TouchScreen
import THue.Bridge
import THue.BehaviorTask

/-!
# The pages

The handlers behind the buttons, as `pages.cpp` and `eink.cpp` run them in the
touch task, and the dial press that opens the light page from the encoder
task. Each runs to its end; what the clock, the bridge and the database answer
is an argument. Writing to the display is left out.
-/

set_option autoImplicit false

namespace THue.Pages
open THue.Globals THue.Firebase THue.Entertainment THue.BehaviorTask THue.BehaviorSettings
open THue.CheckedArray THue.FaultRun THue.TouchScreen THue.Bridge

inductive ScreenType where
  | none
  | home
  | rooms
  | room
  | light
  deriving DecidableEq, Repr

structure Nav where
  pagePath : Fin 10 → ℤ := fun _ => 0
  pagePageCounter : ℤ := 0
  isGoingBack : Bool := false
  currentRoomID : ℤ := 0
  currentScreenType : ScreenType := .none

structure Eink where
  screen : Screen := {}
  nav : Nav := {}
  house : House := {}
  shared : Shared := {}
  pressedButton : Button := {}
  uiLevel : ℤ := 3
  RGBMode : Bool := false
  calledFromEncoder : Bool := false

/-- What a handler is told from outside. -/
structure Answers where
  now : UInt32 := 0
  known : Bool := true
  entertainmentGroup : Group := {}
  entertainmentStates : ℕ → Light := fun _ => {}
  groups : List Group := []
  allLights : List Light := []
  states : ℕ → Light := fun _ => {}
  level : Option ℤ := none
  unset : Behavior := {}

def drawHomeID : ℤ := 0
def drawAllRoomsID : ℤ := 1
def drawRoomID : ℤ := 2
def drawLightID : ℤ := 3
def drawAllLightsID : ℤ := 4
def drawAllBehaviorID : ℤ := 5
def drawBehaviorID : ℤ := 6
def changeBehaviorID : ℤ := 7

def onScreen (f : Screen → Except Fault Screen) (s : Eink) : Except Fault Eink := do
  let screen ← f s.screen
  pure { s with screen := screen }

def logAction (a : Answers) (act : Action) (s : Eink) : Eink :=
  { s with shared := { s.shared with log := firebaseAppendUserAction a.now act s.shared.log } }

def navigated (context : String) : Action := .message "touchScreenInteraction" "navigate" context

def navigatedTo (context what : String) : Action :=
  .withWhat "touchScreenInteraction" "navigate" context what

def addPageToPagePath (n : Nav) : Except Fault Nav :=
  if n.isGoingBack then .ok { n with isGoingBack := false }
  else do
    let pagePath ← write n.pagePath n.pagePageCounter n.currentRoomID
      (.outside .pagePath n.pagePageCounter)
    pure { n with pagePath := pagePath, pagePageCounter := n.pagePageCounter + 1,
                  isGoingBack := false }

def drawNavbar (text : String) (s : Screen) : Except Fault Screen := do
  let s ← if text ≠ "HJEM" then
      drawBitmap 29 251 46 14 12 12 " " .goBack 12 true false 0 false none s
    else drawBitmap 29 251 42 10 16 16 " " .fetchData 12 true false 0 false none s
  drawBitmap 88 251 46 14 12 12 " " .drawHomeFromHomeButton 12 true false 0 false none s

def drawHeader (text : String) (s : Eink) : Except Fault Eink := do
  let screen := clearButtons { s.screen with buttonCount := 0 }
  let nav ← addPageToPagePath s.nav
  let screen ← drawNavbar text { screen with currentPageOnScreen := text }
  pure { s with screen := screen, nav := nav }

def navButton (x : ℤ) (event : Event) : Button :=
  { x := x, y := 238, width := 58, height := 26, event := some event, id := 12, name := " " }

/-- The screen that `drawHeader` leaves: the navigation bar and empty cells. -/
def headed (text : String) (s : Screen) : Screen :=
  { s with
    buttons := Function.update (Function.update (fun _ => {}) 0
      (navButton 0 (if text ≠ "HJEM" then .goBack else .fetchData))) 1
      (navButton 59 .drawHomeFromHomeButton)
    buttonCount := 2
    currentPageOnScreen := text }

theorem drawNavbar_eq (text : String) (s : Screen) :
    drawNavbar text (clearButtons { s with buttonCount := 0, currentPageOnScreen := text }) =
      .ok (headed text s) := by
  have hhome := fun u : Screen => addButton_at (navButton 59 .drawHomeFromHomeButton) (s := u) 1
    (by omega)
  rw [headed, drawNavbar]
  by_cases ht : text ≠ "HJEM"
  · rw [if_pos ht, if_pos ht]
    exact bind_ok.mpr ⟨_,addButton_at (navButton 0 .goBack) 0 (by omega) rfl,hhome _ rfl⟩
  · rw [if_neg ht, if_neg ht]
    exact bind_ok.mpr ⟨_,addButton_at (navButton 0 .fetchData) 0 (by omega) rfl,hhome _ rfl⟩

theorem drawHeader_ok {text : String} {s t : Eink} :
    drawHeader text s = .ok t ↔ ∃ nav, addPageToPagePath s.nav = .ok nav ∧
      t = { s with screen := headed text s.screen, nav := nav } := by
  rw [drawHeader, bind_ok]
  constructor
  · rintro ⟨nav,hn,h⟩
    obtain ⟨screen,hs,h⟩ := bind_ok.mp h
    rw [← Except.ok.inj ((drawNavbar_eq text s.screen).symm.trans hs)] at h
    exact ⟨nav,hn,(Except.ok.inj h).symm⟩
  · rintro ⟨nav,hn,rfl⟩
    exact ⟨nav,hn,bind_ok.mpr ⟨_,drawNavbar_eq text s.screen,rfl⟩⟩

theorem drawHeader_ends {E : Fault → Prop} (hE : ∀ i, E (.outside .pagePath i)) (text : String)
    (s : Eink) : Ends (drawHeader text s)
      (fun t => ∃ nav, t = { s with screen := headed text s.screen, nav := nav }) E := by
  have hadd : Ends (addPageToPagePath s.nav) (fun _ => True) E := by
    rw [addPageToPagePath]
    split
    · trivial
    · refine ends_bind (Q := fun _ => True) ?_ fun _ _ => trivial
      rw [write]
      split
      · trivial
      · exact hE _
  refine ends_bind hadd fun nav _ => ?_
  exact ends_bind_ok (drawNavbar_eq text s.screen) ⟨nav,rfl⟩

theorem headed_empty (text : String) (s : Screen) (k : Fin 30) (hk : 2 ≤ k.val) :
    (headed text s).buttons k = {} :=
  (Function.update_of_ne (by omega) _ _).trans (Function.update_of_ne (by omega) _ _)

def lightItem (lights : Fin 50 → Light) (i : ℤ) : Except Fault Item := do
  let light ← read lights i (.outside .lights i)
  pure { name := light.name, event := .drawLight, id := light.id.toNat, on := light.on,
         brightness := light.brightness }

def drawLightsFromArray (start last : ℤ) (h : House) : Screen → Except Fault Screen :=
  drawListFromArray (lightItem h.lights) 48 48 start last
    (if h.lightCount.toNat < last then h.lightCount.toNat else last)

/-- The inner loop of `drawSelectableLightsFromArray` over `lightIds[p..lightCounter)`. -/
def selectedFrom (b : Behavior) (id : UInt8) : ℕ → ℕ → Except Fault Bool
  | 0, _ => .ok false
  | rounds+1, p => do
      let x ← read b.lightIds p (.outside .behaviorLightIds p)
      let rest ← selectedFrom b id rounds (p+1)
      pure (x == id || rest)

def selectableItem (lights : Fin 20 → Light) (b : Behavior) (i : ℤ) : Except Fault Item := do
  let light ← read lights i (.outside .entertainmentLights i)
  if light.name = "" then
    pure { name := "", event := .selectLight, id := light.id.toNat }
  else do
    let isSelected ← selectedFrom b light.id b.lightCounter.toNat 0
    pure { name := light.name, event := .selectLight, id := light.id.toNat, on := light.on,
           brightness := light.brightness, isSelected := isSelected }

def drawSelectableLightsFromArray (start last : ℤ) (h : House) (b : Behavior) :
    Screen → Except Fault Screen :=
  drawListFromArray (selectableItem h.entertainmentLights b) 48 48 start last last

def roomItem (rooms : Fin 50 → Room) (i : ℤ) : Except Fault Item := do
  let room ← read rooms i (.outside .rooms i)
  pure { name := room.name, event := .drawRoom, id := i }

def drawRoomsFromArray (start last : ℤ) (h : House) : Screen → Except Fault Screen :=
  drawListFromArray (roomItem h.rooms) 40 40 start last last

/-- The redraw of `drawNextPage` and `drawPrevPage`; the page on screen picks the list. -/
def turnPage (start last : ℤ) (s : Eink) : Except Fault Eink := do
  let s := { s with screen := { s.screen with buttonCount := 3 } }
  if s.screen.currentPageOnScreen = "ALLE RUM" then do
    let s ← onScreen (drawRoomsFromArray start last s.house) s
    onScreen (drawPaginationButtons s.house.roomsCount) s
  else if s.screen.currentPageOnScreen = "RUM" then do
    let s ← onScreen (drawLightsFromArray start last s.house) s
    onScreen (drawPaginationButtons s.house.lightCount) s
  else if s.screen.currentPageOnScreen = "ALLE LAMPER" then do
    let s ← onScreen (drawSelectableLightsFromArray start last s.house (running s.shared)) s
    onScreen (drawPaginationButtons s.house.allLightCount) s
  else pure s

def drawNextPage (s : Eink) : Except Fault Eink :=
  turnPage s.screen.topIndex.toNat (s.screen.topIndex.toNat+4) s

def drawPrevPage (s : Eink) : Except Fault Eink :=
  turnPage (s.screen.topIndex.toNat-8) (s.screen.topIndex.toNat-4) s

def chooseRoom (room : ℤ) (h : House) : Except Fault House := do
  let currentRoom ← if h.lastRoom ≠ room then read h.rooms room (.outside .rooms room)
    else pure h.currentRoom
  pure { h with currentRoom := currentRoom, lastRoom := room }

def drawRoom (a : Answers) (room : ℤ) (s : Eink) : Except Fault Eink := do
  let house ← chooseRoom room s.house
  let s := { s with
    house := house
    nav := { s.nav with currentScreenType := .room, currentRoomID := drawRoomID } }
  let s ← drawHeader house.currentRoom.name s
  let s := { s with screen := { s.screen with currentPageOnScreen := "RUM" } }
  let s := logAction a (navigatedTo "drawRoom" house.currentRoom.name) s
  let lights ← getLightStates (.outside .lights) a.states house.currentRoom.lightIds
    house.currentRoom.lightCounter house.lights
  let house := { house with lights := lights, lightCount := house.currentRoom.lightCounter }
  let s := { s with house := house }
  let s ← if 4 < house.lightCount then
      onScreen (drawPaginationButtons house.lightCount)
        { s with screen := { s.screen with topIndex := 4 } }
    else pure s
  onScreen (drawLightsFromArray 0 4 house) s

def drawAllGroups (a : Answers) (s : Eink) : Except Fault Eink := do
  let s := logAction a (navigated "drawAllRooms") s
  let s := { s with
    nav := { s.nav with currentScreenType := .rooms, currentRoomID := drawAllRoomsID } }
  let s ← drawHeader "ALLE RUM" s
  let s ← if s.house.roomPagination then
      onScreen (drawPaginationButtons s.house.roomsCount)
        { s with screen := { s.screen with topIndex := 4 } }
    else pure s
  onScreen (drawRoomsFromArray 0 4 s.house) s

def findLight (lights : Fin 50 → Light) (id : ℤ) : ℕ → ℕ → Light → Except Fault Light
  | 0, _, found => .ok found
  | rounds+1, i, found => do
      let light ← read lights i (.outside .lights i)
      findLight lights id rounds (i+1) (if (light.id.toNat:ℤ) = id then light else found)

def openLight (a : Answers) (lightId : ℤ) (s : Eink) : Except Fault (String × Eink) :=
  if s.calledFromEncoder then do
    let light ← findLight s.house.lights lightId s.house.allLightCount.toNat 0 s.house.currentLight
    pure (light.name,{ s with house := { s.house with currentLight := light } })
  else do
    let s := logAction a (navigatedTo "drawLight" s.house.currentLight.name) s
    let light ← findLight s.house.lights s.pressedButton.id s.house.allLightCount.toNat 0
      s.house.currentLight
    pure (s.pressedButton.name,{ s with house := { s.house with currentLight := light } })

def drawScales (light : Light) (s : Screen) : Except Fault Screen :=
  if light.onlyDimmable then .ok s
  else do
    let s ← drawCircle (14+35) (152+35) 35 "FARVE" .toggleRGBMode light.id.toNat true s
    drawCircle 127 (152+35) 35 "TEMP" .toggleRGBMode light.id.toNat false s

def drawLight (a : Answers) (lightId : ℤ) (s : Eink) : Except Fault Eink := do
  let (name,s) ← openLight a lightId s
  let s := { s with
    nav := { s.nav with currentScreenType := .light, currentRoomID := drawLightID } }
  let s ← drawHeader name s
  let light := s.house.currentLight
  let s ← onScreen (drawBitmap 88 60 0 0 48 48 name .switch light.id.toNat true light.on 0 false
    none) s
  onScreen (drawScales light) s

def drawAllLights (a : Answers) (s : Eink) : Except Fault Eink := do
  let s := logAction a (navigated "drawAllLightsInBehavior") s
  let s := { s with nav := { s.nav with currentRoomID := drawAllLightsID } }
  let s ← drawHeader "ALLE LAMPER" s
  if s.house.allLightsPagination then do
    let s ← onScreen (drawPaginationButtons s.house.entertainmentRoom.lightCounter)
      { s with screen := { s.screen with topIndex := 4 } }
    onScreen (drawSelectableLightsFromArray 0 s.screen.topIndex.toNat s.house (running s.shared)) s
  else onScreen (drawSelectableLightsFromArray 0 s.house.entertainmentRoom.lightCounter.toNat
    s.house (running s.shared)) s

def drawHome (a : Answers) (s : Eink) : Except Fault Eink := do
  let s := logAction a drawHomeAction s
  if s.uiLevel = 1 then do
    let currentRoom ← read s.house.rooms 1 (.outside .rooms 1)
    drawHeader "HJEM" { s with
      house := { s.house with currentRoom := currentRoom }
      nav := { s.nav with currentScreenType := .home, currentRoomID := 1 } }
  else if 2 ≤ s.uiLevel then do
    let s ← drawHeader "HJEM" { s with
      nav := { s.nav with currentScreenType := .home, currentRoomID := drawHomeID } }
    let s ← onScreen (drawBitmap 30 56 0 0 40 40 "ALLE RUM" .drawAllGroups 0 false false 0 false
      none) s
    if s.uiLevel = 3 then
      onScreen (drawBitmap (30+80) 56 0 0 40 40 "OPFØRSEL" .drawAllBehaviors 0 false false 0 false
        none) s
    else pure s
  else pure s

/-- The lines that `drawBehavior` and the edit pages share: behavior `id`
becomes the last one opened and names the header. -/
def openBehaviorPage (a : Answers) (pageID : ℤ) (context : String) (id : ℤ) (s : Eink) :
    Except Fault (Behavior × Eink) := do
  let behavior ← read s.shared.play.behaviors id (.outside .behaviors id)
  let s := { s with
    nav := { s.nav with currentRoomID := pageID }
    shared := { s.shared with play := { s.shared.play with
      lastBehavior := behavior, lastBehaviorId := Fin.ofNat 20 id.toNat } } }
  let s ← drawHeader behavior.name s
  pure (behavior,logAction a (navigatedTo context behavior.name) s)

def drawBehaviorButtons (id : ℤ) (behavior : Behavior) (s : Screen) : Except Fault Screen := do
  let s ← drawSquare 23 65 130 30 "REDIGER PÆRER" .drawAllLights id s
  let s ← if behavior.behaviorId = repeatedBehavior then
      drawSquare 23 110 130 30 "REDIGER OPFØRSEL" .changeBehaviorForTraining id s
    else pure s
  let s ← if behavior.behaviorId = timeBehavior then
      drawSquare 23 110 130 30 "REDIGER OPFØRSEL" .changeBehaviorForAlarm id s
    else pure s
  let s ← if behavior.behaviorId = transitionBehavior then
      drawSquare 23 110 130 30 "REDIGER OPFØRSEL" .changeBehaviorForFest id s
    else pure s
  let s ← drawSquare 14 184 74 40 "START" .toggleBehavior id s
  drawSquare (14+74) 184 74 40 "STOP" .toggleBehavior id s

def drawBehavior (a : Answers) (id : ℤ) (s : Eink) : Except Fault Eink := do
  let (behavior,s) ← openBehaviorPage a drawBehaviorID "drawBehavior" id s
  onScreen (drawBehaviorButtons id behavior)
    { s with screen := { s.screen with currentPageOnScreen := "drawBehavior" } }

def drawSettingRow (y : ℤ) (minus plus : Setting) (id : ℤ) (s : Screen) : Except Fault Screen := do
  let s ← drawSquare 14 y 74 40 "-" (.setting minus) id s
  drawSquare (14+74) y 74 40 "+" (.setting plus) id s

def changeBehaviorForTraining (a : Answers) (id : ℤ) (s : Eink) : Except Fault Eink := do
  let (_,s) ← openBehaviorPage a changeBehaviorID "changeBehaviorForTraining" id s
  let s ← onScreen (drawSettingRow 82 .decrementBlinkingLightsSpeed .incrementBlinkingLightsSpeed
    id) s
  onScreen (drawSettingRow 184 .decrementBlinkingLightsCount .incrementBlinkingLightsCount id) s

def changeBehaviorForAlarm (a : Answers) (id : ℤ) (s : Eink) : Except Fault Eink := do
  let (_,s) ← openBehaviorPage a changeBehaviorID "changeBehaviorForAlarm" id s
  let s ← onScreen (drawSettingRow 82 .decrementAlarmDuration .incrementAlarmDuration id) s
  onScreen (drawSettingRow 184 .decrementAlarmFlashCount .incrementAlarmFlashCount id) s

def changeBehaviorForFest (a : Answers) (id : ℤ) (s : Eink) : Except Fault Eink := do
  let (_,s) ← openBehaviorPage a changeBehaviorID "changeBehaviorForFest" id s
  onScreen (drawSettingRow 184 .decrementFestSpeed .incrementFestSpeed id) s

/-- The loop of `drawAllBehaviors` from index `i`; no name stops it. -/
def drawBehaviorsFrom (behaviors : Fin 20 → Behavior) : ℕ → ℕ → ℤ → ℤ → Screen →
    Except Fault Screen
  | 0, _, _, _, s => .ok s
  | rounds+1, i, x, y, s => do
      let behavior ← read behaviors i (.outside .behaviors i)
      let s ← drawBitmap x y 0 0 48 48 behavior.name .drawBehavior i false false 0 false none s
      if i % 2 = 1 then drawBehaviorsFrom behaviors rounds (i+1) 20 (y+80) s
      else drawBehaviorsFrom behaviors rounds (i+1) (x+80) y s

def drawAllBehaviors (a : Answers) (s : Eink) : Except Fault Eink := do
  let s := logAction a (navigated "drawAllBehaviors") s
  let s ← drawHeader "OPFØRSLER" { s with nav := { s.nav with currentRoomID := drawAllBehaviorID } }
  onScreen (drawBehaviorsFrom s.shared.play.behaviors s.shared.play.behaviorCount.toNat 0 20 56) s

def drawHomeFromHomeButton (a : Answers) (s : Eink) : Except Fault Eink :=
  drawHome a { s with nav := { s.nav with pagePageCounter := 0 } }

def goBack (a : Answers) (s : Eink) : Except Fault Eink := do
  let pageID ← read s.nav.pagePath (s.nav.pagePageCounter-2)
    (.outside .pagePath (s.nav.pagePageCounter-2))
  let s := { s with nav := { s.nav with
    pagePageCounter := s.nav.pagePageCounter - 1, isGoingBack := true } }
  if pageID = drawHomeID then drawHome a s
  else if pageID = drawAllRoomsID then drawAllGroups a s
  else if pageID = drawRoomID then drawRoom a s.house.lastRoom s
  else if pageID = drawLightID then drawLight a 0 s
  else if pageID = drawAllLightsID then drawAllLights a s
  else if pageID = drawAllBehaviorID then drawAllBehaviors a s
  else if pageID = drawBehaviorID then drawBehavior a s.shared.play.lastBehaviorId.val s
  else pure s

def ENTERTAINMENT_ID : UInt8 := 2

def fetchHouse (a : Answers) (h : House) : Except Fault House := do
  let h := getGroup ENTERTAINMENT_ID a.entertainmentGroup h
  let lights ← getLightStates (.outside .entertainmentLights) a.entertainmentStates
    h.entertainmentRoom.lightIds h.entertainmentRoom.lightCounter h.entertainmentLights
  let h ← getGroups a.groups { h with entertainmentLights := lights }
  getLightIds a.allLights h

def fetchData (a : Answers) (s : Eink) : Except Fault Eink := do
  let log := getNewIds a.known s.shared.log
  let house ← fetchHouse a s.house
  let log := begin (firebaseEnd log)
  let play := initBehaviors a.unset s.shared.play
  drawHome a { s with
    house := house
    shared := { s.shared with play := play, log := deref log }
    uiLevel := a.level.getD s.uiLevel }

def switch (a : Answers) (s : Eink) : Eink :=
  let action := if s.house.currentLight.on then "lightOff" else "lightOn"
  let s := { s with house := { s.house with
    currentLight := { s.house.currentLight with on := !s.house.currentLight.on } } }
  logAction a (.withWhat "touchScreenInteraction" action "Switch" (s.screen.buttons 2).name) s

def toggleRGBMode (a : Answers) (s : Eink) : Eink :=
  logAction a (.withWhat "touchScreenInteraction" "rgbSwitch" "toggleRGBMode"
    (if s.pressedButton.on then "From Brightness to RGB" else "From RGB to Brightness"))
    { s with RGBMode := s.pressedButton.on }

def selectLight (a : Answers) (lightId : ℤ) (i : Fin 30) (s : Eink) : Except Fault Eink := do
  let button := s.screen.buttons i
  let shared ← editSelection lightId button.isSelected s.shared
  let buttons := Function.update s.screen.buttons i
    { button with isSelected := !button.isSelected }
  pure (logAction a (selectAction button.isSelected button.name)
    { s with screen := { s.screen with buttons := buttons }, shared := shared })

def toggleBehavior (a : Answers) (id : ℤ) (i : Fin 30) (s : Eink) : Except Fault Eink := do
  let behavior ← read s.shared.play.behaviors id (.outside .behaviors id)
  let k : Fin 20 := Fin.ofNat 20 id.toNat
  if i.val = 5 then pure { s with shared := toggleOff a.now k s.shared }
  else if behavior.lightCounter ≠ 0 then
    let log := runTaskFields "touchScreenInteraction" "behaviorOn" "toggleBehavior" behavior.name
      s.shared.log
    let shared := { s.shared with log := taskFireBaseAppendUserActionWithWhat log }
    pure { s with shared := armBehavior k shared }
  else pure s

def handle (a : Answers) (id : ℤ) (i : Fin 30) (s : Eink) : Event → Except Fault Eink
  | .drawAllGroups => drawAllGroups a s
  | .drawRoom => drawRoom a id s
  | .drawLight => drawLight a id s
  | .drawAllLights => drawAllLights a s
  | .drawAllBehaviors => drawAllBehaviors a s
  | .drawBehavior => drawBehavior a id s
  | .changeBehaviorForTraining => changeBehaviorForTraining a id s
  | .changeBehaviorForAlarm => changeBehaviorForAlarm a id s
  | .changeBehaviorForFest => changeBehaviorForFest a id s
  | .goBack => goBack a s
  | .drawHomeFromHomeButton => drawHomeFromHomeButton a s
  | .fetchData => fetchData a s
  | .drawNextPage => drawNextPage s
  | .drawPrevPage => drawPrevPage s
  | .switch => .ok (switch a s)
  | .toggleRGBMode => .ok (toggleRGBMode a s)
  | .selectLight => selectLight a id i s
  | .toggleBehavior => toggleBehavior a id i s
  | .setting e =>
      .ok { s with shared := { s.shared with play := press e s.shared.play } }

def touch (a : Answers) (x y : ℤ) (s : Eink) : Except Fault Eink :=
  match onTouchEvent x y s.screen with
  | none => .ok s
  | some i =>
      match (s.screen.buttons i).event with
      | none => .ok s
      | some e =>
          handle a (s.screen.buttons i).id i { s with pressedButton := s.screen.buttons i } e

/-- The encoder loop stands in `chooseAndAlterLightInRoom` and its press opens a light. -/
def dialOpens (s : Eink) : Prop :=
  (s.nav.currentScreenType = .home ∨ s.nav.currentScreenType = .rooms) ∧ s.uiLevel ≠ 1

instance dialOpens_decidable (s : Eink) : Decidable (dialOpens s) :=
  inferInstanceAs (Decidable (_ ∧ _))

/-- The press in `chooseAndAlterLightInRoom` with the light the dial stands at. -/
def dialPress (a : Answers) (currentLightId : ℤ) (s : Eink) : Except Fault Eink :=
  if dialOpens s then
    drawLight a currentLightId (logAction a
      (.withWhat "topDialInteraction" "navigate" "drawLight" s.house.currentLight.name)
      { s with calledFromEncoder := true })
  else .ok s

inductive Move where
  | touch (a : Answers) (x y : ℤ)
  | dial (a : Answers) (currentLightId : ℤ)

def step (s : Eink) : Move → Except Fault Eink
  | .touch a x y => touch a x y s
  | .dial a currentLightId => dialPress a currentLightId s

end THue.Pages
