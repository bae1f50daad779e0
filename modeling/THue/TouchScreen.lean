import THue.Globals
import THue.CheckedArray
import THue.FaultRun
import THue.BehaviorSettings
import Mathlib.Tactic.Ring

/-!
# The touch screen

The button array of the display: a touch runs the handler of the first button
it falls into. Drawing is left out; of each drawing function the button it
adds is kept. A button drawn for a list entry also records its list position.
-/

set_option autoImplicit false

namespace THue.TouchScreen
open THue.Globals THue.CheckedArray THue.FaultRun THue.BehaviorSettings

/-- The handlers a button can have. -/
inductive Event where
  | drawAllGroups
  | drawRoom
  | drawLight
  | drawAllLights
  | drawAllBehaviors
  | drawBehavior
  | changeBehaviorForTraining
  | changeBehaviorForAlarm
  | changeBehaviorForFest
  | goBack
  | drawHomeFromHomeButton
  | fetchData
  | drawNextPage
  | drawPrevPage
  | switch
  | toggleRGBMode
  | selectLight
  | toggleBehavior
  | setting (e : Setting)
  deriving DecidableEq, Repr

structure Button where
  x : ℤ := 0
  y : ℤ := 0
  width : ℤ := 0
  height : ℤ := 0
  on : Bool := false
  id : ℤ := 0
  brightness : ℤ := 0
  name : String := ""
  event : Option Event := none
  isSelected : Bool := false
  position : Option ℤ := none
  deriving DecidableEq, Repr

structure Screen where
  buttons : Fin 30 → Button := fun _ => {}
  buttonCount : ℤ := 0
  topIndex : UInt8 := 0
  currentPageOnScreen : String := ""
  drawn : List ℤ := []

def clearButtons (s : Screen) : Screen := { s with buttons := fun _ => {} }

def addButtonToArray (b : Button) (s : Screen) : Except Fault Screen := do
  let buttons ← write s.buttons s.buttonCount b (.outside .buttons s.buttonCount)
  pure { s with buttons := buttons, buttonCount := s.buttonCount + 1 }

def drawSquareWithBitmapInside (x y width height : ℤ) (event : Event) (bulbId : ℤ) :
    Screen → Except Fault Screen :=
  addButtonToArray
    { x := x, y := y, width := width, height := height, event := some event, id := bulbId,
      name := " " }

def drawSquare (x y width height : ℤ) (text : String) (event : Event) (bulbId : ℤ) :
    Screen → Except Fault Screen :=
  addButtonToArray
    { x := x, y := y, width := width, height := height, event := some event, id := bulbId,
      name := text }

/-- `center` shifts by half the bitmap, the padding widens the touch area. -/
def drawBitmap (x y xTouchPadding yTouchPadding widthOfBitmap heightOfBitmap : ℤ)
    (text : String) (event : Event) (bulbId : ℤ) (center on : Bool) (brightness : ℤ)
    (border : Bool) (position : Option ℤ) : Screen → Except Fault Screen :=
  let x := if center then x - widthOfBitmap/2 else x
  let y := if center then y - heightOfBitmap/2 else y
  addButtonToArray
    { x := x - xTouchPadding/2, y := y - yTouchPadding/2, width := widthOfBitmap + xTouchPadding,
      height := heightOfBitmap + yTouchPadding, event := some event, id := bulbId, name := text,
      on := on, brightness := brightness, isSelected := border, position := position }

def drawCircle (x y circleRadio : ℤ) (text : String) (event : Event) (bulbId : ℤ) (on : Bool) :
    Screen → Except Fault Screen :=
  addButtonToArray
    { x := x - circleRadio, y := y - circleRadio, width := circleRadio*2,
      height := circleRadio*2, event := some event, id := bulbId, name := text, on := on }

def inside (x y : ℤ) (b : Button) : Bool :=
  b.x < x ∧ x < b.width + b.x ∧ b.y < y ∧ y < b.y + b.height

/-- The search of `onTouchEvent`: the first button below `buttonCount` that holds the point. -/
def onTouchEvent (x y : ℤ) (s : Screen) : Option (Fin 30) :=
  (List.finRange 30).find? (fun i => decide ((i.val:ℤ) < s.buttonCount) && inside x y (s.buttons i))

theorem onTouchEvent_live {x y : ℤ} {s : Screen} {k : Fin 30} (h : onTouchEvent x y s = some k) :
    (k.val:ℤ) < s.buttonCount := by
  have hfound := List.find?_some h
  rw [Bool.and_eq_true, decide_eq_true_eq] at hfound
  exact hfound.1

theorem onTouchEvent_first {x y : ℤ} {s : Screen} {k : Fin 30} (hk : (k.val:ℤ) < s.buttonCount)
    (h : inside x y (s.buttons k) = true) (hj : ∀ j < k, inside x y (s.buttons j) = false) :
    onTouchEvent x y s = some k := by
  rw [onTouchEvent, List.find?_eq_some_iff_getElem]
  refine ⟨by simp [hk, h],k.val,by simp,by simp,fun j hjk => ?_⟩
  have := hj ⟨j,by omega⟩ hjk
  simp [this]

structure Item where
  name : String
  event : Event
  id : ℤ
  on : Bool := false
  brightness : ℤ := 0
  isSelected : Bool := false

/-- The loop of the `draw*FromArray` functions from index `i`: two columns,
and a stop at the first empty name. -/
def drawItems (itemAt : ℤ → Except Fault Item) (width height : ℤ) :
    ℕ → ℤ → ℤ → ℤ → Screen → Except Fault Screen
  | 0, _, _, _, s => .ok s
  | rounds+1, i, x, y, s => do
      let item ← itemAt i
      if item.name = "" then pure s
      else do
        let s ← drawBitmap x y 0 0 width height item.name item.event item.id false item.on
          item.brightness item.isSelected (some i) { s with drawn := s.drawn ++ [i] }
        if i % 2 = 1 then drawItems itemAt width height rounds (i+1) 22 (y+85) s
        else drawItems itemAt width height rounds (i+1) (x+85) y s

/-- What the three `draw*FromArray` functions share: `topIndex` is set to
`last`, the entries drawn are those below `bound`. -/
def drawListFromArray (itemAt : ℤ → Except Fault Item) (width height start last bound : ℤ)
    (s : Screen) : Except Fault Screen :=
  drawItems itemAt width height (bound-start).toNat start 22 56
    { s with topIndex := Entertainment.toUInt8 last, drawn := [] }

def drawPaginationButtons (counter : UInt8) (s : Screen) : Except Fault Screen := do
  let s := { s with buttonCount := 7 }
  let s ← if s.topIndex ≠ 4 then drawSquareWithBitmapInside 29 212 55 20 .drawPrevPage 1 s
    else pure s
  if s.topIndex < counter then drawSquareWithBitmapInside (55+29) 212 55 20 .drawNextPage 1 s
  else pure s

theorem addButton_ok {b : Button} {s t : Screen} (h : addButtonToArray b s = .ok t) :
    ∃ (c : ℕ) (hc : c < 30), s.buttonCount = c ∧
      t = { s with
        buttons := Function.update s.buttons ⟨c,hc⟩ b, buttonCount := s.buttonCount + 1 } := by
  obtain ⟨a,ha,h⟩ := bind_ok.mp h
  cases h
  obtain ⟨c,hc,hi,rfl⟩ := write_ok.mp ha
  exact ⟨c,hc,hi,rfl⟩

theorem addButton_at (b : Button) {s : Screen} (c : ℕ) (h : c < 30) (hc : s.buttonCount = c) :
    addButtonToArray b s = .ok { s with
      buttons := Function.update s.buttons ⟨c,h⟩ b, buttonCount := ((c+1:ℕ):ℤ) } := by
  rw [addButtonToArray, hc, write_inside s.buttons b _ c h]
  rfl

def leading (itemAt : ℤ → Except Fault Item) : ℕ → ℤ → ℕ
  | 0, _ => 0
  | rounds+1, i =>
      match itemAt i with
      | .ok item => if item.name = "" then 0 else leading itemAt rounds (i+1) + 1
      | .error _ => 0

theorem leading_le (itemAt : ℤ → Except Fault Item) (rounds : ℕ) (i : ℤ) :
    leading itemAt rounds i ≤ rounds := by
  induction rounds generalizing i with
  | zero => exact le_refl 0
  | succ rounds ih =>
    rw [leading]
    split
    · split
      · omega
      · exact Nat.succ_le_succ (ih (i+1))
    · omega

theorem le_leading {itemAt : ℤ → Except Fault Item} {rounds k : ℕ} {i : ℤ} (hk : k ≤ rounds)
    (hnamed : ∀ j : ℕ, j < k → ∃ item, itemAt (i+j) = .ok item ∧ item.name ≠ "") :
    k ≤ leading itemAt rounds i := by
  induction rounds generalizing i k with
  | zero => exact hk
  | succ rounds ih =>
    cases k with
    | zero => exact Nat.zero_le _
    | succ k =>
      obtain ⟨item,hi,hn⟩ := hnamed 0 (Nat.succ_pos k)
      rw [Nat.cast_zero, add_zero] at hi
      have hrest := ih (i := i+1) (Nat.le_of_succ_le_succ hk) fun j hj => by
        obtain ⟨item,hi,hn⟩ := hnamed (j+1) (Nat.succ_lt_succ hj)
        rw [Nat.cast_succ, add_comm (j:ℤ) 1, ← add_assoc] at hi
        exact ⟨item,hi,hn⟩
      simp only [leading, hi, if_neg hn]
      exact Nat.succ_le_succ hrest

theorem leading_stops {itemAt : ℤ → Except Fault Item} {rounds k : ℕ} {i : ℤ}
    (hstop : ∃ item, itemAt (i+k) = .ok item ∧ item.name = "") :
    leading itemAt rounds i ≤ k := by
  induction rounds generalizing i k with
  | zero => exact Nat.zero_le k
  | succ rounds ih =>
    obtain ⟨item,hi,hn⟩ := hstop
    cases k with
    | zero =>
      rw [Nat.cast_zero, add_zero] at hi
      simp only [leading, hi, if_pos hn, le_refl]
    | succ k =>
      rw [Nat.cast_succ, add_comm (k:ℤ) 1, ← add_assoc] at hi
      have hrest := ih (i := i+1) ⟨item,hi,hn⟩
      rw [leading]
      split
      · split
        · exact Nat.zero_le _
        · exact Nat.succ_le_succ hrest
      · exact Nat.zero_le _

structure ItemButton (itemAt : ℤ → Except Fault Item) (width height p : ℤ) (b : Button) :
    Prop where
  item : ∃ item, itemAt p = .ok item ∧ b.event = some item.event ∧ b.id = item.id ∧
    b.name = item.name
  width : b.width = width
  height : b.height = height
  position : b.position = some p

/-- The loop appends the buttons of its entries and leaves every other cell alone. -/
structure ItemsDrawn (itemAt : ℤ → Except Fault Item) (width height i y : ℤ) (c f : ℕ)
    (s t : Screen) : Prop where
  count : t.buttonCount = c+f
  drawn : t.drawn = s.drawn ++ (List.range f).map (fun j : ℕ => i+j)
  top : t.topIndex = s.topIndex
  page : t.currentPageOnScreen = s.currentPageOnScreen
  inside : ∀ k : Fin 30, c ≤ k.val → k.val < c+f →
    ItemButton itemAt width height (i+(k.val-c:ℕ)) (t.buttons k)
  rows : ∀ k : Fin 30, c ≤ k.val → k.val < c+f →
    (t.buttons k).y = y + 85*((i%2+(k.val-c:ℕ))/2)
  outside : ∀ k : Fin 30, k.val < c ∨ c+f ≤ k.val → t.buttons k = s.buttons k
  room : f ≠ 0 → c+f ≤ 30

structure ItemDrawn (itemAt : ℤ → Except Fault Item) (width height i y : ℤ) (c : ℕ)
    (s u : Screen) : Prop where
  room : c < 30
  count : u.buttonCount = ((c+1:ℕ):ℤ)
  drawn : u.drawn = s.drawn ++ [i]
  top : u.topIndex = s.topIndex
  page : u.currentPageOnScreen = s.currentPageOnScreen
  button : ItemButton itemAt width height i (u.buttons ⟨c,room⟩)
  row : (u.buttons ⟨c,room⟩).y = y
  outside : ∀ k : Fin 30, k.val ≠ c → u.buttons k = s.buttons k

theorem drawBitmap_item {itemAt : ℤ → Except Fault Item} {width height i x y : ℤ} {c : ℕ}
    {item : Item} {s u : Screen} (hc : s.buttonCount = c) (hitem : itemAt i = .ok item)
    (h : drawBitmap x y 0 0 width height item.name item.event item.id false item.on
      item.brightness item.isSelected (some i) { s with drawn := s.drawn ++ [i] } = .ok u) :
    ItemDrawn itemAt width height i y c s u := by
  obtain ⟨c',hc',hcc,rfl⟩ := addButton_ok h
  obtain rfl : c' = c := by
    have hcast : ((c':ℕ):ℤ) = c := hcc.symm.trans hc
    exact_mod_cast hcast
  refine ⟨hc',?_,rfl,rfl,rfl,?_,?_,fun k hk => ?_⟩
  · push_cast
    exact congrArg (· + 1) hcc
  · simp only [Function.update_self]
    exact ⟨⟨item,hitem,rfl,rfl,rfl⟩,by simp,by simp,rfl⟩
  · simp
  · exact Function.update_of_ne (fun he => hk (congrArg Fin.val he)) _ _

/-- An entry, and the entries after it. -/
theorem itemsDrawn_cons {itemAt : ℤ → Except Fault Item} {width height i y z : ℤ} {c f : ℕ}
    {s u t : Screen} (hfirst : ItemDrawn itemAt width height i y c s u)
    (hrest : ItemsDrawn itemAt width height (i+1) z (c+1) f u t)
    (hz : z = if i % 2 = 1 then y+85 else y) :
    ItemsDrawn itemAt width height i y c (f+1) s t := by
  have hroom := hfirst.room
  have hkept := hrest.outside ⟨c,hroom⟩ (Or.inl (Nat.lt_succ_self c))
  refine ⟨?_,?_,hrest.top.trans hfirst.top,hrest.page.trans hfirst.page,?_,?_,?_,?_⟩
  · rw [hrest.count]
    push_cast
    ring
  · rw [hrest.drawn, hfirst.drawn, List.range_succ_eq_map]
    simp only [List.map_cons, List.map_map, Nat.cast_zero, add_zero, List.append_assoc,
      List.singleton_append]
    congr 2
    apply List.map_congr_left
    intro j _
    simp only [Function.comp_apply, Nat.succ_eq_add_one]
    push_cast
    ring
  · intro k h1 h2
    by_cases hk : k.val = c
    · obtain rfl : k = ⟨c,hroom⟩ := Fin.ext hk
      rw [hkept]
      simpa using hfirst.button
    · have hbutton := hrest.inside k (by omega) (by omega)
      have he : i+1+((k.val-(c+1):ℕ):ℤ) = i+((k.val-c:ℕ):ℤ) := by omega
      rw [he] at hbutton
      exact hbutton
  · intro k h1 h2
    by_cases hk : k.val = c
    · obtain rfl : k = ⟨c,hroom⟩ := Fin.ext hk
      rw [hkept, hfirst.row]
      simp only [Nat.sub_self]
      omega
    · rw [hrest.rows k (by omega) (by omega), hz]
      split <;> omega
  · intro k hk
    rw [hrest.outside k (by omega)]
    exact hfirst.outside k (by omega)
  · intro _
    by_cases hf : f = 0
    · omega
    · have hfits := hrest.room hf
      omega

theorem drawItems_ok {itemAt : ℤ → Except Fault Item} {width height : ℤ} {rounds : ℕ}
    {i x y : ℤ} {c : ℕ} {s t : Screen} (hc : s.buttonCount = c)
    (h : drawItems itemAt width height rounds i x y s = .ok t) :
    ItemsDrawn itemAt width height i y c (leading itemAt rounds i) s t := by
  -- nothing is drawn at the end of the loop and from the first entry without a name on
  have hnone : ∀ {i y : ℤ} {c : ℕ} {s : Screen}, s.buttonCount = c →
      ItemsDrawn itemAt width height i y c 0 s s := fun hc =>
    ⟨by simp [hc],by simp,rfl,rfl,fun k h1 h2 => by omega,fun k h1 h2 => by omega,
      fun _ _ => rfl,by simp⟩
  induction rounds generalizing i x y c s with
  | zero =>
    cases h
    exact hnone hc
  | succ rounds ih =>
    obtain ⟨item,hitem,h⟩ := bind_ok.mp h
    by_cases hn : item.name = ""
    · rw [if_pos hn] at h
      cases h
      have hl : leading itemAt (rounds+1) i = 0 := by simp [leading, hitem, hn]
      rw [hl]
      exact hnone hc
    · rw [if_neg hn] at h
      obtain ⟨u,hu,h⟩ := bind_ok.mp h
      have hfirst := drawBitmap_item hc hitem hu
      have hl : leading itemAt (rounds+1) i = leading itemAt rounds (i+1) + 1 := by
        simp [leading, hitem, hn]
      rw [hl]
      split at h
      · next hi => exact itemsDrawn_cons hfirst (ih hfirst.count h) (if_pos hi).symm
      · next hi => exact itemsDrawn_cons hfirst (ih hfirst.count h) (if_neg hi).symm

theorem drawItems_fits {itemAt : ℤ → Except Fault Item} {width height : ℤ} {rounds : ℕ}
    {i x y : ℤ} {c : ℕ} {s : Screen} (hc : s.buttonCount = c) (hroom : c+rounds ≤ 30)
    (hread : ∀ j : ℕ, j < rounds → ∃ item, itemAt (i+j) = .ok item) :
    ∃ t, drawItems itemAt width height rounds i x y s = .ok t := by
  induction rounds generalizing i x y c s with
  | zero => exact ⟨s,rfl⟩
  | succ rounds ih =>
    obtain ⟨item,hitem⟩ := hread 0 (by omega)
    rw [Nat.cast_zero, add_zero] at hitem
    have hrest : ∀ j : ℕ, j < rounds → ∃ item, itemAt (i+1+j) = .ok item := by
      intro j hj
      have := hread (j+1) (by omega)
      rwa [Nat.cast_succ, add_comm (j:ℤ) 1, ← add_assoc] at this
    by_cases hn : item.name = ""
    · exact ⟨s,bind_ok.mpr ⟨item,hitem,if_pos hn⟩⟩
    · obtain ⟨u,hu,hcu⟩ : ∃ u, drawBitmap x y 0 0 width height item.name item.event item.id false
          item.on item.brightness item.isSelected (some i) { s with drawn := s.drawn ++ [i] } =
            .ok u ∧ u.buttonCount = ((c+1:ℕ):ℤ) := ⟨_,addButton_at _ c (by omega) hc,rfl⟩
      by_cases hi : i % 2 = 1
      · obtain ⟨t,ht⟩ := ih (i := i+1) (x := 22) (y := y+85) hcu (by omega) hrest
        exact ⟨t,bind_ok.mpr ⟨item,hitem,(if_neg hn).trans
          (bind_ok.mpr ⟨u,hu,(if_pos hi).trans ht⟩)⟩⟩
      · obtain ⟨t,ht⟩ := ih (i := i+1) (x := x+85) (y := y) hcu (by omega) hrest
        exact ⟨t,bind_ok.mpr ⟨item,hitem,(if_neg hn).trans
          (bind_ok.mpr ⟨u,hu,(if_neg hi).trans ht⟩)⟩⟩

theorem drawItems_stop {itemAt : ℤ → Except Fault Item} {width height : ℤ} {rounds : ℕ}
    {i x y : ℤ} {s t : Screen} (h : drawItems itemAt width height rounds i x y s = .ok t)
    (hl : leading itemAt rounds i < rounds) :
    ∃ item, itemAt (i+leading itemAt rounds i) = .ok item ∧ item.name = "" := by
  induction rounds generalizing i x y s with
  | zero => omega
  | succ rounds ih =>
    obtain ⟨item,hitem,h⟩ := bind_ok.mp h
    by_cases hn : item.name = ""
    · refine ⟨item,?_,hn⟩
      simp [leading, hitem, hn]
    · rw [if_neg hn] at h
      obtain ⟨u,-,h⟩ := bind_ok.mp h
      have he : leading itemAt (rounds+1) i = leading itemAt rounds (i+1) + 1 := by
        simp [leading, hitem, hn]
      rw [he, show i+((leading itemAt rounds (i+1) + 1 : ℕ):ℤ) =
        i+1+leading itemAt rounds (i+1) by push_cast; ring]
      split at h <;> exact ih h (by omega)

theorem drawListFromArray_ok {itemAt : ℤ → Except Fault Item} {width height start last bound : ℤ}
    {c : ℕ} {s t : Screen} (hc : s.buttonCount = c)
    (h : drawListFromArray itemAt width height start last bound s = .ok t) :
    ItemsDrawn itemAt width height start 56 c (leading itemAt (bound-start).toNat start)
      { s with topIndex := Entertainment.toUInt8 last, drawn := [] } t :=
  drawItems_ok hc h

/-- The pagination row keeps the buttons below index 7 and adds one for each direction offered. -/
structure Paginated (counter : UInt8) (s t : Screen) : Prop where
  count : 7 ≤ t.buttonCount ∧ t.buttonCount ≤ 9
  drawn : t.drawn = s.drawn
  top : t.topIndex = s.topIndex
  page : t.currentPageOnScreen = s.currentPageOnScreen
  below : ∀ k : Fin 30, k.val < 7 → t.buttons k = s.buttons k
  beyond : ∀ k : Fin 30, t.buttonCount ≤ k.val → t.buttons k = s.buttons k
  turns : ∀ k : Fin 30, 7 ≤ k.val → (k.val:ℤ) < t.buttonCount →
    ((t.buttons k).event = some .drawPrevPage ∧ s.topIndex ≠ 4) ∨
      ((t.buttons k).event = some .drawNextPage ∧ s.topIndex < counter)
  next : s.topIndex < counter → ∃ k : Fin 30, (k.val:ℤ) < t.buttonCount ∧
    (t.buttons k).event = some .drawNextPage ∧ inside 111 222 (t.buttons k) = true ∧
    ∀ j < k, 7 ≤ j.val → inside 111 222 (t.buttons j) = false

def arrow (x : ℤ) (event : Event) : Button :=
  { x := x, y := 212, width := 55, height := 20, event := some event, id := 1, name := " " }

theorem drawPaginationButtons_eq (counter : UInt8) (s : Screen) :
    drawPaginationButtons counter s = .ok
      (if s.topIndex ≠ 4 then
        if s.topIndex < counter then
          { s with
            buttons := Function.update (Function.update s.buttons 7 (arrow 29 .drawPrevPage)) 8
              (arrow 84 .drawNextPage)
            buttonCount := 9 }
        else { s with
          buttons := Function.update s.buttons 7 (arrow 29 .drawPrevPage), buttonCount := 8 }
      else if s.topIndex < counter then
        { s with
          buttons := Function.update s.buttons 7 (arrow 84 .drawNextPage), buttonCount := 8 }
      else { s with buttonCount := 7 }) := by
  have hprev := addButton_at (arrow 29 .drawPrevPage) (s := { s with buttonCount := 7 }) 7
    (by omega) rfl
  have hnext := fun u : Screen => addButton_at (arrow 84 .drawNextPage) (s := u)
  by_cases h4 : s.topIndex ≠ 4
  · by_cases hn : s.topIndex < counter
    · rw [if_pos h4, if_pos hn, drawPaginationButtons]
      refine (if_pos h4).trans (bind_ok.mpr ⟨_,hprev,?_⟩)
      exact (if_pos hn).trans (hnext _ 8 (by omega) rfl)
    · rw [if_pos h4, if_neg hn, drawPaginationButtons]
      exact (if_pos h4).trans (bind_ok.mpr ⟨_,hprev,if_neg hn⟩)
  · by_cases hn : s.topIndex < counter
    · rw [if_neg h4, if_pos hn, drawPaginationButtons]
      refine (if_neg h4).trans (bind_ok.mpr ⟨_,rfl,?_⟩)
      exact (if_pos hn).trans (hnext _ 7 (by omega) rfl)
    · rw [if_neg h4, if_neg hn, drawPaginationButtons]
      exact (if_neg h4).trans (bind_ok.mpr ⟨_,rfl,if_neg hn⟩)

theorem drawPaginationButtons_ok {counter : UInt8} {s t : Screen}
    (h : drawPaginationButtons counter s = .ok t) : Paginated counter s t := by
  rw [drawPaginationButtons_eq] at h
  obtain rfl := Except.ok.inj h
  clear h
  by_cases h4 : s.topIndex ≠ 4
  · by_cases hn : s.topIndex < counter
    · rw [if_pos h4, if_pos hn]
      refine ⟨⟨by simp,by simp⟩,rfl,rfl,rfl,fun k hk => ?_,fun k hk => ?_,fun k h7 h9 => ?_,
        fun _ => ?_⟩
      · exact (Function.update_of_ne (by omega) _ _).trans (Function.update_of_ne (by omega) _ _)
      · simp only at hk
        exact (Function.update_of_ne (by omega) _ _).trans (Function.update_of_ne (by omega) _ _)
      · simp only at h9
        obtain h | h : k = 7 ∨ k = 8 := by omega
        · subst h
          exact Or.inl ⟨rfl,h4⟩
        · subst h
          exact Or.inr ⟨rfl,hn⟩
      · refine ⟨8,by simp,rfl,rfl,fun j hj h7 => ?_⟩
        obtain rfl : j = 7 := by omega
        rfl
    · rw [if_pos h4, if_neg hn]
      refine ⟨⟨by simp,by simp⟩,rfl,rfl,rfl,fun k hk => ?_,fun k hk => ?_,fun k h7 h8 => ?_,
        fun h => absurd h hn⟩
      · exact Function.update_of_ne (by omega) _ _
      · simp only at hk
        exact Function.update_of_ne (by omega) _ _
      · simp only at h8
        obtain rfl : k = 7 := by omega
        exact Or.inl ⟨rfl,h4⟩
  · by_cases hn : s.topIndex < counter
    · rw [if_neg h4, if_pos hn]
      refine ⟨⟨by simp,by simp⟩,rfl,rfl,rfl,fun k hk => ?_,fun k hk => ?_,fun k h7 h8 => ?_,
        fun _ => ?_⟩
      · exact Function.update_of_ne (by omega) _ _
      · simp only at hk
        exact Function.update_of_ne (by omega) _ _
      · simp only at h8
        obtain rfl : k = 7 := by omega
        exact Or.inr ⟨rfl,hn⟩
      · exact ⟨7,by simp,rfl,rfl,fun j hj h7 => by omega⟩
    · rw [if_neg h4, if_neg hn]
      exact ⟨⟨by simp,by simp⟩,rfl,rfl,rfl,fun _ _ => rfl,fun _ _ => rfl,
        fun k h7 h8 => by simp only at h8; omega,fun h => absurd h hn⟩

end THue.TouchScreen
