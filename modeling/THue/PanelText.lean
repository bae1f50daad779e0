import THue.SquareDrawing
import THue.PanelPicture

/-!
# What the panel shows of a text

A text is drawn with the cursor on its base line, moved left by half of its
width to centre it, and sent with a window around it. The window of a centred
text is moved a second time, and reaches as far to the right as twice its
width allows: a text that is too wide for it is drawn and not shown.
-/

set_option autoImplicit false

namespace THue.PanelText
open THue.Pictures THue.PanelBuffer THue.GfxShapes THue.PanelDrawing THue.OutputRuns
open THue.PanelDriver THue.PanelWindow THue.PanelPicture THue.TextOutput
open THue.SquareDrawing (bytesOf)

/-- A size of 0 is one of 1. -/
def setTextSize (size : UInt8) (t : Settings) : Settings :=
  { t with textsize := if 0 < size.toNat then size.toNat else 1 }

def println (t : Settings) (k : Cursor) (text : List UInt8) : Cursor × List (ℤ × ℤ) :=
  let (k,ps) := print t k text
  ((write t k 10).1,ps ++ (write t k 10).2)

def textCursor (x y : ℤ) (box : Box) (center : Bool) : Cursor :=
  ⟨if center then x-box.w/2 else x,y⟩

def textWindow (k : Cursor) (box : Box) (center : Bool) : Call :=
  if center then
    .updateWindow (UInt16.ofInt (k.x-box.w/2-5)) (UInt16.ofInt (k.y-box.h/2-5))
      (UInt16.ofInt (box.w*2+5)) (UInt16.ofInt (box.h+5)) true
  else
    .updateWindow (UInt16.ofInt (k.x-5)) (UInt16.ofInt (k.y-box.h/2-5)) (UInt16.ofInt (box.w+10))
      (UInt16.ofInt (box.h+5)) true

def drawText (t : Settings) (x y : ℤ) (size : UInt8) (text : List UInt8) (textColor : UInt16)
    (center : Bool) : List Call :=
  let t := setTextSize size t
  let box := getTextBounds t text x y
  let k := textCursor x y box center
  [.draw (plot (println t k text).2 textColor),textWindow k box center]

def textPoints (t : Settings) (x y : ℤ) (size : UInt8) (text : List UInt8) (center : Bool) :
    List (ℤ × ℤ) :=
  (println (setTextSize size t)
    (textCursor x y (getTextBounds (setTextSize size t) text x y) center) text).2

def textArea (x y : ℤ) (box : Box) (center : Bool) : Set (ℤ × ℤ) :=
  if center then windowed (x-box.w/2-box.w/2-5) (y-box.h/2-5) (box.w*2+5) (box.h+5)
  else windowed (x-5) (y-box.h/2-5) (box.w+10) (box.h+5)

instance textArea_decidable (x y : ℤ) (box : Box) (center : Bool) (q : ℤ × ℤ) :
    Decidable (q ∈ textArea x y box center) := by
  cases center <;> exact inferInstanceAs (Decidable (q ∈ windowed _ _ _ _))

def reach (x : ℤ) (box : Box) (center : Bool) : ℤ :=
  if center then x-box.w/2-box.w/2+box.w*2 else x+box.w+5

/-- The window of the text stays on the display, and the row is in it. -/
def Reached (x y : ℤ) (box : Box) (center : Bool) (row : ℤ) : Prop :=
  reach x box center < 176 ∧ y-box.h/2+box.h < 264 ∧ y-box.h/2-5 < row ∧ row ≤ y-box.h/2+box.h

/-- What a text measures where it is drawn. The place and the sides are small, and all the numbers
of its letters keep in 16 bits. -/
structure Placed (t : Settings) (x y : ℤ) (size : UInt8) (text : List UInt8) (box : Box) :
    Prop where
  measured : getTextBounds (setTextSize size t) text x y = box
  place : (0 ≤ x ∧ x < 1000) ∧ 0 ≤ y ∧ y < 1000
  wide : 0 ≤ box.w ∧ box.w < 1000
  high : 0 ≤ box.h ∧ box.h < 1000
  short : 256*(setTextSize size t).textsize*(text.length+2) ≤ (2^13 : ℤ)

theorem ofInt_toNat (z : ℤ) : (UInt16.ofInt z).toNat = (z%65536).toNat := by
  rw [UInt16.ofInt, UInt16.toNat_ofNat']
  omega

theorem signed_ofInt {z : ℤ} (h : -32768 ≤ z ∧ z < 32768) : signed (UInt16.ofInt z) = z := by
  rw [signed, ofInt_toNat]
  split <;> omega

theorem glass_once (d : Display) (ps : List Pixel) {c : Call} (g : Glass) (q : ℤ × ℤ) :
    glass d [.draw ps,c] g q = refreshed (shownPoints c) (picture (drawAll ps d)) g q := by
  classical
  rw [glass, glass, glass]
  refine if_congr Iff.rfl rfl ?_
  exact refreshed_out (Set.notMem_empty q)

section Lines
variable {t : Settings} {x y : ℤ} {size : UInt8} {text : List UInt8} {box letters : Box}

theorem textWindow_sent {center : Bool} (h : Placed t x y size text box) :
    shownPoints (textWindow (textCursor x y box center) box center) = textArea x y box center := by
  obtain ⟨-,⟨hx,hy⟩,hw,hh,-⟩ := h
  cases center
  · simp only [Bool.false_eq_true, if_false, textCursor, textWindow, textArea, shownPoints]
    rw [signed_ofInt (by omega), signed_ofInt (by omega), ofInt_toNat, ofInt_toNat]
    congr 1 <;> omega
  · simp only [if_true, textCursor, textWindow, textArea, shownPoints]
    rw [signed_ofInt (by omega), signed_ofInt (by omega), ofInt_toNat, ofInt_toNat]
    congr 1 <;> omega

theorem textWindow_proper {center : Bool} (h : Placed t x y size text box) :
    Proper (textWindow (textCursor x y box center) box center) := by
  obtain ⟨-,-,hw,hh,-⟩ := h
  rw [textWindow]
  split <;> refine ⟨rfl,?_,?_⟩ <;> rw [ofInt_toNat] <;> omega

theorem drawText_held {center : Bool} (ram : Ram) (st : Store) {p : Panel} (hp : p.rotation = 2)
    (color : UInt16)
    (h : Placed t x y size text box) {q : ℤ × ℤ} (hin : Inside 2 q.1 q.2) :
    held 2 (received ram st (run step p (drawText t x y size text color center)).2) q =
      refreshed (textArea x y box center)
        (picture (drawAll (plot (textPoints t x y size text center) color) p.toDisplay))
        (held 2 st) q := by
  have hproper : ∀ c ∈ drawText t x y size text color center, Proper c := by
    rw [drawText, h.measured]
    simp only [List.mem_cons, List.not_mem_nil, or_false, forall_eq_or_imp, forall_eq]
    exact ⟨trivial,textWindow_proper h⟩
  rw [run_shows ram hproper hp hin rfl, drawText, glass_once, textPoints, h.measured,
    textWindow_sent h]

theorem drawText_display (p : Panel) (color : UInt16) (center : Bool)
    (h : Placed t x y size text box) :
    (run step p (drawText t x y size text color center)).1.toDisplay =
      drawAll (plot (textPoints t x y size text center) color) p.toDisplay := by
  have hwindow : ∀ (k : Cursor) (p : Panel),
      (step p (textWindow k box center)).1.toDisplay = p.toDisplay := by
    intro k p
    rw [step_display, textWindow]
    split <;> rfl
  rw [drawText, textPoints, h.measured, run, run]
  exact hwindow _ _

/-- A text that is drawn over in white and replaced by another at its place: the panel shows the
points of the new one in black and the others of the old one in white, as far as each is sent. -/
theorem text_replaced (ram : Ram) (st : Store) {p : Panel} (hp : p.rotation = 2)
    (h : Placed t x y size text box) {text' : List UInt8} {box' : Box}
    (h' : Placed t x y size text' box') (center : Bool) {q : ℤ × ℤ} (hin : Inside 2 q.1 q.2) :
    let shown := held 2 (received ram st (run step p (drawText t x y size text EPD_WHITE center ++
      drawText t x y size text' EPD_BLACK center)).2) q
    (q ∈ textPoints t x y size text' center → q ∈ textArea x y box' center →
        shown = some true) ∧
      (q ∈ textPoints t x y size text center → q ∉ textPoints t x y size text' center →
        q ∈ textArea x y box center → shown = some false) := by
  classical
  have hdisplay := drawText_display p EPD_WHITE center h
  have hp' : (run step p (drawText t x y size text EPD_WHITE center)).1.rotation = 2 := by
    rw [hdisplay, drawAll_rotation]
    exact hp
  have hold := picture_shape (textPoints t x y size text center) EPD_WHITE (d := p.toDisplay)
    (by rwa [hp])
  have hnew := picture_shape (textPoints t x y size text' center) EPD_BLACK
    (d := (run step p (drawText t x y size text EPD_WHITE center)).1.toDisplay) (by rwa [hp'])
  dsimp only
  rw [run_append, received_append, drawText_held ram _ hp' EPD_BLACK h' hin]
  constructor
  · intro hq hsent
    rw [if_pos hq] at hnew
    rw [refreshed_in hsent, hnew]
    rfl
  · intro hq hnot hsent
    have hfirst : picture (run step p (drawText t x y size text EPD_WHITE center)).1.toDisplay q =
        decide (EPD_WHITE = EPD_BLACK) := by
      rw [hdisplay, hold, if_pos hq]
    rw [refreshed, hnew, if_neg hnot, hfirst]
    split
    · rfl
    · rw [drawText_held ram st hp EPD_WHITE h hin, refreshed_in hsent, hold, if_pos hq]
      rfl

/-- A count of ten that becomes nine: the last letter moves, and its old place is cleared. -/
theorem figure_cleared : held 2 (received .new (fun _ => none)
    (run step { rotation := 2, buffer := fun _ => 0 }
      (drawText pageText 14 169 1 (bytesOf "10 gange") EPD_WHITE false ++
        drawText pageText 14 169 1 (bytesOf "9 gange") EPD_BLACK false)).2) (64,165) =
    some false := by
  have h : Placed pageText 14 169 1 (bytesOf "10 gange") ⟨14,162,55,10⟩ :=
    ⟨by decide +kernel,by decide,by decide,by decide,by decide +kernel⟩
  have h' : Placed pageText 14 169 1 (bytesOf "9 gange") ⟨14,162,48,10⟩ :=
    ⟨by decide +kernel,by decide,by decide,by decide,by decide +kernel⟩
  exact (text_replaced .new _ rfl h h' false (by decide)).2 (by decide +kernel)
    (by decide +kernel) (by decide)

end Lines

end THue.PanelText
