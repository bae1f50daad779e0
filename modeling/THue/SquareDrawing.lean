import THue.TextOutput
import THue.TouchScreen

/-!
# Squares with a caption

A square is filled, may have a border, and carries a caption in the other
colour, with its middle in the middle of the square. It is also a button, and
the button has the corner and the sides of the square: a caption that fits is
where the square is pressed.
-/

set_option autoImplicit false

namespace THue.SquareDrawing
open THue.Pictures THue.PanelBuffer THue.GfxShapes THue.PanelDrawing THue.TextOutput

def bytesOf (text : String) : List UInt8 := text.toUTF8.data.toList

def textColor (color : UInt16) : UInt16 := if color = EPD_BLACK then EPD_WHITE else EPD_BLACK

/-- Half of what the text measures left of the middle, and 5 under it. -/
def captionCursor (t : Settings) (x y width height : ℤ) (text : List UInt8) : Cursor :=
  ⟨x+width.tdiv 2-(getTextBounds t text x y).w/2,y+height.tdiv 2+5⟩

def caption (t : Settings) (x y width height : ℤ) (text : List UInt8) : List (ℤ × ℤ) :=
  (print t (captionCursor t x y width height text) text).2

def drawSquare (t : Settings) (x y width height radius : ℤ) (color : UInt16) (text : List UInt8)
    (bordered : Bool) (borderColor : UInt16) : List Pixel :=
  plot (fillRoundRect x y width height radius) color ++
    ((if bordered then plot (drawRoundRect x y width height radius) borderColor else []) ++
      plot (caption t x y width height text) (textColor color))

/-- A square and a caption so small that their numbers keep in 16 bits. -/
structure Small (t : Settings) (x y width height : ℤ) (text : List UInt8) : Prop where
  place : |x| ≤ 2^12 ∧ |y| ≤ 2^12
  wide : 0 < width ∧ width ≤ 2^12
  high : 0 < height ∧ height ≤ 2^12
  text : 256*t.textsize*(text.length+2) ≤ (2^13 : ℤ)

theorem small_words {t : Settings} (hsize : 0 < t.textsize) (hdisplay : 0 ≤ t.width ∧ 0 ≤ t.height)
    {x y width height : ℤ} {text : List UInt8} (hzero : 0 ∉ text)
    (h : Small t x y width height text) : InWords t ⟨x,y⟩ text.length ∧
      InWords t (captionCursor t x y width height text) text.length := by
  obtain ⟨⟨hx,hy⟩,hwide,hhigh,htext⟩ := h
  obtain ⟨⟨-,-,hw⟩,-⟩ := box_words hsize hdisplay hzero ⟨x,y⟩ htext
  have hw0 := getTextBounds_nonneg t text x y
  dsimp only at hw
  refine ⟨⟨by dsimp only; omega,by dsimp only; omega⟩,?_⟩
  have hleft := abs_le.mp hx
  have htop := abs_le.mp hy
  have hmiddle := Int.tdiv_eq_ediv_of_nonneg (b := 2) hwide.1.le
  have hcentre := Int.tdiv_eq_ediv_of_nonneg (b := 2) hhigh.1.le
  have hx' : |(captionCursor t x y width height text).x| ≤ 2^14+2^12 := by
    rw [captionCursor, abs_le]
    dsimp only
    omega
  have hy' : |(captionCursor t x y width height text).y| ≤ 2^13 := by
    rw [captionCursor, abs_le]
    dsimp only
    omega
  exact ⟨by omega,by omega⟩

/-- A square with sharp corners on a display in any rotation: the caption over the border over the
square, and nothing else. -/
theorem square_drawn {t : Settings} {x y width height : ℤ} {text : List UInt8}
    (h : Small t x y width height text) (color : UInt16) (bordered : Bool) (borderColor : UInt16)
    (d : Display) {q : ℤ × ℤ} (hq : Inside d.rotation q.1 q.2) :
    picture (drawAll (drawSquare t x y width height 0 color text bordered borderColor) d) q =
      if q ∈ caption t x y width height text then decide (color ≠ EPD_BLACK)
      else if bordered = true ∧ q ∈ area x y width height ∧
          q ∉ area (x+1) (y+1) (width-2) (height-2) then decide (borderColor = EPD_BLACK)
      else if q ∈ area x y width height then decide (color = EPD_BLACK)
      else picture d q := by
  have hw := h.wide.1
  have hh := h.high.1
  have hborder : q ∈ drawRoundRect x y width height 0 ↔ q ∈ area x y width height ∧
      q ∉ area (x+1) (y+1) (width-2) (height-2) := by
    rw [drawRoundRect_zero hw.le hh.le, mem_drawRect hw hh, Set.mem_sdiff]
  have hfill : q ∈ fillRoundRect x y width height 0 ↔ q ∈ area x y width height := by
    rw [fillRoundRect_zero hw.le hh.le, mem_fillRect hh]
  have hcolor : decide (textColor color = EPD_BLACK) = decide (color ≠ EPD_BLACK) := by
    rw [textColor]
    split
    · next h => simp [h, EPD_BLACK, EPD_WHITE]
    · next h => simp [h]
  have hsquare := picture_shape (fillRoundRect x y width height 0) color hq
  rw [if_congr hfill rfl rfl] at hsquare
  rw [drawSquare, drawAll_append, drawAll_append,
    picture_shape _ _ (by rwa [drawAll_rotation, drawAll_rotation]), hcolor]
  refine if_congr Iff.rfl rfl ?_
  cases bordered with
  | false => simpa [drawAll] using hsquare
  | true =>
    rw [if_pos rfl, picture_shape _ _ (by rwa [drawAll_rotation]), hsquare]
    exact if_congr (hborder.trans (and_iff_right rfl).symm) rfl rfl

theorem stop_small : Small pageText 88 184 74 40 (bytesOf "STOP") :=
  ⟨by decide,by decide,by decide,by decide⟩

/-- The caption of a black square, and its border. -/
theorem stop_drawn : picture (drawAll (drawSquare pageText 88 184 74 40 0 EPD_BLACK (bytesOf "STOP")
      true EPD_BLACK) { rotation := 2, buffer := fun _ => 0 }) (114,202) = false ∧
    picture (drawAll (drawSquare pageText 88 184 74 40 0 EPD_BLACK (bytesOf "STOP")
      true EPD_BLACK) { rotation := 2, buffer := fun _ => 0 }) (88,190) = true := by
  rw [square_drawn stop_small EPD_BLACK true EPD_BLACK _ (by decide),
    square_drawn stop_small EPD_BLACK true EPD_BLACK _ (by decide)]
  decide +kernel

def captionShift (t : Settings) (x y width : ℤ) (text : List UInt8) : ℤ :=
  width.tdiv 2-(getTextBounds t text x y).w/2

/-- A caption whose letters take one line and, moved to the middle by what the text measures, stay
off the border of the square. -/
structure Fits (t : Settings) (x y width height : ℤ) (text : List UInt8) : Prop where
  small : Small t x y width height text
  zero : 0 ∉ text
  line : (textBounds t ⟨x,y⟩ (printed text)).cursor.y = y
  left : x < (textBounds t ⟨x,y⟩ (printed text)).minx+captionShift t x y width text
  right : (textBounds t ⟨x,y⟩ (printed text)).maxx+captionShift t x y width text < x+width-1
  top : y < (textBounds t ⟨x,y⟩ (printed text)).miny+(height.tdiv 2+5)
  bottom : (textBounds t ⟨x,y⟩ (printed text)).maxy+(height.tdiv 2+5) < y+height-1
  room : x+width ≤ t.width

end THue.SquareDrawing
