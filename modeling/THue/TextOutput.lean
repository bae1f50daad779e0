import THue.PanelDrawing
import THue.OutputRuns
import THue.Fonts
import Mathlib.Data.List.TakeWhile

/-!
# Text on the display

`print` takes the lead bytes out of a text and writes each other byte as a
glyph, from a cursor that wraps at the right edge. `getTextBounds` moves a
cursor of its own over the same glyphs and keeps the box of what it passes. It
measures the bytes as they are, so the two agree where `print` changes none.
-/

set_option autoImplicit false

namespace THue.TextOutput
open THue.PanelBuffer THue.GfxShapes THue.PanelDrawing THue.Fonts

def _unicodeEasy (c : UInt8) : UInt8 := if c < 191 ∧ 131 < c ∧ c ≠ 176 then c+64 else c

/-- The bytes that `print` writes; 194 and 195 start a letter of two bytes. -/
def printed (text : List UInt8) : List UInt8 :=
  (text.filter fun c => ¬(c = 195 ∨ c = 194)).map _unicodeEasy

/-- A letter of Latin-1 in UTF-8. -/
def utf8 (c : UInt8) : List UInt8 := 
  if c < 128 then [c] else [(0xC0 : UInt8) ||| (c >>> 6),(0x80 : UInt8) ||| (c &&& 0x3F)]

/-- The letters that a glyph of the same number is written for. -/
def Written (c : UInt8) : Prop :=
  c ≤ 131 ∨ c = 176 ∨ c = 191 ∨ 196 ≤ c ∧ c ≤ 254 ∧ c ≠ 240

instance written_decidable : DecidablePred Written := fun _ => inferInstanceAs (Decidable (_ ∨ _))

theorem printed_append (text text' : List UInt8) :
    printed (text++text') = printed text ++ printed text' := by
  rw [printed, List.filter_append, List.map_append]
  rfl

theorem printed_utf8 (c : UInt8) : ∃ d, printed (utf8 c) = [d] ∧ (d = c ↔ Written c) := by
  have hall : ∀ n : Fin 256, (printed (utf8 (UInt8.ofNat n))).length = 1 ∧
      (printed (utf8 (UInt8.ofNat n)) = [UInt8.ofNat n] ↔ Written (UInt8.ofNat n)) := by
    decide +kernel
  obtain ⟨hlength,hiff⟩ := hall ⟨c.toNat,c.toNat_lt⟩
  dsimp only at hlength hiff
  rw [UInt8.ofNat_toNat] at hlength hiff
  obtain ⟨d,hd⟩ := List.length_eq_one_iff.mp hlength
  refine ⟨d,hd,?_⟩
  rw [← hiff, hd, List.singleton_inj]

/-- A text of Latin-1 is written with its own numbers, one glyph for each letter, exactly if it
has none of the letters from 132 to 195 but the degree sign and the question mark upside down,
and none of ð and ÿ. -/
theorem latin_printed (s : List UInt8) : (printed (s.flatMap utf8)).length = s.length ∧
    (printed (s.flatMap utf8) = s ↔ ∀ c ∈ s, Written c) := by
  induction s with
  | nil => exact ⟨rfl,iff_of_true rfl fun _ h => absurd h List.not_mem_nil⟩
  | cons c s ih =>
    obtain ⟨d,hd,hiff⟩ := printed_utf8 c
    rw [List.flatMap_cons, printed_append, hd]
    refine ⟨by simp [ih.1],?_⟩
    rw [List.singleton_append, List.cons_eq_cons, hiff, ih.2, List.forall_mem_cons]

/-- The font and the size of the text, and the display. -/
structure Settings where
  font : Font
  textsize : ℕ := 1
  wrap : Bool := true
  width : ℤ
  height : ℤ

structure Cursor where
  x : ℤ
  y : ℤ
  deriving DecidableEq, Repr

def glyphOf (f : Font) (c : UInt8) : Option Glyph :=
  if f.first ≤ c ∧ c ≤ f.last then some (f.glyph (c.toNat-f.first.toNat)) else none

def newLine (t : Settings) (k : Cursor) : Cursor := ⟨0,k.y+t.textsize*t.font.yAdvance⟩

def wrapped (t : Settings) (g : Glyph) (k : Cursor) : Cursor :=
  if t.wrap = true ∧ t.width < k.x+t.textsize*(g.xOffset+g.width) then newLine t k else k

def advanced (t : Settings) (g : Glyph) (k : Cursor) : Cursor :=
  { k with x := k.x+t.textsize*g.xAdvance }

def dot (size : ℕ) (x y : ℤ) : List (ℤ × ℤ) := if size = 1 then [(x,y)] else fillRect x y size size

def drawChar (t : Settings) (g : Glyph) (k : Cursor) : List (ℤ × ℤ) :=
  (bitsFrom t.font.bitmap g.bitmapOffset (g.width*g.height) 0 0).flatMap fun b =>
    if b.2 then dot t.textsize (k.x+(g.xOffset+(b.1%g.width : ℕ))*t.textsize)
      (k.y+(g.yOffset+(b.1/g.width : ℕ))*t.textsize)
    else []

def write (t : Settings) (k : Cursor) (c : UInt8) : Cursor × List (ℤ × ℤ) :=
  if c = 10 then (newLine t k,[])
  else if c = 13 then (k,[])
  else match glyphOf t.font c with
    | none => (k,[])
    | some g =>
        if 0 < g.width ∧ 0 < g.height then
          (advanced t g (wrapped t g k),drawChar t g (wrapped t g k))
        else (advanced t g k,[])

/-- What `getTextBounds` keeps: a cursor and the box so far. -/
structure Bounds where
  cursor : Cursor
  minx : ℤ
  miny : ℤ
  maxx : ℤ
  maxy : ℤ

def charBounds (t : Settings) (b : Bounds) (c : UInt8) : Bounds :=
  if c = 10 then { b with cursor := newLine t b.cursor }
  else if c = 13 then b
  else match glyphOf t.font c with
    | none => b
    | some g =>
        let k := wrapped t g b.cursor
        let x1 := k.x+g.xOffset*t.textsize
        let y1 := k.y+g.yOffset*t.textsize
        let x2 := x1+g.width*t.textsize-1
        let y2 := y1+g.height*t.textsize-1
        { cursor := advanced t g k
          minx := if x1 < b.minx then x1 else b.minx
          miny := if y1 < b.miny then y1 else b.miny
          maxx := if b.maxx < x2 then x2 else b.maxx
          maxy := if b.maxy < y2 then y2 else b.maxy }

def startBounds (t : Settings) (k : Cursor) : Bounds :=
  { cursor := k, minx := t.width, miny := t.height, maxx := -1, maxy := -1 }

def textBounds (t : Settings) (k : Cursor) (text : List UInt8) : Bounds :=
  (text.takeWhile (· ≠ 0)).foldl (charBounds t) (startBounds t k)

/-- The corner and the sides of a text. -/
structure Box where
  x1 : ℤ
  y1 : ℤ
  w : ℤ
  h : ℤ
  deriving DecidableEq, Repr

def getTextBounds (t : Settings) (text : List UInt8) (x y : ℤ) : Box :=
  let b := textBounds t ⟨x,y⟩ text
  { x1 := if b.minx ≤ b.maxx then b.minx else x
    w := if b.minx ≤ b.maxx then b.maxx-b.minx+1 else 0
    y1 := if b.miny ≤ b.maxy then b.miny else y
    h := if b.miny ≤ b.maxy then b.maxy-b.miny+1 else 0 }

theorem getTextBounds_nonneg (t : Settings) (text : List UInt8) (x y : ℤ) :
    0 ≤ (getTextBounds t text x y).w := by
  rw [getTextBounds]
  dsimp only
  split <;> omega

def writeAll (t : Settings) (k : Cursor) (bytes : List UInt8) : Cursor × List (ℤ × ℤ) :=
  OutputRuns.run (write t) k bytes

def print (t : Settings) (k : Cursor) (text : List UInt8) : Cursor × List (ℤ × ℤ) :=
  writeAll t k (printed text)

/-- Every glyph fits the display, and one without points moves nothing. -/
def Tidy (t : Settings) : Prop :=
  0 < t.textsize ∧ (0 ≤ t.width ∧ 0 ≤ t.height) ∧ ∀ i, 0 ≤ (t.font.glyph i).xOffset ∧
    t.textsize*((t.font.glyph i).xOffset+(t.font.glyph i).width) ≤ t.width ∧
    ((t.font.glyph i).width = 0 ∨ (t.font.glyph i).height = 0 →
      (t.font.glyph i).width = 0 ∧ (t.font.glyph i).xOffset = 0 ∧ (t.font.glyph i).xAdvance = 0)

theorem takeWhile_whole {text : List UInt8} (hzero : 0 ∉ text) :
    text.takeWhile (· ≠ 0) = text :=
  List.takeWhile_eq_self_iff.mpr fun _ hc => decide_eq_true (ne_of_mem_of_not_mem hc hzero)

/-- Each byte moves a cursor by less than 256 points of the size, and so many keep all numbers in
16 bits. -/
def InWords (t : Settings) (k : Cursor) (n : ℕ) : Prop :=
  |k.x| + 256*t.textsize*(n+2) < 2^15 ∧ |k.y| + 256*t.textsize*(n+2) < 2^15

instance inWords_decidable (t : Settings) (k : Cursor) (n : ℕ) : Decidable (InWords t k n) :=
  inferInstanceAs (Decidable (_ ∧ _))

/-- How far the measure can have come from its cursor in so many bytes. -/
structure Near (t : Settings) (k : Cursor) (n : ℕ) (b : Bounds) : Prop where
  x : |b.cursor.x| ≤ |k.x| + 256*t.textsize*n
  y : |b.cursor.y| ≤ |k.y| + 256*t.textsize*n
  left : -(|k.x| + 256*t.textsize*(n+2)) ≤ b.minx
  top : -(|k.y| + 256*t.textsize*(n+2)) ≤ b.miny
  right : b.maxx < |k.x| + 256*t.textsize*(n+2)
  bottom : b.maxy < |k.y| + 256*t.textsize*(n+2)

theorem startBounds_near {t : Settings} (hsize : 0 < t.textsize)
    (hdisplay : 0 ≤ t.width ∧ 0 ≤ t.height) (k : Cursor) : Near t k 0 (startBounds t k) := by
  have hstep : 0 < (t.textsize:ℤ) := by exact_mod_cast hsize
  have hx := abs_nonneg k.x
  have hy := abs_nonneg k.y
  obtain ⟨hwidth,hheight⟩ := hdisplay
  refine ⟨?_,?_,?_,?_,?_,?_⟩ <;> dsimp only [startBounds] <;> push_cast <;> omega

theorem scaled {s : ℕ} {z m : ℤ} (h : -m ≤ z ∧ z ≤ m) : -(s*m) ≤ s*z ∧ s*z ≤ s*m := by
  have hs : (0:ℤ) ≤ s := Int.natCast_nonneg s
  rw [← mul_neg]
  exact ⟨mul_le_mul_of_nonneg_left h.1 hs,mul_le_mul_of_nonneg_left h.2 hs⟩

theorem cursor_near {t : Settings} {k : Cursor} {x y : ℤ} (hx : |k.x| ≤ x) (hy : |k.y| ≤ y) :
    (|(newLine t k).x| ≤ x ∧ |(newLine t k).y| ≤ y+t.textsize*255) ∧
      ∀ g : Glyph, (|(wrapped t g k).x| ≤ x ∧ |(wrapped t g k).y| ≤ y+t.textsize*255) ∧
        |(advanced t g (wrapped t g k)).x| ≤ x+t.textsize*255 := by
  have hline := scaled (s := t.textsize) (z := t.font.yAdvance) (m := 255)
    (by have := t.font.byte; omega)
  have hsize : 0 ≤ (t.textsize:ℤ) := Int.natCast_nonneg _
  rw [abs_le] at hx hy
  have hnew : |(newLine t k).x| ≤ x ∧ |(newLine t k).y| ≤ y+t.textsize*255 := by
    rw [abs_le, abs_le, newLine]
    dsimp only
    omega
  refine ⟨hnew,fun g => ?_⟩
  have hwrapped : |(wrapped t g k).x| ≤ x ∧ |(wrapped t g k).y| ≤ y+t.textsize*255 := by
    rw [wrapped]
    split
    · exact hnew
    · rw [abs_le, abs_le]
      omega
  refine ⟨hwrapped,?_⟩
  have hstep := scaled (s := t.textsize) (z := g.xAdvance) (m := 255)
    (by have := g.bytes; omega)
  have hwx := abs_le.mp hwrapped.1
  rw [advanced, abs_le]
  dsimp only
  omega

/-- One byte moves the cursor once in each direction, and the box ends two bytes farther. -/
theorem charBounds_near {t : Settings} {k : Cursor} {n : ℕ} {b : Bounds} (c : UInt8)
    (h : Near t k n b) : Near t k (n+1) (charBounds t b c) := by
  have hmore : (256*t.textsize*((n+1:ℕ):ℤ) : ℤ) = 256*t.textsize*n + 256*t.textsize := by
    push_cast
    ring
  have hfar : (256*t.textsize*(((n+1:ℕ):ℤ)+2) : ℤ) = 256*t.textsize*n + 768*t.textsize := by
    push_cast
    ring
  have hold : (256*t.textsize*((n:ℤ)+2) : ℤ) = 256*t.textsize*n + 512*t.textsize := by ring
  have hsize : 0 ≤ (t.textsize:ℤ) := Int.natCast_nonneg _
  obtain ⟨hx,hy,hleft,htop,hright,hbottom⟩ := h
  obtain ⟨⟨hlx,hly⟩,hglyph⟩ := cursor_near (t := t) hx hy
  rw [hold] at hleft htop hright hbottom
  have hbox : ∀ k' : Cursor, |k'.x| ≤ |k.x| + 256*t.textsize*((n+1:ℕ):ℤ) →
      |k'.y| ≤ |k.y| + 256*t.textsize*((n+1:ℕ):ℤ) → Near t k (n+1) { b with cursor := k' } :=
    fun k' hx' hy' => ⟨hx',hy',by rw [hfar]; dsimp only; omega,by rw [hfar]; dsimp only; omega,
      by rw [hfar]; dsimp only; omega,by rw [hfar]; dsimp only; omega⟩
  rw [charBounds]
  split
  · exact hbox _ (by rw [hmore]; omega) (by rw [hmore]; omega)
  split
  · exact hbox b.cursor (by rw [hmore]; omega) (by rw [hmore]; omega)
  split
  · exact hbox b.cursor (by rw [hmore]; omega) (by rw [hmore]; omega)
  next g _ =>
  dsimp only
  obtain ⟨⟨hwx,hwy⟩,hax⟩ := hglyph g
  have hxo := scaled (s := t.textsize) (z := g.xOffset) (m := 128) (by have := g.offsets; omega)
  have hyo := scaled (s := t.textsize) (z := g.yOffset) (m := 128) (by have := g.offsets; omega)
  have hw := scaled (s := t.textsize) (z := g.width) (m := 255) (by have := g.bytes; omega)
  have hh := scaled (s := t.textsize) (z := g.height) (m := 255) (by have := g.bytes; omega)
  rw [mul_comm (t.textsize:ℤ) g.xOffset] at hxo
  rw [mul_comm (t.textsize:ℤ) g.yOffset] at hyo
  rw [mul_comm (t.textsize:ℤ) g.width] at hw
  rw [mul_comm (t.textsize:ℤ) g.height] at hh
  have hay : (advanced t g (wrapped t g b.cursor)).y = (wrapped t g b.cursor).y := rfl
  generalize advanced t g (wrapped t g b.cursor) = a at hax hay
  generalize wrapped t g b.cursor = w at hwx hwy hay
  have hwx' := abs_le.mp hwx
  have hwy' := abs_le.mp hwy
  refine ⟨?_,?_,?_,?_,?_,?_⟩ <;> dsimp only
  · rw [hmore]
    omega
  · rw [hmore, hay]
    omega
  · rw [hfar]
    split <;> omega
  · rw [hfar]
    split <;> omega
  · rw [hfar]
    split <;> omega
  · rw [hfar]
    split <;> omega

theorem measure_near {t : Settings} (hsize : 0 < t.textsize)
    (hdisplay : 0 ≤ t.width ∧ 0 ≤ t.height) (k : Cursor) (text : List UInt8) :
    Near t k text.length (text.foldl (charBounds t) (startBounds t k)) := by
  induction text using List.reverseRecOn with
  | nil => exact startBounds_near hsize hdisplay k
  | append_singleton text c ih =>
    rw [List.foldl_append, List.length_append]
    exact charBounds_near c ih

theorem box_words {t : Settings} (hsize : 0 < t.textsize) (hdisplay : 0 ≤ t.width ∧ 0 ≤ t.height)
    {text : List UInt8} (hzero : 0 ∉ text) (k : Cursor) {m : ℤ}
    (hm : 256*t.textsize*(text.length+2) ≤ m) :
    let box := getTextBounds t text k.x k.y
    (-(|k.x|+m) ≤ box.x1 ∧ box.x1+box.w ≤ |k.x|+m ∧ box.w ≤ 2*(|k.x|+m)) ∧
      -(|k.y|+m) ≤ box.y1 ∧ box.y1+box.h ≤ |k.y|+m := by
  have hnear := measure_near hsize hdisplay k text
  intro box
  have hbox : box = getTextBounds t text k.x k.y := rfl
  rw [getTextBounds, textBounds, takeWhile_whole hzero] at hbox
  generalize text.foldl (charBounds t) (startBounds t k) = b at hnear hbox
  obtain ⟨-,-,hleft,htop,hright,hbottom⟩ := hnear
  have habs := abs_le.mp (le_refl |k.x|)
  have habs' := abs_le.mp (le_refl |k.y|)
  have hwhole : 0 ≤ (256*t.textsize*((text.length:ℤ)+2) : ℤ) := by positivity
  rw [hbox]
  dsimp only
  constructor
  · split <;> omega
  · split <;> omega

def pageText : Settings := { font := IBMPlexMono_M6pt7b, width := 176, height := 264 }

def Off (t : Settings) (s y : ℤ) (b : Bounds) : Prop :=
  y < b.cursor.y ∨ s < 0 ∧ t.width < b.maxx+1-s

end THue.TextOutput
