import THue.Pictures
import Mathlib.Data.Fin.Basic
import Mathlib.Data.Int.Notation
import Mathlib.Logic.Function.Basic
import Mathlib.Tactic.Linarith

/-!
# The buffer of the panel

The panel has 176 by 264 points, eight of them in a byte. `drawPixel` turns a
point of the display into one of the panel, as the rotation says, and sets or
clears its bit; a point outside the display is dropped.
-/

set_option autoImplicit false

namespace THue.PanelBuffer
open THue.Pictures

def GDEW027W3_WIDTH : ℕ := 176

def GDEW027W3_HEIGHT : ℕ := 264

def GDEW027W3_BUFFER_SIZE : ℕ := GDEW027W3_WIDTH*GDEW027W3_HEIGHT/8

def EPD_BLACK : UInt16 := 0x0000

def EPD_WHITE : UInt16 := 0xFFFF

abbrev Rotation := Fin 4

structure Display where
  rotation : Rotation := 0
  buffer : Fin GDEW027W3_BUFFER_SIZE → UInt8

def width : Rotation → ℕ
  | 0 | 2 => GDEW027W3_WIDTH
  | 1 | 3 => GDEW027W3_HEIGHT

def height : Rotation → ℕ
  | 0 | 2 => GDEW027W3_HEIGHT
  | 1 | 3 => GDEW027W3_WIDTH

/-- The point is on the display. -/
def Inside (r : Rotation) (x y : ℤ) : Prop := 0 ≤ x ∧ x < width r ∧ 0 ≤ y ∧ y < height r

instance inside_decidable (r : Rotation) (x y : ℤ) : Decidable (Inside r x y) :=
  inferInstanceAs (Decidable (_ ∧ _ ∧ _ ∧ _))

def rotated (r : Rotation) (x y : ℤ) : ℤ × ℤ :=
  match r with
  | 0 => (x,y)
  | 1 => (GDEW027W3_WIDTH-y-1,x)
  | 2 => (GDEW027W3_WIDTH-x-1,GDEW027W3_HEIGHT-y-1)
  | 3 => (y,GDEW027W3_HEIGHT-x-1)

structure OnPanel (p : ℤ × ℤ) : Prop where
  left : 0 ≤ p.1
  right : p.1 < 176
  top : 0 ≤ p.2
  bottom : p.2 < 264

theorem rotation_cases (r : Rotation) : r = 0 ∨ r = 1 ∨ r = 2 ∨ r = 3 := by decide +revert

theorem le_width (r : Rotation) : 176 ≤ width r := by decide +revert

theorem width_le (r : Rotation) : width r ≤ 264 := by decide +revert

theorem rotated_onPanel {r : Rotation} {x y : ℤ} (h : Inside r x y) : OnPanel (rotated r x y) := by
  obtain ⟨h1,h2,h3,h4⟩ := h
  obtain rfl | rfl | rfl | rfl := rotation_cases r <;>
    simp only [width, height, GDEW027W3_WIDTH, GDEW027W3_HEIGHT] at h2 h4 <;>
    constructor <;> simp only [rotated, GDEW027W3_WIDTH, GDEW027W3_HEIGHT] <;> omega

/-- `x/8 + y*GDEW027W3_WIDTH/8`. -/
def byteIndex (p : ℤ × ℤ) : ℕ := p.1.toNat/8 + p.2.toNat*GDEW027W3_WIDTH/8

/-- `7 - x%8`. -/
def bitIndex (p : ℤ × ℤ) : ℕ := 7 - p.1.toNat%8

theorem byteIndex_lt {p : ℤ × ℤ} (h : OnPanel p) : byteIndex p < GDEW027W3_BUFFER_SIZE := by
  obtain ⟨h1,h2,h3,h4⟩ := h
  rw [byteIndex, GDEW027W3_BUFFER_SIZE, GDEW027W3_WIDTH, GDEW027W3_HEIGHT]
  omega

theorem bitIndex_lt (p : ℤ × ℤ) : bitIndex p < 8 := by
  rw [bitIndex]
  omega

def setBit (bit : ℕ) (color : UInt16) (byte : UInt8) : UInt8 :=
  if color ≠ 0 then byte &&& ((0xFF : UInt8) ^^^ (1 <<< UInt8.ofNat bit))
  else byte ||| (1 <<< UInt8.ofNat bit)

def drawPixel (x y : ℤ) (color : UInt16) (d : Display) : Display :=
  if h : Inside d.rotation x y then
    let p := rotated d.rotation x y
    let i : Fin GDEW027W3_BUFFER_SIZE := ⟨byteIndex p,byteIndex_lt (rotated_onPanel h)⟩
    { d with buffer := Function.update d.buffer i (setBit (bitIndex p) color (d.buffer i)) }
  else d

def panelBlack (b : Fin GDEW027W3_BUFFER_SIZE → UInt8) (p : ℤ × ℤ) : Bool :=
  if h : byteIndex p < GDEW027W3_BUFFER_SIZE then (b ⟨byteIndex p,h⟩).toNat.testBit (bitIndex p)
  else false

def picture (d : Display) (q : ℤ × ℤ) : Bool :=
  if Inside d.rotation q.1 q.2 then panelBlack d.buffer (rotated d.rotation q.1 q.2) else false

theorem setBit_testBit (byte : UInt8) (color : UInt16) {i j : ℕ} (hi : i < 8) (hj : j < 8) :
    (setBit i color byte).toNat.testBit j =
      if j = i then decide (color = EPD_BLACK) else byte.toNat.testBit j := by
  have hmask : ∀ i j : Fin 8, (1 <<< UInt8.ofNat i : UInt8).toNat.testBit j = decide (j = i) ∧
      ((0xFF : UInt8) ^^^ (1 <<< UInt8.ofNat i)).toNat.testBit j = decide (j ≠ i) := by decide
  obtain ⟨hone,hrest⟩ := hmask ⟨i,hi⟩ ⟨j,hj⟩
  rw [setBit]
  split
  · next hc =>
    rw [UInt8.toNat_and, Nat.testBit_and, hrest]
    by_cases hji : j = i
    · simp [hji, EPD_BLACK, hc]
    · simp [hji]
  · next hc =>
    rw [UInt8.toNat_or, Nat.testBit_or, hone]
    by_cases hji : j = i
    · simp only [ne_eq, not_not] at hc
      simp [hji, EPD_BLACK, hc]
    · simp [hji]

theorem point_unique {p q : ℤ × ℤ} (hp : OnPanel p) (hq : OnPanel q)
    (hbyte : byteIndex p = byteIndex q) (hbit : bitIndex p = bitIndex q) : p = q := by
  obtain ⟨h1,h2,h3,h4⟩ := hp
  obtain ⟨k1,k2,k3,k4⟩ := hq
  rw [byteIndex, byteIndex, GDEW027W3_WIDTH] at hbyte
  rw [bitIndex, bitIndex] at hbit
  refine Prod.ext ?_ ?_ <;> omega

theorem rotated_injective {r : Rotation} {x y x' y' : ℤ} (h : rotated r x y = rotated r x' y') :
    x = x' ∧ y = y' := by
  obtain rfl | rfl | rfl | rfl := rotation_cases r <;>
    simp only [rotated, Prod.mk.injEq] at h <;> omega

/-- `drawPixel` paints its point, if it is on the display, and nothing else. -/
theorem picture_drawPixel (x y : ℤ) (color : UInt16) (d : Display) :
    picture (drawPixel x y color d) =
      paint ({(x,y)} ∩ {q | Inside d.rotation q.1 q.2}) (decide (color = EPD_BLACK))
        (picture d) := by
  funext q
  rw [drawPixel]
  split
  · next hin =>
    have hp := rotated_onPanel hin
    by_cases hq : q = (x,y)
    · subst hq
      have hmem : (x,y) ∈ ({(x,y)} : Set (ℤ × ℤ)) ∩ {q | Inside d.rotation q.1 q.2} := ⟨rfl,hin⟩
      rw [paint_in hmem, picture, if_pos hin, panelBlack, dif_pos (byteIndex_lt hp)]
      dsimp only
      rw [Function.update_self, setBit_testBit _ _ (bitIndex_lt _) (bitIndex_lt _), if_pos rfl]
    · rw [paint_out fun h => hq h.1, picture, picture]
      split
      · next hinq =>
        have hpq := rotated_onPanel hinq
        rw [panelBlack, panelBlack, dif_pos (byteIndex_lt hpq), dif_pos (byteIndex_lt hpq)]
        dsimp only
        by_cases hbyte : byteIndex (rotated d.rotation q.1 q.2) = byteIndex (rotated d.rotation x y)
        · have hbit : bitIndex (rotated d.rotation q.1 q.2) ≠
              bitIndex (rotated d.rotation x y) := by
            intro hbit
            have hsame := rotated_injective (point_unique hpq hp hbyte hbit)
            exact hq (Prod.ext hsame.1 hsame.2)
          rw [Function.update_apply, if_pos (Fin.ext hbyte),
            setBit_testBit _ _ (bitIndex_lt _) (bitIndex_lt _), if_neg hbit]
          simp only [hbyte]
        · rw [Function.update_of_ne fun h => hbyte (congrArg Fin.val h)]
      · rfl
  · next hout =>
    rw [paint_out]
    rintro ⟨hq,hin⟩
    rw [Set.mem_singleton_iff.mp hq] at hin
    exact hout hin

end THue.PanelBuffer
