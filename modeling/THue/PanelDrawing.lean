import THue.GfxShapes
import THue.Encoder
import THue.TouchPanel

/-!
# Drawing on the panel

Everything on the display is drawn through `drawPixel`. A run of calls leaves
in the buffer the picture that its strokes paint, so a shape can be followed by
its points: the bitmaps, the brightness bar and the circles of the two scales.
-/

set_option autoImplicit false

namespace THue.PanelDrawing
open THue.Pictures THue.PanelBuffer THue.GfxShapes

abbrev Pixel := (ℤ × ℤ) × UInt16

def drawAll (ps : List Pixel) (d : Display) : Display :=
  ps.foldl (fun d p => drawPixel p.1.1 p.1.2 p.2 d) d

def plot (shape : List (ℤ × ℤ)) (color : UInt16) : List Pixel := shape.map fun q => (q,color)

def screen (r : Rotation) : Set (ℤ × ℤ) := {q | Inside r q.1 q.2}

def strokes (r : Rotation) (ps : List Pixel) : List (Set (ℤ × ℤ) × Bool) :=
  ps.map fun p => ({p.1} ∩ screen r,decide (p.2 = EPD_BLACK))

theorem drawPixel_rotation (x y : ℤ) (color : UInt16) (d : Display) :
    (drawPixel x y color d).rotation = d.rotation := by
  rw [drawPixel]
  split <;> rfl

theorem drawAll_rotation (ps : List Pixel) (d : Display) :
    (drawAll ps d).rotation = d.rotation := by
  induction ps generalizing d with
  | nil => rfl
  | cons p ps ih => exact (ih _).trans (drawPixel_rotation ..)

theorem drawAll_append (ps qs : List Pixel) (d : Display) :
    drawAll (ps++qs) d = drawAll qs (drawAll ps d) := List.foldl_append

theorem picture_drawAll (ps : List Pixel) (d : Display) :
    picture (drawAll ps d) = paintAll (strokes d.rotation ps) (picture d) := by
  induction ps generalizing d with
  | nil => rfl
  | cons p ps ih =>
    have hrest := ih (drawPixel p.1.1 p.1.2 p.2 d)
    rw [drawPixel_rotation, picture_drawPixel] at hrest
    exact hrest

def lastColor (ps : List Pixel) (q : ℤ × ℤ) : Option UInt16 :=
  (ps.reverse.find? fun p => p.1 = q).map Prod.snd

theorem mem_stroke {r : Rotation} {p : Pixel} {q : ℤ × ℤ} (hq : Inside r q.1 q.2) :
    q ∈ ({p.1} : Set (ℤ × ℤ)) ∩ screen r ↔ p.1 = q :=
  ⟨fun h => h.1.symm,fun h => ⟨h.symm,hq⟩⟩

/-- After any calls, on a display in any rotation, a point of the display has the colour of
the last call at it, and one that no call was at has the colour it had. -/
theorem drawn_last (ps : List Pixel) (d : Display) {q : ℤ × ℤ} (hq : Inside d.rotation q.1 q.2) :
    picture (drawAll ps d) q = match lastColor ps q with
      | some color => decide (color = EPD_BLACK)
      | none => picture d q := by
  rw [picture_drawAll, lastColor]
  generalize hfind : List.find? _ ps.reverse = last
  rcases last with - | p
  · refine paintAll_out fun s hs => ?_
    obtain ⟨p,hp,rfl⟩ := List.mem_map.mp hs
    have hnot := List.find?_eq_none.mp hfind p (List.mem_reverse.mpr hp)
    exact fun hmem => hnot (decide_eq_true ((mem_stroke hq).mp hmem))
  · obtain ⟨hp,later,earlier,hsplit,hlater⟩ := List.find?_eq_some_iff_append.mp hfind
    rw [List.reverse_eq_iff, List.reverse_append, List.reverse_cons, List.append_assoc] at hsplit
    rw [hsplit, strokes, List.map_append, List.singleton_append, List.map_cons, Option.map_some]
    refine paintAll_last ((mem_stroke hq).mpr (of_decide_eq_true hp)) fun s hs => ?_
    obtain ⟨p',hp',rfl⟩ := List.mem_map.mp hs
    have hnot := hlater p' (List.mem_reverse.mp hp')
    intro hmem
    rw [decide_eq_true ((mem_stroke hq).mp hmem)] at hnot
    exact absurd hnot (by decide)

/-- A point drawn in black and then in white. -/
theorem drawn_over : picture (drawAll [((5,5),EPD_BLACK),((6,5),EPD_BLACK),((5,5),EPD_WHITE)]
    { rotation := 2, buffer := fun _ => 0 }) (5,5) = false :=
  drawn_last _ _ (by decide)

theorem picture_colored (color : ℤ × ℤ → UInt16) {ps : List Pixel}
    (h : ∀ p ∈ ps, p.2 = color p.1) (d : Display) {q : ℤ × ℤ} (hq : q ∈ screen d.rotation) :
    picture (drawAll ps d) q =
      if ∃ p ∈ ps, p.1 = q then decide (color q = EPD_BLACK) else picture d q := by
  rw [picture_drawAll]
  split
  · next hp =>
    obtain ⟨p,hp,hpq⟩ := hp
    refine paintAll_colored (fun s hs hmem => ?_) ⟨_,List.mem_map_of_mem hp,(mem_stroke hq).mpr hpq⟩
    obtain ⟨p',hp',rfl⟩ := List.mem_map.mp hs
    rw [h p' hp', (mem_stroke hq).mp hmem]
  · next hp =>
    refine paintAll_out fun s hs hmem => hp ?_
    obtain ⟨p',hp',rfl⟩ := List.mem_map.mp hs
    exact ⟨p',hp',(mem_stroke hq).mp hmem⟩

theorem picture_plot {shape : List (ℤ × ℤ)} {S : Set (ℤ × ℤ)} (h : ∀ q, q ∈ shape ↔ q ∈ S)
    (color : UInt16) (d : Display) {q : ℤ × ℤ} (hq : q ∈ screen d.rotation) :
    picture (drawAll (plot shape color) d) q =
      paint S (decide (color = EPD_BLACK)) (picture d) q := by
  have hcolor : ∀ p ∈ plot shape color, p.2 = color := by
    intro p hp
    obtain ⟨q',-,rfl⟩ := List.mem_map.mp hp
    rfl
  rw [picture_colored (fun _ => color) hcolor d hq]
  have hmem : (∃ p ∈ plot shape color, p.1 = q) ↔ q ∈ S := by
    rw [← h]
    constructor
    · rintro ⟨p,hp,rfl⟩
      obtain ⟨q',hq',rfl⟩ := List.mem_map.mp hp
      exact hq'
    · exact fun hq' => ⟨(q,color),List.mem_map.mpr ⟨q,hq',rfl⟩,rfl⟩
  by_cases hS : q ∈ S
  · rw [if_pos (hmem.mpr hS), paint_in hS]
  · rw [if_neg fun h' => hS (hmem.mp h'), paint_out hS]

theorem picture_shape (shape : List (ℤ × ℤ)) (color : UInt16) {d : Display} {q : ℤ × ℤ}
    (hq : Inside d.rotation q.1 q.2) : picture (drawAll (plot shape color) d) q =
      if q ∈ shape then decide (color = EPD_BLACK) else picture d q := by
  rw [picture_plot (S := {q | q ∈ shape}) (fun _ => Iff.rfl) color d hq]
  split
  · next hmem => exact paint_in hmem
  · next hmem => exact paint_out hmem

/-- The bits of a row from `i` on: a byte is loaded at every eighth and shifted between. -/
def bitsFrom (bitmap : ℕ → UInt8) (start : ℕ) : ℕ → ℕ → UInt8 → List (ℕ × Bool)
  | 0, _, _ => []
  | columns+1, i, byte =>
      let byte := if i%8 ≠ 0 then byte <<< 1 else bitmap (start+i/8)
      (i,decide (byte &&& 0x80 ≠ 0)) :: bitsFrom bitmap start columns (i+1) byte

/-- The colour given to `drawBitmap` is not used: a bit draws 255, no bit draws 0. -/
def drawBitmap (x y : ℤ) (bitmap : ℕ → UInt8) (w h : ℕ) : List Pixel :=
  (List.range h).flatMap fun j : ℕ => (bitsFrom bitmap (j*((w+7)/8)) w 0 0).map fun b =>
    ((x+b.1,y+j),if b.2 then 255 else 0)

def bitAt (bitmap : ℕ → UInt8) (w i j : ℕ) : Bool :=
  (bitmap (j*((w+7)/8)+i/8)).toNat.testBit (7-i%8)

theorem topBit (byte : UInt8) {k : ℕ} (hk : k < 8) :
    (byte <<< UInt8.ofNat k) &&& 0x80 ≠ 0 ↔ byte.toNat.testBit (7-k) = true := by
  have hall : ∀ (k : Fin 8) (n : Fin 256), ((UInt8.ofNat n <<< UInt8.ofNat k) &&& 0x80 ≠ 0) ↔
      (UInt8.ofNat n).toNat.testBit (7-k) = true := by decide +kernel
  have h := hall ⟨k,hk⟩ ⟨byte.toNat,byte.toNat_lt⟩
  dsimp only at h
  rwa [UInt8.ofNat_toNat] at h

theorem shiftLeft_succ (byte : UInt8) {k : ℕ} (hk : k+1 < 8) :
    (byte <<< UInt8.ofNat k) <<< 1 = byte <<< UInt8.ofNat (k+1) := by
  have hall : ∀ (k : Fin 7) (n : Fin 256), (UInt8.ofNat n <<< UInt8.ofNat k) <<< 1 =
      UInt8.ofNat n <<< UInt8.ofNat (k+1) := by decide +kernel
  have h := hall ⟨k,by omega⟩ ⟨byte.toNat,byte.toNat_lt⟩
  dsimp only at h
  rwa [UInt8.ofNat_toNat] at h

theorem mem_bitsFrom {bitmap : ℕ → UInt8} {start columns i : ℕ} {byte : UInt8}
    (hbyte : i%8 ≠ 0 → byte = bitmap (start+i/8) <<< UInt8.ofNat (i%8-1)) {b : ℕ × Bool} :
    b ∈ bitsFrom bitmap start columns i byte ↔ ∃ k, i ≤ k ∧ k < i+columns ∧
      b = (k,(bitmap (start+k/8)).toNat.testBit (7-k%8)) := by
  induction columns generalizing i byte with
  | zero =>
    simp only [bitsFrom, List.not_mem_nil, false_iff, not_exists]
    intro k hk
    omega
  | succ columns ih =>
    have hloaded : (if i%8 ≠ 0 then byte <<< 1 else bitmap (start+i/8)) =
        bitmap (start+i/8) <<< UInt8.ofNat (i%8) := by
      split
      · next hne =>
        rw [hbyte hne, shiftLeft_succ _ (by omega), show i%8-1+1 = i%8 by omega]
      · next heq =>
        rw [show i%8 = 0 by omega]
        exact (UInt8.shiftLeft_zero).symm
    rw [bitsFrom, hloaded, List.mem_cons, ih fun hne => ?_]
    · simp only [topBit _ (show i%8 < 8 by omega), Bool.decide_eq_true]
      constructor
      · rintro (rfl | ⟨k,h1,h2,rfl⟩)
        · exact ⟨i,le_refl i,by omega,rfl⟩
        · exact ⟨k,by omega,by omega,rfl⟩
      · rintro ⟨k,h1,h2,rfl⟩
        obtain rfl | h1 := h1.eq_or_lt
        · exact Or.inl rfl
        · exact Or.inr ⟨k,h1,by omega,rfl⟩
    · rw [show (i+1)/8 = i/8 by omega, show (i+1)%8-1 = i%8 by omega]

theorem mem_drawBitmap {x y : ℤ} {bitmap : ℕ → UInt8} {w h : ℕ} {p : Pixel} :
    p ∈ drawBitmap x y bitmap w h ↔ ∃ i < w, ∃ j < h,
      p = ((x+i,y+j),if bitAt bitmap w i j then 255 else 0) := by
  rw [drawBitmap, List.mem_flatMap]
  simp only [List.mem_map, mem_bitsFrom (fun h => absurd rfl h : (0:ℕ)%8 ≠ 0 → _), List.mem_range,
    bitAt]
  constructor
  · rintro ⟨j,hj,b,⟨i,-,hi,rfl⟩,rfl⟩
    exact ⟨i,by omega,j,hj,rfl⟩
  · rintro ⟨i,hi,j,hj,rfl⟩
    exact ⟨j,hj,_,⟨i,Nat.zero_le i,by omega,rfl⟩,rfl⟩

/-- `drawBitmap` shows the bitmap: a point of the display in its rectangle is black if it has
no bit there, whatever colour was asked for, and no other point changes. -/
theorem bitmap_shown (x y : ℤ) (bitmap : ℕ → UInt8) (w h : ℕ) (d : Display) {q : ℤ × ℤ}
    (hq : Inside d.rotation q.1 q.2) :
    picture (drawAll (drawBitmap x y bitmap w h) d) q =
      if q ∈ area x y w h then !bitAt bitmap w (q.1-x).toNat (q.2-y).toNat else picture d q := by
  let color : ℤ × ℤ → UInt16 := fun q =>
    if bitAt bitmap w (q.1-x).toNat (q.2-y).toNat then 255 else 0
  have hcolor : ∀ p ∈ drawBitmap x y bitmap w h, p.2 = color p.1 := by
    intro p hp
    obtain ⟨i,-,j,-,rfl⟩ := mem_drawBitmap.mp hp
    simp [color]
  rw [picture_colored _ hcolor d hq]
  refine if_congr ?_ ?_ rfl
  · simp only [mem_drawBitmap, area, Set.mem_ofPred_eq]
    constructor
    · rintro ⟨p,⟨i,hi,j,hj,rfl⟩,rfl⟩
      dsimp only
      omega
    · rintro ⟨h1,h2,h3,h4⟩
      refine ⟨_,⟨(q.1-x).toNat,by omega,(q.2-y).toNat,by omega,rfl⟩,Prod.ext ?_ ?_⟩ <;>
        dsimp only <;> omega
  · dsimp only [color]
    split
    · next hb => simp [hb, EPD_BLACK]
    · next hb => simp [hb, EPD_BLACK]

/-- The right half of a byte is black where its left half has the bits. -/
theorem half_byte_shown : picture (drawAll (drawBitmap 3 4 (fun _ => 0xF0) 8 2)
    { rotation := 2, buffer := fun _ => 0 }) (8,5) = true := by
  rw [bitmap_shown 3 4 _ 8 2 _ (by decide)]
  decide

def barPercentage (value : UInt8) : UInt8 := UInt8.ofInt (Encoder.map value.toNat 1 254 0 100)

def barLength (r : Rotation) (value : UInt8) : UInt8 :=
  UInt8.ofInt (Encoder.map (barPercentage value).toNat 0 100 0 ((width r:ℤ)-28))

def drawBar (r : Rotation) (x y : ℤ) (value : UInt8) : List Pixel :=
  let right := x+width r-28
  plot (drawLine x (y-2) x (y+7)) EPD_BLACK ++
    (plot (drawLine right (y-2) right (y+7)) EPD_BLACK ++
      (plot (drawLine x (y+2) right (y+2)) EPD_BLACK ++
        plot (fillRoundRect x y (barLength r value).toNat 5 0) EPD_BLACK))

def barStrip (r : Rotation) (x y : ℤ) : List Pixel :=
  plot (fillRect x (y-2) (width r) 15) EPD_WHITE

theorem barPercentage_toNat (value : UInt8) :
    (barPercentage value).toNat = (value.toNat-1)*100/253 := by
  have hall : ∀ n : Fin 256, (barPercentage (UInt8.ofNat n)).toNat = (n-1)*100/253 := by
    decide +kernel
  have h := hall ⟨value.toNat,value.toNat_lt⟩
  dsimp only at h
  rwa [UInt8.ofNat_toNat] at h

theorem barLength_toNat (r : Rotation) (value : UInt8) :
    (barLength r value).toNat = (value.toNat-1)*100/253*(width r-28)/100 := by
  have hvalue := value.toNat_lt
  have hwidth := le_width r
  have hwidth' := width_le r
  have hlong : (value.toNat-1)*100/253*(width r-28)/100 < 256 := by
    have hle : (value.toNat-1)*100/253 ≤ 100 := by omega
    have hmul := Nat.mul_le_mul hle (show width r-28 ≤ 236 by omega)
    omega
  rw [barLength, Encoder.map, barPercentage_toNat, sub_zero, sub_zero, sub_zero, add_zero,
    show ((width r:ℤ)-28) = ((width r-28:ℕ):ℤ) by omega, ← Nat.cast_mul,
    Int.tdiv_eq_ediv_of_nonneg (by positivity)]
  rw [show (((value.toNat-1)*100/253*(width r-28):ℕ):ℤ)/100 =
    (((value.toNat-1)*100/253*(width r-28)/100:ℕ):ℤ) by push_cast; rfl, UInt8.ofInt,
    UInt8.toNat_ofNat']
  omega

theorem mem_drawLine_vertical {x y0 y1 : ℤ} (h : y0 ≤ y1) {q : ℤ × ℤ} :
    q ∈ drawLine x y0 x y1 ↔ q ∈ area x y0 1 (y1-y0+1) := by
  rw [drawLine, if_pos rfl, if_neg (by omega), mem_drawFastVLine (by omega)]

theorem mem_drawLine_horizontal {x0 x1 y : ℤ} (h : x0 < x1) {q : ℤ × ℤ} :
    q ∈ drawLine x0 y x1 y ↔ q ∈ area x0 y (x1-x0+1) 1 := by
  rw [drawLine, if_neg (by omega), if_pos rfl, if_neg (by omega), mem_drawFastHLine (by omega)]

def barFrame (r : Rotation) (x y : ℤ) : Set (ℤ × ℤ) :=
  area x (y-2) 1 10 ∪ area (x+width r-28) (y-2) 1 10 ∪ area x (y+2) ((width r:ℤ)-27) 1

instance barFrame_decidable (r : Rotation) (x y : ℤ) (q : ℤ × ℤ) : Decidable (q ∈ barFrame r x y) :=
  inferInstanceAs (Decidable ((q ∈ area _ _ _ _ ∨ q ∈ area _ _ _ _) ∨ q ∈ area _ _ _ _))

theorem drawBar_picture (x y : ℤ) (value : UInt8) (d : Display) {q : ℤ × ℤ}
    (hq : Inside d.rotation q.1 q.2) :
    picture (drawAll (drawBar d.rotation x y value) d) q =
      paint (barFrame d.rotation x y ∪ area x y (barLength d.rotation value).toNat 5) true
        (picture d) q := by
  have hwidth := le_width d.rotation
  rw [drawBar]
  simp only [plot, ← List.map_append]
  refine picture_plot (fun q => ?_) EPD_BLACK d hq
  simp only [List.mem_append, Set.mem_union, barFrame, fillRoundRect_zero (Int.natCast_nonneg _)
    (by omega : (0:ℤ) ≤ 5), mem_fillRect (by omega : (0:ℤ) < 5)]
  rw [mem_drawLine_vertical (by omega), mem_drawLine_vertical (by omega),
    mem_drawLine_horizontal (by omega)]
  rw [show y+7-(y-2)+1 = (10:ℤ) by omega,
    show x+width d.rotation-28-x+1 = (width d.rotation:ℤ)-27 by omega]
  tauto

/-- Redrawing the bar forgets every bar before it: whatever was on the display, its strip then
shows the frame and a bar as long as this value says, and the rest stays as it was. -/
theorem bar_redrawn (x y : ℤ) (value : UInt8) (d : Display) {q : ℤ × ℤ}
    (hq : Inside d.rotation q.1 q.2) :
    (picture (drawAll (drawBar d.rotation x y value) (drawAll (barStrip d.rotation x y) d)) q =
        true ↔
      if q ∈ area x (y-2) (width d.rotation) 15 then
        q ∈ barFrame d.rotation x y ∨
          q ∈ area x y ((value.toNat-1)*100/253*(width d.rotation-28)/100 : ℕ) 5
      else picture d q = true) := by
  let d' := drawAll (barStrip d.rotation x y) d
  have hrotation : d'.rotation = d.rotation := drawAll_rotation ..
  have hwhite : picture d' q =
      paint (area x (y-2) (width d.rotation) 15) false (picture d) q :=
    picture_plot (fun q => mem_fillRect (by omega)) EPD_WHITE d hq
  have hblack := drawBar_picture x y value d' (q := q) (by rwa [hrotation])
  rw [hrotation] at hblack
  have hlength := barLength_toNat d.rotation value
  have hsub : barFrame d.rotation x y ∪ area x y (barLength d.rotation value).toNat 5 ⊆
      area x (y-2) (width d.rotation) 15 := by
    have hle : (barLength d.rotation value).toNat ≤ width d.rotation := by
      have hvalue := value.toNat_lt
      have hmul := Nat.mul_le_mul (show (value.toNat-1)*100/253 ≤ 100 by omega)
        (le_refl (width d.rotation-28))
      omega
    have hwidth := le_width d.rotation
    intro q hq
    simp only [barFrame, area, Set.mem_union, Set.mem_ofPred_eq] at hq ⊢
    omega
  rw [hblack, ← hlength, ← Set.mem_union]
  by_cases hbar : q ∈ barFrame d.rotation x y ∪ area x y (barLength d.rotation value).toNat 5
  · rw [paint_in hbar, if_pos (hsub hbar)]
    exact iff_of_true rfl hbar
  · rw [paint_out hbar, hwhite]
    split
    · next hstrip =>
      rw [paint_in hstrip]
      exact iff_of_false Bool.false_ne_true hbar
    · next hstrip => rw [paint_out hstrip]

end THue.PanelDrawing
