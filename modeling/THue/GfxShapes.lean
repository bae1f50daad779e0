import THue.PanelBuffer
import Mathlib.Data.List.Range
import Mathlib.Data.List.Nodup
import Mathlib.Algebra.Order.Group.Abs
import Mathlib.Algebra.Order.Ring.Abs
import Mathlib.Tactic.Ring

/-!
# The shapes of the graphics library

Each shape is the list of the points it writes, in order. Lines are stepped
along their longer side with an error term, and so are circles. The numbers
are integers here and have 16 bits in the library: what is said of it is said
of coordinates of half that range, whose sums and differences do not wrap.
-/

set_option autoImplicit false

namespace THue.GfxShapes
open THue.Pictures THue.PanelBuffer

/-- A coordinate, or a length. The sum, the difference and the error of two are of 16 bits. -/
abbrev Coordinate := {z : ℤ // |z| < 2^14}

def pixelAt (steep : Bool) (x y : ℤ) : ℤ × ℤ := if steep then (y,x) else (x,y)

def lineFrom (steep : Bool) (dx dy ystep : ℤ) : ℕ → ℤ → ℤ → ℤ → List (ℤ × ℤ)
  | 0, _, _, _ => []
  | rounds+1, x0, y0, err =>
      pixelAt steep x0 y0 ::
        if err-dy < 0 then lineFrom steep dx dy ystep rounds (x0+1) (y0+ystep) (err-dy+dx)
        else lineFrom steep dx dy ystep rounds (x0+1) y0 (err-dy)

def sortedLine (steep : Bool) (x0 y0 x1 y1 : ℤ) : List (ℤ × ℤ) :=
  let dx := x1-x0
  let dy := |y1-y0|
  lineFrom steep dx dy (if y0 < y1 then 1 else -1) (dx+1).toNat x0 y0 (dx/2)

def writeLine (x0 y0 x1 y1 : ℤ) : List (ℤ × ℤ) :=
  let steep : Bool := |x1-x0| < |y1-y0|
  let p := pixelAt steep x0 y0
  let q := pixelAt steep x1 y1
  if q.1 < p.1 then sortedLine steep q.1 q.2 p.1 p.2 else sortedLine steep p.1 p.2 q.1 q.2

def drawFastVLine (x y h : ℤ) : List (ℤ × ℤ) := writeLine x y x (y+h-1)

def drawFastHLine (x y w : ℤ) : List (ℤ × ℤ) := writeLine x y (x+w-1) y

def drawLine (x0 y0 x1 y1 : ℤ) : List (ℤ × ℤ) :=
  if x0 = x1 then
    if y1 < y0 then drawFastVLine x0 y1 (y0-y1+1) else drawFastVLine x0 y0 (y1-y0+1)
  else if y0 = y1 then
    if x1 < x0 then drawFastHLine x1 y0 (x0-x1+1) else drawFastHLine x0 y0 (x1-x0+1)
  else writeLine x0 y0 x1 y1

def fillRect (x y w h : ℤ) : List (ℤ × ℤ) :=
  (List.range w.toNat).flatMap fun i : ℕ => drawFastVLine (x+i) y h

def drawRect (x y w h : ℤ) : List (ℤ × ℤ) :=
  drawFastHLine x y w ++ drawFastHLine x (y+h-1) w ++
    (drawFastVLine x y h ++ drawFastVLine (x+w-1) y h)

structure Arc where
  f : ℤ
  ddF_x : ℤ
  ddF_y : ℤ
  x : ℤ
  y : ℤ
  px : ℤ
  py : ℤ

def nextArc (a : Arc) : Arc :=
  let a := if 0 ≤ a.f then { a with y := a.y-1, ddF_y := a.ddF_y+2, f := a.f+(a.ddF_y+2) } else a
  { a with x := a.x+1, ddF_x := a.ddF_x+2, f := a.f+(a.ddF_x+2) }

def columns (x0 y0 : ℤ) (right left : Bool) (distance half delta : ℤ) : List (ℤ × ℤ) :=
  (if right then drawFastVLine (x0+distance) (y0-half) (2*half+delta) else []) ++
    if left then drawFastVLine (x0-distance) (y0-half) (2*half+delta) else []

/-- The columns of one round; `px` and `py` are those of the round before. -/
def arcColumns (x0 y0 : ℤ) (right left : Bool) (delta : ℤ) (a : Arc) : List (ℤ × ℤ) :=
  (if a.x < a.y+1 then columns x0 y0 right left a.x a.y delta else []) ++
    if a.y ≠ a.py then columns x0 y0 right left a.py a.px delta else []

/-- The loop of `fillCircleHelper`; each round takes a column, so `r` rounds are enough. -/
def circleFrom (x0 y0 : ℤ) (right left : Bool) (delta : ℤ) : ℕ → Arc → List (ℤ × ℤ)
  | 0, _ => []
  | rounds+1, a =>
      if a.x < a.y then
        let b := nextArc a
        arcColumns x0 y0 right left delta b ++
          circleFrom x0 y0 right left delta rounds { b with px := b.x, py := b.y }
      else []

def startArc (r : ℤ) : Arc :=
  { f := 1-r, ddF_x := 1, ddF_y := -2*r, x := 0, y := r, px := 0, py := r }

def fillCircleHelper (x0 y0 r : ℤ) (right left : Bool) (delta : ℤ) : List (ℤ × ℤ) :=
  circleFrom x0 y0 right left (delta+1) r.toNat (startArc r)

def fillCircle (x0 y0 r : ℤ) : List (ℤ × ℤ) :=
  drawFastVLine x0 (y0-r) (2*r+1) ++ fillCircleHelper x0 y0 r true true 0

def fillRoundRect (x y w h r : ℤ) : List (ℤ × ℤ) :=
  let max_radius := (if w < h then w else h).tdiv 2
  let r := if max_radius < r then max_radius else r
  fillRect (x+r) y (w-2*r) h ++ (fillCircleHelper (x+w-r-1) (y+r) r true false (h-2*r-1) ++
    fillCircleHelper (x+r) (y+r) r false true (h-2*r-1))

/-- The points of one round for the corners named, top left 1 to bottom left 8. -/
def cornerPoints (x0 y0 : ℤ) (cornername : UInt8) (x y : ℤ) : List (ℤ × ℤ) :=
  (if cornername &&& 0x4 ≠ 0 then [(x0+x,y0+y),(x0+y,y0+x)] else []) ++
  (if cornername &&& 0x2 ≠ 0 then [(x0+x,y0-y),(x0+y,y0-x)] else []) ++
  (if cornername &&& 0x8 ≠ 0 then [(x0-y,y0+x),(x0-x,y0+y)] else []) ++
  if cornername &&& 0x1 ≠ 0 then [(x0-y,y0-x),(x0-x,y0-y)] else []

def cornerFrom (x0 y0 : ℤ) (cornername : UInt8) : ℕ → Arc → List (ℤ × ℤ)
  | 0, _ => []
  | rounds+1, a =>
      if a.x < a.y then
        cornerPoints x0 y0 cornername (nextArc a).x (nextArc a).y ++
          cornerFrom x0 y0 cornername rounds (nextArc a)
      else []

def drawCircleHelper (x0 y0 r : ℤ) (cornername : UInt8) : List (ℤ × ℤ) :=
  cornerFrom x0 y0 cornername r.toNat (startArc r)

def drawRoundRect (x y w h r : ℤ) : List (ℤ × ℤ) :=
  let max_radius := (if w < h then w else h).tdiv 2
  let r := if max_radius < r then max_radius else r
  drawFastHLine (x+r) y (w-2*r) ++ drawFastHLine (x+r) (y+h-1) (w-2*r) ++
    (drawFastVLine x (y+r) (h-2*r) ++ drawFastVLine (x+w-1) (y+r) (h-2*r)) ++
    (drawCircleHelper (x+r) (y+r) r 1 ++ drawCircleHelper (x+w-r-1) (y+r) r 2 ++
      drawCircleHelper (x+w-r-1) (y+h-r-1) r 4 ++ drawCircleHelper (x+r) (y+h-r-1) r 8)

theorem max_radius_nonneg {w h : ℤ} (hw : 0 ≤ w) (hh : 0 ≤ h) :
    ¬((if w < h then w else h).tdiv 2 < 0) :=
  not_lt.mpr (Int.tdiv_nonneg (by split <;> omega) (by omega))

theorem drawRoundRect_zero {x y w h : ℤ} (hw : 0 ≤ w) (hh : 0 ≤ h) :
    drawRoundRect x y w h 0 = drawRect x y w h := by
  have hcorner : ∀ x0 y0 cornername, drawCircleHelper x0 y0 0 cornername = [] := fun _ _ _ => rfl
  rw [drawRoundRect, if_neg (max_radius_nonneg hw hh), drawRect]
  simp only [hcorner, List.append_nil, add_zero, mul_zero, sub_zero]

theorem fillRoundRect_zero {x y w h : ℤ} (hw : 0 ≤ w) (hh : 0 ≤ h) :
    fillRoundRect x y w h 0 = fillRect x y w h := by
  have hcorner : ∀ x0 y0 right left delta,
      fillCircleHelper x0 y0 0 right left delta = [] := fun _ _ _ _ _ => rfl
  rw [fillRoundRect, if_neg (max_radius_nonneg hw hh)]
  simp only [hcorner, List.append_nil, add_zero, mul_zero, sub_zero]

theorem lineFrom_flat (steep : Bool) (dx ystep : ℤ) (rounds : ℕ) (x0 y0 : ℤ) {err : ℤ}
    (herr : 0 ≤ err) : lineFrom steep dx 0 ystep rounds x0 y0 err =
      (List.range rounds).map fun k : ℕ => pixelAt steep (x0+k) y0 := by
  induction rounds generalizing x0 with
  | zero => rfl
  | succ rounds ih =>
    rw [lineFrom, if_neg (by omega), sub_zero, ih, List.range_succ_eq_map, List.map_cons,
      List.map_map]
    refine congrArg₂ _ (by simp) (List.map_congr_left fun k _ => ?_)
    simp only [Function.comp_apply, Nat.succ_eq_add_one, Nat.cast_add, Nat.cast_one]
    ring_nf

theorem lineFrom_length (steep : Bool) (dx dy ystep : ℤ) (rounds : ℕ) (x0 y0 err : ℤ) :
    (lineFrom steep dx dy ystep rounds x0 y0 err).length = rounds := by
  induction rounds generalizing x0 y0 err with
  | zero => rfl
  | succ rounds ih =>
    rw [lineFrom, List.length_cons]
    split <;> rw [ih]

/-- After `k` columns the line has risen by `m`, and the error is what is left. -/
theorem lineFrom_get {steep : Bool} {dx dy ystep : ℤ} (hdy : 0 ≤ dy) (hle : dy ≤ dx) {rounds k : ℕ}
    {x0 y0 err : ℤ} (herr : 0 ≤ err) (hlt : err < dx) (hk : k < rounds) :
    ∃ m : ℤ, 0 ≤ m ∧ m ≤ k ∧
      (lineFrom steep dx dy ystep rounds x0 y0 err)[k]? =
        some (pixelAt steep (x0+k) (y0+ystep*m)) ∧
      0 ≤ err - k*dy + m*dx ∧ err - k*dy + m*dx < dx := by
  induction rounds generalizing k x0 y0 err with
  | zero => omega
  | succ rounds ih =>
    rw [lineFrom]
    cases k with
    | zero => exact ⟨0,le_refl 0,le_refl _,by simp,by simpa using herr,by simpa using hlt⟩
    | succ k =>
      rw [List.getElem?_cons_succ]
      split
      · next hneg =>
        obtain ⟨m,hm,hmk,hget,hlow,hhigh⟩ := @ih k (x0+1) (y0+ystep)
          (err-dy+dx) (by omega) (by omega) (by omega)
        refine ⟨m+1,by omega,by push_cast; omega,?_,?_,?_⟩
        · rw [hget]
          push_cast
          ring_nf
        · push_cast
          linarith
        · push_cast
          linarith
      · next hpos =>
        obtain ⟨m,hm,hmk,hget,hlow,hhigh⟩ := @ih k (x0+1) y0 (err-dy)
          (by omega) (by omega) (by omega)
        refine ⟨m,hm,by push_cast; omega,?_,?_,?_⟩
        · rw [hget]
          push_cast
          ring_nf
        · push_cast
          linarith
        · push_cast
          linarith

/-- Two points side by side or corner to corner. -/
def Adjacent (p q : ℤ × ℤ) : Prop := max |q.1-p.1| |q.2-p.2| = 1

instance adjacent_decidable (p q : ℤ × ℤ) : Decidable (Adjacent p q) :=
  inferInstanceAs (Decidable (_ = _))

/-- The points of a straight line: as many as its longer side has, from end to end, each
next to the last, none outside its box and none farther from the line than half a point. -/
structure Straight (l : List (ℤ × ℤ)) (x0 y0 x1 y1 : ℤ) : Prop where
  length : (l.length : ℤ) = max |x1-x0| |y1-y0| + 1
  ends : (l.head? = some (x0,y0) ∧ l.getLast? = some (x1,y1)) ∨
    (l.head? = some (x1,y1) ∧ l.getLast? = some (x0,y0))
  connected : l.IsChain Adjacent
  inBox : ∀ q ∈ l, min x0 x1 ≤ q.1 ∧ q.1 ≤ max x0 x1 ∧ min y0 y1 ≤ q.2 ∧ q.2 ≤ max y0 y1
  near : ∀ q ∈ l, 2*|(q.1-x0)*(y1-y0) - (q.2-y0)*(x1-x0)| ≤ max |x1-x0| |y1-y0|

theorem straight_symm {l : List (ℤ × ℤ)} {x0 y0 x1 y1 : ℤ} (h : Straight l x0 y0 x1 y1) :
    Straight l x1 y1 x0 y0 := by
  refine ⟨?_,h.ends.symm,h.connected,fun q hq => ?_,fun q hq => ?_⟩
  · rw [abs_sub_comm x0 x1, abs_sub_comm y0 y1]
    exact h.length
  · rw [min_comm x1 x0, max_comm x1 x0, min_comm y1 y0, max_comm y1 y0]
    exact h.inBox q hq
  · rw [abs_sub_comm x0 x1, abs_sub_comm y0 y1]
    refine le_of_eq_of_le ?_ (h.near q hq)
    have hneg : (q.1-x1)*(y0-y1) - (q.2-y1)*(x0-x1) =
        -((q.1-x0)*(y1-y0) - (q.2-y0)*(x1-x0)) := by ring
    rw [hneg, abs_neg]

theorem straight_swap {l : List (ℤ × ℤ)} {x0 y0 x1 y1 : ℤ} (h : Straight l x0 y0 x1 y1) :
    Straight (l.map Prod.swap) y0 x0 y1 x1 := by
  refine ⟨?_,?_,?_,fun q hq => ?_,fun q hq => ?_⟩
  · rw [List.length_map, max_comm]
    exact h.length
  · rw [List.head?_map, List.getLast?_map]
    obtain ⟨h1,h2⟩ | ⟨h1,h2⟩ := h.ends
    · exact Or.inl ⟨by rw [h1]; rfl,by rw [h2]; rfl⟩
    · exact Or.inr ⟨by rw [h1]; rfl,by rw [h2]; rfl⟩
  · refine (List.isChain_map _).mpr (h.connected.imp fun p q hpq => ?_)
    rw [Adjacent, max_comm]
    exact hpq
  · obtain ⟨p,hp,rfl⟩ := List.mem_map.mp hq
    obtain ⟨h1,h2,h3,h4⟩ := h.inBox p hp
    exact ⟨h3,h4,h1,h2⟩
  · obtain ⟨p,hp,rfl⟩ := List.mem_map.mp hq
    rw [max_comm]
    refine le_of_eq_of_le ?_ (h.near p hp)
    rw [← abs_neg]
    simp only [Prod.fst_swap, Prod.snd_swap]
    ring_nf

theorem lineFrom_steep (dx dy ystep : ℤ) (rounds : ℕ) (x0 y0 err : ℤ) :
    lineFrom true dx dy ystep rounds x0 y0 err =
      (lineFrom false dx dy ystep rounds x0 y0 err).map Prod.swap := by
  induction rounds generalizing x0 y0 err with
  | zero => rfl
  | succ rounds ih =>
    rw [lineFrom, lineFrom, List.map_cons, apply_ite (List.map Prod.swap)]
    rw [ih, ih]
    rfl

theorem lineFrom_chain {dx dy ystep : ℤ} (hstep : |ystep| = 1) (rounds : ℕ) (x0 y0 err : ℤ) :
    (lineFrom false dx dy ystep rounds x0 y0 err).IsChain Adjacent := by
  have hone : Adjacent (x0,y0) (x0+1,y0) := by simp [Adjacent]
  have htwo : Adjacent (x0,y0) (x0+1,y0+ystep) := by simp [Adjacent, hstep]
  induction rounds generalizing x0 y0 err with
  | zero => exact List.isChain_nil
  | succ rounds ih =>
    rw [lineFrom]
    have hnext : ∀ y' err', Adjacent (x0,y0) (x0+1,y') →
        (pixelAt false x0 y0 :: lineFrom false dx dy ystep rounds (x0+1) y' err').IsChain
          Adjacent := by
      intro y' err' hadj
      have htail := ih (x0+1) y' err' (by simp [Adjacent]) (by simp [Adjacent, hstep])
      cases rounds with
      | zero => exact List.isChain_singleton _
      | succ rounds =>
        rw [lineFrom] at htail ⊢
        exact List.isChain_cons_cons.mpr ⟨hadj,htail⟩
    split
    · exact hnext _ _ htwo
    · exact hnext _ _ hone

/-- A column of a line that is sorted and not steep. -/
theorem sortedLine_get {x0 y0 x1 y1 : ℤ} (hx : x0 ≤ x1) (hy : |y1-y0| ≤ x1-x0) {k : ℕ}
    (hk : k ≤ x1-x0) : ∃ m : ℤ, 0 ≤ m ∧ m ≤ |y1-y0| ∧
      (sortedLine false x0 y0 x1 y1)[k]? =
        some (x0+k,y0 + (if y0 < y1 then 1 else -1)*m) ∧
      2*|k*|y1-y0| - m*(x1-x0)| ≤ x1-x0 ∧ (k = x1-x0 → m = |y1-y0|) := by
  have hdy := abs_nonneg (y1-y0)
  generalize hd : |y1-y0| = dy at hy hdy ⊢
  rw [sortedLine, hd]
  obtain hzero | hpos := (show 0 ≤ x1-x0 by omega).eq_or_lt'
  · have hflat : dy = 0 := by omega
    have hk0 : k = 0 := by omega
    subst hk0
    refine ⟨0,le_refl 0,hdy,?_,by simp [hzero],fun _ => hflat.symm⟩
    rw [hflat, lineFrom_flat _ _ _ _ _ _ (by omega), hzero]
    simp [pixelAt]
  · obtain ⟨m,hm,-,hget,hlow,hhigh⟩ := @lineFrom_get false (x1-x0) dy
      (if y0 < y1 then 1 else -1) hdy hy (x1-x0+1).toNat k x0 y0 ((x1-x0)/2) (by omega) (by omega)
      (by omega)
    have hkd : (k:ℤ)*dy ≤ (x1-x0)*dy := mul_le_mul_of_nonneg_right hk hdy
    have hmle : m ≤ dy := by
      by_contra hgt
      have hmul : (dy+1)*(x1-x0) ≤ m*(x1-x0) :=
        mul_le_mul_of_nonneg_right (by omega) hpos.le
      have hexp : (dy+1)*(x1-x0) = (x1-x0)*dy + (x1-x0) := by ring
      omega
    refine ⟨m,hm,hmle,hget,?_,fun hend => ?_⟩
    · have habs : |(k:ℤ)*dy - m*(x1-x0)| ≤ (x1-x0)/2 := by
        rw [abs_le]
        constructor <;> omega
      omega
    · by_contra hne
      have hmul : (m+1)*(x1-x0) ≤ dy*(x1-x0) :=
        mul_le_mul_of_nonneg_right (by omega) hpos.le
      have hexp : (m+1)*(x1-x0) = m*(x1-x0) + (x1-x0) := by ring
      rw [hend, mul_comm (x1-x0) dy] at hlow
      omega

theorem sortedLine_straight {x0 y0 x1 y1 : ℤ} (hx : x0 ≤ x1) (hy : |y1-y0| ≤ x1-x0) :
    Straight (sortedLine false x0 y0 x1 y1) x0 y0 x1 y1 := by
  have hside : max |x1-x0| |y1-y0| = x1-x0 := by
    rw [abs_of_nonneg (show 0 ≤ x1-x0 by omega), max_eq_left hy]
  have hlength : (sortedLine false x0 y0 x1 y1).length = (x1-x0+1).toNat := lineFrom_length ..
  have hsign : ∀ m : ℤ, 0 ≤ m → m ≤ |y1-y0| →
      min y0 y1 ≤ y0 + (if y0 < y1 then 1 else -1)*m ∧
        y0 + (if y0 < y1 then 1 else -1)*m ≤ max y0 y1 := by
    intro m hm hle
    split
    · rw [abs_of_nonneg (by omega)] at hle
      omega
    · rw [abs_of_nonpos (by omega)] at hle
      omega
  have hmem : ∀ q ∈ sortedLine false x0 y0 x1 y1, ∃ (k : ℕ) (m : ℤ), k ≤ x1-x0 ∧ 0 ≤ m ∧
      m ≤ |y1-y0| ∧ q = (x0+k,y0 + (if y0 < y1 then 1 else -1)*m) ∧
      2*|k*|y1-y0| - m*(x1-x0)| ≤ x1-x0 := by
    intro q hq
    obtain ⟨k,hklt,hkq⟩ := List.getElem_of_mem hq
    have hk : k ≤ x1-x0 := by omega
    obtain ⟨m,hm,hle,hget,hnear,-⟩ := sortedLine_get hx hy hk
    refine ⟨k,m,hk,hm,hle,?_,hnear⟩
    rw [List.getElem?_eq_getElem hklt, hkq] at hget
    exact Option.some.inj hget
  refine ⟨?_,Or.inl ⟨?_,?_⟩,?_,fun q hq => ?_,fun q hq => ?_⟩
  · rw [hside, hlength]
    omega
  · rw [sortedLine, show (x1-x0+1).toNat = (x1-x0).toNat+1 by omega]
    rfl
  · obtain ⟨m,hm,hle,hget,-,hend⟩ := sortedLine_get (k := (x1-x0).toNat) hx hy (by omega)
    rw [List.getLast?_eq_getElem?, hlength, show (x1-x0+1).toNat-1 = (x1-x0).toNat by omega, hget,
      hend (by omega)]
    congr 2
    · omega
    · split
      · rw [abs_of_nonneg (by omega)]
        omega
      · rw [abs_of_nonpos (by omega)]
        omega
  · refine lineFrom_chain ?_ _ _ _ _
    split <;> rfl
  · obtain ⟨k,m,hk,hm,hle,rfl,-⟩ := hmem q hq
    obtain ⟨h1,h2⟩ := hsign m hm hle
    exact ⟨by dsimp only; omega,by dsimp only; omega,h1,h2⟩
  · obtain ⟨k,m,hk,hm,hle,rfl,hnear⟩ := hmem q hq
    rw [hside]
    refine le_of_eq_of_le ?_ hnear
    congr 1
    dsimp only
    split
    · next hup =>
      rw [abs_of_nonneg (show 0 ≤ y1-y0 by omega)]
      ring_nf
    · next hdown =>
      rw [abs_of_nonpos (show y1-y0 ≤ 0 by omega), ← abs_neg]
      ring_nf

theorem writeLine_straight (x0 y0 x1 y1 : ℤ) : Straight (writeLine x0 y0 x1 y1) x0 y0 x1 y1 := by
  have hsteep : ∀ x0 y0 x1 y1, sortedLine true x0 y0 x1 y1 =
      (sortedLine false x0 y0 x1 y1).map Prod.swap := fun x0 y0 x1 y1 => lineFrom_steep ..
  rw [writeLine]
  by_cases h : |x1-x0| < |y1-y0|
  · simp only [h, decide_true, pixelAt, if_true]
    split
    · next hlt =>
      rw [hsteep]
      refine straight_symm (straight_swap (sortedLine_straight (by omega) ?_))
      rw [abs_of_nonpos (show y1-y0 ≤ 0 by omega)] at h
      rw [abs_sub_comm]
      omega
    · next hle =>
      rw [hsteep]
      refine straight_swap (sortedLine_straight (by omega) ?_)
      rw [abs_of_nonneg (show 0 ≤ y1-y0 by omega)] at h
      omega
  · simp only [h, decide_false, pixelAt, Bool.false_eq_true, if_false]
    rw [not_lt] at h
    split
    · next hlt =>
      refine straight_symm (sortedLine_straight (by omega) ?_)
      rw [abs_of_nonpos (show x1-x0 ≤ 0 by omega)] at h
      rw [abs_sub_comm]
      omega
    · next hle =>
      refine sortedLine_straight (by omega) ?_
      rw [abs_of_nonneg (show 0 ≤ x1-x0 by omega)] at h
      omega

theorem mem_sortedLine_flat {steep : Bool} {x0 x1 y : ℤ} (h : x0 ≤ x1) {q : ℤ × ℤ} :
    q ∈ sortedLine steep x0 y x1 y ↔ ∃ x, x0 ≤ x ∧ x ≤ x1 ∧ q = pixelAt steep x y := by
  rw [sortedLine, sub_self, abs_zero, lineFrom_flat _ _ _ _ _ _ (by omega), List.mem_map]
  constructor
  · rintro ⟨k,hk,rfl⟩
    rw [List.mem_range] at hk
    exact ⟨x0+k,by omega,by omega,rfl⟩
  · rintro ⟨x,hle,hge,rfl⟩
    refine ⟨(x-x0).toNat,by rw [List.mem_range]; omega,?_⟩
    rw [show x0 + ((x-x0).toNat:ℤ) = x by omega]

theorem mem_vertical {x y0 y1 : ℤ} {q : ℤ × ℤ} :
    q ∈ writeLine x y0 x y1 ↔ q.1 = x ∧ min y0 y1 ≤ q.2 ∧ q.2 ≤ max y0 y1 := by
  rw [writeLine, sub_self, abs_zero]
  by_cases h : y0 = y1
  · subst h
    simp only [sub_self, abs_zero, lt_self_iff_false, decide_false, pixelAt, Bool.false_eq_true,
      if_false]
    rw [mem_sortedLine_flat (le_refl x)]
    constructor
    · rintro ⟨z,h1,h2,rfl⟩
      dsimp only [pixelAt]
      exact ⟨by simp; omega,by simp,by simp⟩
    · rintro ⟨h1,h2,h3⟩
      exact ⟨x,le_refl x,le_refl x,Prod.ext h1 (by dsimp only [pixelAt]; simp; omega)⟩
  · have hsteep : 0 < |y1-y0| := abs_pos.mpr (by omega)
    simp only [hsteep, decide_true, pixelAt, if_true]
    split
    · next hlt =>
      rw [mem_sortedLine_flat (by omega)]
      simp only [pixelAt, if_true, Prod.ext_iff]
      exact ⟨fun ⟨z,h1,h2,h3,h4⟩ => by omega,fun ⟨h1,h2,h3⟩ => ⟨q.2,by omega,by omega,h1,rfl⟩⟩
    · next hle =>
      rw [mem_sortedLine_flat (by omega)]
      simp only [pixelAt, if_true, Prod.ext_iff]
      exact ⟨fun ⟨z,h1,h2,h3,h4⟩ => by omega,fun ⟨h1,h2,h3⟩ => ⟨q.2,by omega,by omega,h1,rfl⟩⟩

theorem mem_horizontal {x0 x1 y : ℤ} {q : ℤ × ℤ} :
    q ∈ writeLine x0 y x1 y ↔ q.2 = y ∧ min x0 x1 ≤ q.1 ∧ q.1 ≤ max x0 x1 := by
  have hflat : ¬|x1-x0| < |y-y| := by simp
  rw [writeLine]
  simp only [hflat, decide_false, pixelAt, Bool.false_eq_true, if_false]
  split
  · next hlt =>
    rw [mem_sortedLine_flat (by omega)]
    simp only [pixelAt, Bool.false_eq_true, if_false, Prod.ext_iff]
    exact ⟨fun ⟨z,h1,h2,h3,h4⟩ => by omega,fun ⟨h1,h2,h3⟩ => ⟨q.1,by omega,by omega,rfl,h1⟩⟩
  · next hle =>
    rw [mem_sortedLine_flat (by omega)]
    simp only [pixelAt, Bool.false_eq_true, if_false, Prod.ext_iff]
    exact ⟨fun ⟨z,h1,h2,h3,h4⟩ => by omega,fun ⟨h1,h2,h3⟩ => ⟨q.1,by omega,by omega,rfl,h1⟩⟩

def area (x y w h : ℤ) : Set (ℤ × ℤ) := {q | x ≤ q.1 ∧ q.1 < x+w ∧ y ≤ q.2 ∧ q.2 < y+h}

instance area_decidable (x y w h : ℤ) (q : ℤ × ℤ) : Decidable (q ∈ area x y w h) :=
  inferInstanceAs (Decidable (_ ∧ _ ∧ _ ∧ _))

theorem mem_drawFastVLine {x y h : ℤ} (hh : 0 < h) {q : ℤ × ℤ} :
    q ∈ drawFastVLine x y h ↔ q ∈ area x y 1 h := by
  rw [drawFastVLine, mem_vertical, area, Set.mem_ofPred_eq]
  omega

theorem mem_drawFastHLine {x y w : ℤ} (hw : 0 < w) {q : ℤ × ℤ} :
    q ∈ drawFastHLine x y w ↔ q ∈ area x y w 1 := by
  rw [drawFastHLine, mem_horizontal, area, Set.mem_ofPred_eq]
  omega

theorem drawLine_line (x0 y0 x1 y1 : ℤ) : Straight (drawLine x0 y0 x1 y1) x0 y0 x1 y1 := by
  rw [drawLine]
  split
  · next hx =>
    subst hx
    split
    · have h := straight_symm (writeLine_straight x0 y1 x0 y0)
      rwa [drawFastVLine, show y1+(y0-y1+1)-1 = y0 by omega]
    · rw [drawFastVLine, show y0+(y1-y0+1)-1 = y1 by omega]
      exact writeLine_straight ..
  · split
    · next hy =>
      subst hy
      split
      · have h := straight_symm (writeLine_straight x1 y0 x0 y0)
        rwa [drawFastHLine, show x1+(x0-x1+1)-1 = x0 by omega]
      · rw [drawFastHLine, show x0+(x1-x0+1)-1 = x1 by omega]
        exact writeLine_straight ..
    · exact writeLine_straight ..

/-- `drawLine` writes the straight line between its ends. -/
theorem drawLine_straight (x0 y0 x1 y1 : Coordinate) :
    Straight (drawLine x0 y0 x1 y1) x0 y0 x1 y1 :=
  drawLine_line x0 y0 x1 y1

theorem mem_fillRect {x y w h : ℤ} (hh : 0 < h) {q : ℤ × ℤ} :
    q ∈ fillRect x y w h ↔ q ∈ area x y w h := by
  rw [fillRect, List.mem_flatMap]
  simp only [mem_drawFastVLine hh, area, Set.mem_ofPred_eq, List.mem_range]
  constructor
  · rintro ⟨i,hi,h1,h2,h3,h4⟩
    omega
  · rintro ⟨h1,h2,h3,h4⟩
    exact ⟨(q.1-x).toNat,by omega,by omega,by omega,h3,h4⟩

theorem mem_drawRect {x y w h : ℤ} (hw : 0 < w) (hh : 0 < h) {q : ℤ × ℤ} :
    q ∈ drawRect x y w h ↔ q ∈ area x y w h \ area (x+1) (y+1) (w-2) (h-2) := by
  rw [drawRect, List.mem_append, List.mem_append, List.mem_append, mem_drawFastHLine hw,
    mem_drawFastHLine hw, mem_drawFastVLine hh, mem_drawFastVLine hh]
  simp only [area, Set.mem_ofPred_eq, Set.mem_sdiff]
  omega

/-- The arc of radius `r`: `f` measures the middle between the rows of the next
column, and the point lies within half a row of the circle. -/
structure OnArc (r : ℤ) (a : Arc) : Prop where
  ddF_x : a.ddF_x = 2*a.x+1
  ddF_y : a.ddF_y = -2*a.y
  f : a.f = (a.x+1)*(a.x+1) + a.y*a.y - a.y - r*r
  px : a.px = a.x
  py : a.py = a.y
  left : 0 ≤ a.x
  low : 0 ≤ a.y
  high : a.y ≤ r
  outer : r*r ≤ a.x*a.x + a.y*a.y + a.y
  inner : a.x ≤ a.y → a.x*a.x + a.y*a.y - a.y ≤ r*r

theorem startArc_onArc {r : ℤ} (hr : 0 ≤ r) : OnArc r (startArc r) := by
  refine ⟨by simp [startArc],by simp [startArc],?_,rfl,rfl,le_refl 0,hr,le_refl r,?_,
    fun _ => ?_⟩ <;>
    dsimp only [startArc]
  · ring
  · linarith
  · linarith

/-- The next point of an arc that has not come to the diagonal: a column on, and
in the same row or the one below. -/
theorem nextArc_onArc {r : ℤ} {a : Arc} (ha : OnArc r a) (hlt : a.x < a.y) :
    OnArc r { nextArc a with px := (nextArc a).x, py := (nextArc a).y } ∧
      (nextArc a).x = a.x+1 ∧ (nextArc a).px = a.x ∧ (nextArc a).py = a.y ∧
      ((nextArc a).y = a.y ∨
        (nextArc a).y = a.y-1 ∧ r*r ≤ (a.x+1)*(a.x+1) + a.y*a.y - a.y) := by
  obtain ⟨h1,h2,h3,h4,h5,h6,h7,h8,h9,h10⟩ := ha
  have hinner := h10 hlt.le
  rw [nextArc]
  split
  · next hf =>
    refine ⟨⟨?_,?_,?_,rfl,rfl,?_,?_,?_,?_,fun hle => ?_⟩,rfl,h4,h5,Or.inr ⟨rfl,by omega⟩⟩ <;>
      dsimp only at *
    · omega
    · omega
    · rw [h1, h2, h3]
      ring
    · omega
    · omega
    · omega
    · nlinarith
    · nlinarith
  · next hf =>
    refine ⟨⟨?_,?_,?_,rfl,rfl,?_,?_,?_,?_,fun hle => ?_⟩,rfl,h4,h5,Or.inl rfl⟩ <;>
      dsimp only at *
    · omega
    · omega
    · rw [h1, h3]
      ring
    · omega
    · omega
    · omega
    · nlinarith
    · nlinarith

theorem mem_columns {x0 y0 distance half : ℤ} (hhalf : 0 ≤ half) {q : ℤ × ℤ} :
    q ∈ columns x0 y0 true true distance half 1 ↔
      (q.1-x0 = distance ∨ q.1-x0 = -distance) ∧ |q.2-y0| ≤ half := by
  rw [columns, if_pos rfl, if_pos rfl, List.mem_append, mem_drawFastVLine (by omega),
    mem_drawFastVLine (by omega), abs_le]
  simp only [area, Set.mem_ofPred_eq]
  omega

/-- Every point written is inside the circle, give or take half a row. -/
theorem circleFrom_inside {x0 y0 r : ℤ} {rounds : ℕ} {a : Arc} (ha : OnArc r a) {q : ℤ × ℤ}
    (hq : q ∈ circleFrom x0 y0 true true 1 rounds a) :
    (q.1-x0)*(q.1-x0) + (q.2-y0)*(q.2-y0) ≤ r*r + r := by
  have hround : ∀ distance half : ℤ, 0 ≤ half → distance*distance + half*half ≤ r*r + r →
      q ∈ columns x0 y0 true true distance half 1 →
      (q.1-x0)*(q.1-x0) + (q.2-y0)*(q.2-y0) ≤ r*r + r := by
    intro distance half hhalf hle hmem
    obtain ⟨hd,habs⟩ := (mem_columns hhalf).mp hmem
    have hsq : (q.2-y0)*(q.2-y0) ≤ half*half := by
      have habs' : |q.2-y0| ≤ |half| := by rwa [abs_of_nonneg hhalf]
      have := sq_le_sq.mpr habs'
      nlinarith
    obtain hd | hd := hd <;> rw [hd] <;> nlinarith
  induction rounds generalizing a with
  | zero => exact absurd hq List.not_mem_nil
  | succ rounds ih =>
    rw [circleFrom] at hq
    split at hq
    · next hlt =>
      obtain ⟨hnext,hx,hpx,hpy,-⟩ := nextArc_onArc ha hlt
      obtain hq | hq := List.mem_append.mp hq
      · rw [arcColumns] at hq
        obtain hq | hq := List.mem_append.mp hq
        · split at hq
          · have hinner := hnext.inner (by dsimp only; omega)
            have hhigh := hnext.high
            dsimp only at hinner hhigh
            exact hround (nextArc a).x (nextArc a).y hnext.low (by omega) hq
          · exact absurd hq List.not_mem_nil
        · split at hq
          · rw [hpx, hpy] at hq
            have hinner := ha.inner hlt.le
            have hhigh := ha.high
            exact hround _ _ ha.left (by omega) hq
          · exact absurd hq List.not_mem_nil
      · exact ih hnext hq
    · exact absurd hq List.not_mem_nil

/-- Every column from the next one to the diagonal's mirror image is written up to the circle. -/
theorem circleFrom_covers {x0 y0 r : ℤ} {rounds : ℕ} {a : Arc} (ha : OnArc r a)
    (hrounds : a.y-a.x ≤ rounds) {q : ℤ × ℤ} (hlow : a.x < |q.1-x0|) (hhigh : |q.1-x0| ≤ a.y)
    (hq : (q.1-x0)*(q.1-x0) + (q.2-y0)*(q.2-y0) ≤ r*r) :
    q ∈ circleFrom x0 y0 true true 1 rounds a := by
  have hround : ∀ {distance half : ℤ}, 0 ≤ half → |q.1-x0| = distance →
      r*r < distance*distance + (half+1)*(half+1) →
      q ∈ columns x0 y0 true true distance half 1 := by
    intro distance half hhalf hd hlt
    refine (mem_columns hhalf).mpr ⟨?_,?_⟩
    · obtain h | h := abs_choice (q.1-x0) <;> omega
    · by_contra hgt
      rw [not_le] at hgt
      have hsq : (half+1)*(half+1) ≤ (q.2-y0)*(q.2-y0) := by
        have habs : |half+1| ≤ |q.2-y0| := by
          rw [abs_of_nonneg (by omega)]
          omega
        have := sq_le_sq.mpr habs
        nlinarith
      have hd2 : distance*distance = (q.1-x0)*(q.1-x0) := by
        rw [← hd]
        exact abs_mul_abs_self _
      omega
  induction rounds generalizing a with
  | zero => push_cast at hrounds; omega
  | succ rounds ih =>
    have hlt : a.x < a.y := by omega
    obtain ⟨hnext,hx,hpx,hpy,hy⟩ := nextArc_onArc ha hlt
    rw [circleFrom, if_pos hlt, List.mem_append, arcColumns, List.mem_append]
    have houter := hnext.outer
    have hleft := ha.left
    dsimp only at houter
    by_cases hcolumn : |q.1-x0| = (nextArc a).x ∧ (nextArc a).x ≤ (nextArc a).y
    · refine Or.inl (Or.inl ?_)
      rw [if_pos (by omega)]
      refine hround hnext.low hcolumn.1 ?_
      have hlow := hnext.low
      dsimp only at hlow
      nlinarith
    · obtain hy | ⟨hy,hbelow⟩ := hy
      · exact Or.inr (ih hnext (by dsimp only; push_cast at hrounds; omega) (by dsimp only; omega)
          (by dsimp only; omega))
      · by_cases htop : |q.1-x0| = a.y
        · refine Or.inl (Or.inr ?_)
          rw [if_pos (by omega), hpx, hpy]
          exact hround ha.left htop (by linarith)
        · exact Or.inr (ih hnext (by dsimp only; push_cast at hrounds; omega) (by dsimp only; omega)
            (by dsimp only; omega))

/-- `fillCircle` fills the circle: it writes every point inside, and none that
is outside by more than half a row. -/
theorem fillCircle_fills (x0 y0 : Coordinate) {r : Coordinate} (hr : 0 ≤ r.val) (q : ℤ × ℤ) :
    ((q.1-x0)*(q.1-x0) + (q.2-y0)*(q.2-y0) ≤ r*r → q ∈ fillCircle x0 y0 r) ∧
      (q ∈ fillCircle x0 y0 r → (q.1-x0)*(q.1-x0) + (q.2-y0)*(q.2-y0) ≤ r*r + r) := by
  rw [fillCircle, List.mem_append, mem_drawFastVLine (by omega)]
  simp only [area, Set.mem_ofPred_eq]
  refine ⟨fun hin => ?_,fun hq => ?_⟩
  · have hside : |q.1-x0| ≤ r := by
      refine abs_le_of_sq_le_sq ?_ hr
      nlinarith [mul_self_nonneg (q.2-y0)]
    have hheight : |q.2-y0| ≤ r := by
      refine abs_le_of_sq_le_sq ?_ hr
      nlinarith [mul_self_nonneg (q.1-x0)]
    by_cases hcentre : q.1 = x0
    · rw [abs_le] at hheight
      omega
    · refine Or.inr (circleFrom_covers (startArc_onArc hr) ?_ ?_ hside hin)
      · dsimp only [startArc]
        omega
      · dsimp only [startArc]
        exact abs_pos.mpr (by omega)
  · obtain ⟨h1,h2,h3,h4⟩ | hq := hq
    · have hx : q.1-x0 = 0 := by omega
      have hy : |q.2-y0| ≤ |r.val| := by
        rw [abs_of_nonneg hr, abs_le]
        omega
      have := sq_le_sq.mpr hy
      rw [hx]
      nlinarith
    · exact circleFrom_inside (startArc_onArc hr) hq

/-- A circle of radius 2 has the points beside its corners and not the corners. -/
theorem small_circle : (1,2) ∈ fillCircle 0 0 2 ∧ (2,2) ∉ fillCircle 0 0 2 := by
  have hfills := fillCircle_fills ⟨0,by decide⟩ ⟨0,by decide⟩ (r := ⟨2,by decide⟩) (by decide)
  exact ⟨by decide +kernel,fun h => absurd ((hfills (2,2)).2 h) (by decide)⟩

end THue.GfxShapes
