import THue.Pages
import THue.TouchPanel
import THue.PanelBuffer

/-!
# From the touch controller to the pages

`touchLoop` has the controller process a report, and the events it fires go to
`touchEvent`, which acts on taps alone. The device so driven is refined by the
pages under touches: a run of reports acts as the run of its taps.
-/

set_option autoImplicit false

namespace THue.PanelTouches
open THue.Globals THue.FaultRun THue.Pages THue.TouchPanel THue.PanelBuffer

/-- A report, and what the handler it may call meets. -/
structure Interrupt where
  report : Report
  answers : Answers := {}

/-- A coordinate of the controller as the `int16_t` that `onTouchEvent` takes. -/
def coordinate (v : UInt16) : ℤ := v.toInt16.toInt

def touchEvent (a : Answers) (p : TPoint) (s : Eink) : TEvent → Except Fault Eink
  | .Tap => touch a (coordinate p.x) (coordinate p.y) s
  | .DragStart | .DragMove | .DragEnd => .ok s
  | .None | .TouchStart | .TouchMove | .TouchEnd => .ok s

def deliver (a : Answers) : List (TPoint × TEvent) → Eink → Except Fault Eink
  | [], s => .ok s
  | (p,e)::es, s => touchEvent a p s e >>= deliver a es

structure Touched where
  panel : FT6X36
  eink : Eink

def touchLoop (d : Touched) (i : Interrupt) : Except Fault Touched := do
  let s ← deliver i.answers (processTouch d.panel i.report).2 d.eink
  pure { panel := (processTouch d.panel i.report).1, eink := s }

def tapsOf (a : Answers) (es : List (TPoint × TEvent)) : List Move :=
  es.filterMap fun m => if m.2 = .Tap then some (.touch a (coordinate m.1.x) (coordinate m.1.y))
    else none

def taps : FT6X36 → List Interrupt → List Move
  | _, [] => []
  | p, i::is =>
      tapsOf i.answers (processTouch p i.report).2 ++ taps (processTouch p i.report).1 is

theorem deliver_taps (a : Answers) (es : List (TPoint × TEvent)) (s : Eink) :
    deliver a es s = run Pages.step s (tapsOf a es) := by
  induction es generalizing s with
  | nil => rfl
  | cons m es ih =>
    obtain ⟨p,e⟩ := m
    rw [deliver, tapsOf, List.filterMap_cons]
    have hrest : deliver a es = fun t => run Pages.step t (tapsOf a es) := funext ih
    by_cases he : e = .Tap
    · subst he
      rw [hrest]
      rfl
    · rw [if_neg he]
      have hok : touchEvent a p s e = .ok s := by
        cases e <;> first | rfl | exact absurd rfl he
      rw [hok, hrest]
      rfl

/-- The taps that one report fires lie at its point, and there is one at most,
when the finger is lifted. -/
theorem tapsOf_report (a : Answers) (p : FT6X36) (r : Report) :
    tapsOf a (processTouch p r).2 = if Fires p r .Tap then
      [.touch a (coordinate (point (readData r.data p)).x)
        (coordinate (point (readData r.data p)).y)]
      else [] := by
  have htap := fires_tap p r
  have hstart : (readData r.data p).touchStartTime = p.touchStartTime := by rw [readData_frame]
  rw [← hstart, handled] at htap
  simp only [htap]
  rw [processTouch, tapsOf]
  dsimp only
  generalize readData r.data p = t
  rw [List.filterMap_map]
  cases (t.touches 0).event with
  | PressDown => simp [pressDown]
  | NoEvent => simp
  | Contact =>
    dsimp only
    rw [contact]
    split
    · simp
    · split <;> simp
  | LiftUp =>
    dsimp only
    rw [liftUp]
    cases t.dragMode <;> dsimp only <;> split <;> simp_all

theorem tapsOf_length (a : Answers) (p : FT6X36) (r : Report) :
    (tapsOf a (processTouch p r).2).length ≤
      (processTouch p r).2.countP (fun m => m.2 = .TouchEnd) := by
  rw [tapsOf_report]
  split
  · next htap =>
    have hlift := ((fires_tap p r).mp htap).1
    have hend : (point (readData r.data p),TEvent.TouchEnd) ∈ (processTouch p r).2 := by
      rw [handled] at hlift
      rw [processTouch]
      dsimp only
      rw [hlift]
      dsimp only
      rw [liftUp]
      cases (readData r.data p).dragMode <;> dsimp only <;> split <;> simp
    exact List.countP_pos_iff.mpr ⟨_,hend,by simp⟩
  · exact Nat.zero_le _

def panelAfter (p : FT6X36) (is : List Interrupt) : FT6X36 :=
  (OutputRuns.run processTouch p (is.map Interrupt.report)).1

theorem touchLoop_run (p : FT6X36) (s : Eink) (is : List Interrupt) :
    run touchLoop { panel := p, eink := s } is = (do
      let t ← run Pages.step s (taps p is)
      pure { panel := panelAfter p is, eink := t }) := by
  induction is generalizing p s with
  | nil => rfl
  | cons i is ih =>
    rw [run, touchLoop, taps, run_append, deliver_taps]
    cases hrun : run Pages.step s (tapsOf i.answers (processTouch p i.report).2) with
    | error e => rfl
    | ok t => exact ih _ t

/-- A run of reports leaves the pages as the run of its taps does, and faults where that
faults; it has no more taps than touches that end. -/
theorem reports_refine (p : FT6X36) (s : Eink) (is : List Interrupt) :
    run touchLoop { panel := p, eink := s } is = (do
      let t ← run Pages.step s (taps p is)
      pure { panel := panelAfter p is, eink := t }) ∧
    (taps p is).length ≤ (OutputRuns.run processTouch p (is.map Interrupt.report)).2.countP
      (fun m => m.2 = .TouchEnd) := by
  refine ⟨touchLoop_run p s is,?_⟩
  induction is generalizing p with
  | nil => exact Nat.zero_le _
  | cons i is ih =>
    rw [taps, List.length_append, List.map_cons, OutputRuns.run, List.countP_append]
    exact Nat.add_le_add (tapsOf_length _ _ _) (ih _)

/-- The display and the controller turn together; a number that is no quarter turn is refused. -/
def displayRotation (s : Display × FT6X36) (rotation : UInt8) : Display × FT6X36 :=
  if 3 < rotation then s
  else ({ s.1 with rotation := ⟨(rotation &&& 3).toNat%4,Nat.mod_lt _ (by decide)⟩ },
    { s.2 with rotation := rotation })

/-- The controller's rotation is the display's, and its sides are the panel's. -/
structure Aligned (s : Display × FT6X36) : Prop where
  rotation : s.2.rotation = UInt8.ofNat s.1.rotation
  width : s.2.touchWidth = 176
  height : s.2.touchHeight = 264

theorem displayRotation_aligned {s : Display × FT6X36} (hs : Aligned s) (rotation : UInt8) :
    Aligned (displayRotation s rotation) := by
  rw [displayRotation]
  split
  · exact hs
  · next hle =>
    refine ⟨?_,hs.width,hs.height⟩
    have hall : ∀ n : Fin 4, (UInt8.ofNat n : UInt8) =
        UInt8.ofNat ((UInt8.ofNat n &&& 3).toNat%4) := by decide
    have hlt : rotation.toNat < 4 := by
      rw [UInt8.lt_iff_toNat_lt] at hle
      have h3 : (3:UInt8).toNat = 3 := rfl
      omega
    have h := hall ⟨rotation.toNat,hlt⟩
    dsimp only at h
    rwa [UInt8.ofNat_toNat] at h

theorem displayRotations_aligned {s : Display × FT6X36} (hs : Aligned s) (ns : List UInt8) :
    Aligned (ns.foldl displayRotation s) := by
  induction ns generalizing s with
  | nil => exact hs
  | cons n ns ih => exact ih (displayRotation_aligned hs n)

/-- A touch on the panel, turned as the controller turns it. -/
theorem rotateTouch_rotated (r : Rotation) {t : Touch} (hx : t.x < 176) (hy : t.y < 264) :
    Inside r (rotateTouch (UInt8.ofNat r) 176 264 t).x.toNat
        (rotateTouch (UInt8.ofNat r) 176 264 t).y.toNat ∧
      rotated r (rotateTouch (UInt8.ofNat r) 176 264 t).x.toNat
        (rotateTouch (UInt8.ofNat r) 176 264 t).y.toNat = ((t.x.toNat:ℤ),(t.y.toNat:ℤ)) := by
  rw [UInt16.lt_iff_toNat_lt, show (176:UInt16).toNat = 176 from rfl] at hx
  rw [UInt16.lt_iff_toNat_lt, show (264:UInt16).toNat = 264 from rfl] at hy
  have hleft : (176-t.x-1 : UInt16).toNat = 175-t.x.toNat := by
    rw [UInt16.toNat_sub, UInt16.toNat_sub, UInt16.toNat_one,
      show (176:UInt16).toNat = 176 from rfl]
    omega
  have htop : (264-t.y-1 : UInt16).toNat = 263-t.y.toNat := by
    rw [UInt16.toNat_sub, UInt16.toNat_sub, UInt16.toNat_one,
      show (264:UInt16).toNat = 264 from rfl]
    omega
  obtain rfl | rfl | rfl | rfl := rotation_cases r
  · rw [show rotateTouch (UInt8.ofNat (0:Rotation)) 176 264 t = t from rfl]
    exact ⟨⟨by omega,Int.ofNat_lt.mpr hx,by omega,Int.ofNat_lt.mpr hy⟩,rfl⟩
  · rw [show rotateTouch (UInt8.ofNat (1:Rotation)) 176 264 t =
      { t with x := t.y, y := 176-t.x-1 } from rfl]
    dsimp only
    rw [hleft]
    refine ⟨⟨by omega,Int.ofNat_lt.mpr hy,by omega,
      Int.ofNat_lt.mpr (show 175-t.x.toNat < 176 by omega)⟩,Prod.ext ?_ rfl⟩
    dsimp only [rotated, GDEW027W3_WIDTH]
    omega
  · rw [show rotateTouch (UInt8.ofNat (2:Rotation)) 176 264 t =
      { t with x := 176-t.x-1, y := 264-t.y-1 } from rfl]
    dsimp only
    rw [hleft, htop]
    refine ⟨⟨by omega,Int.ofNat_lt.mpr ?_,by omega,Int.ofNat_lt.mpr ?_⟩,Prod.ext ?_ ?_⟩ <;>
      dsimp only [rotated, width, height, GDEW027W3_WIDTH, GDEW027W3_HEIGHT] <;> omega
  · rw [show rotateTouch (UInt8.ofNat (3:Rotation)) 176 264 t =
      { t with x := 264-t.y-1, y := t.x } from rfl]
    dsimp only
    rw [htop]
    refine ⟨⟨by omega,Int.ofNat_lt.mpr (show 263-t.y.toNat < 264 by omega),by omega,
      Int.ofNat_lt.mpr hx⟩,Prod.ext rfl ?_⟩
    dsimp only [rotated, GDEW027W3_HEIGHT]
    omega

/-- Whatever rotations were asked for, a touch on the panel is reported as the point of the
display whose colour is drawn where the finger is. -/
theorem touch_on_pixel {s : Display × FT6X36} (hs : Aligned s) (ns : List UInt8) {t : Touch}
    (hx : t.x < 176) (hy : t.y < 264) :
    let turned := ns.foldl displayRotation s
    let u := rotateTouch turned.2.rotation turned.2.touchWidth turned.2.touchHeight t
    Inside turned.1.rotation u.x.toNat u.y.toNat ∧
      rotated turned.1.rotation u.x.toNat u.y.toNat = ((t.x.toNat:ℤ),(t.y.toNat:ℤ)) := by
  obtain ⟨hrotation,hwidth,hheight⟩ := displayRotations_aligned hs ns
  dsimp only
  rw [hrotation, hwidth, hheight]
  exact rotateTouch_rotated _ hx hy

/-- The display upside down, and a number refused. -/
theorem upside_down_on_pixel :
    rotated 2 (rotateTouch 2 176 264 { x := 10, y := 20 }).x.toNat
      (rotateTouch 2 176 264 { x := 10, y := 20 }).y.toNat = (10,20) :=
  (touch_on_pixel (s := ({ buffer := fun _ => 0 },{ touchWidth := 176, touchHeight := 264 }))
    ⟨rfl,rfl,rfl⟩ [2,9] (t := { x := 10, y := 20 }) (by decide) (by decide)).2

end THue.PanelTouches
