import THue.PanelDrawing
import THue.OutputRuns
import Mathlib.Data.List.Range

/-!
# The driver of the panel

The driver sends commands with their data. A full update wakes the panel, sends
the whole buffer and lets it sleep; a partial one sends a window and leaves it
awake. The flags of the driver say when the panel has to be woken.
-/

set_option autoImplicit false

namespace THue.PanelDriver
open THue.PanelBuffer THue.PanelDrawing THue.OutputRuns

inductive Sent where
  | reset
  | command (c : UInt8) (data : List UInt8)
  deriving DecidableEq, Repr

structure Panel extends Display where
  _initial : Bool := true
  _using_partial_mode : Bool := false
  _isAsleep : Bool := false
  _sleep_after_update : Bool := true

def lutBytes (first : List UInt8) (databytes : ℕ) : List UInt8 :=
  first ++ List.replicate (databytes-first.length) 0x00

def lut_20_vcomDC_partial : List UInt8 := lutBytes [0x00,0x00,0x00,0x19,0x01,0x00,0x00,0x01] 44

def lut_21_ww_partial : List UInt8 := lutBytes [0x00,0x19,0x01,0x00,0x00,0x01] 42

def lut_22_bw_partial : List UInt8 := lutBytes [0x80,0x19,0x01,0x00,0x00,0x01] 42

def lut_23_wb_partial : List UInt8 := lutBytes [0x40,0x19,0x01,0x00,0x00,0x01] 42

def lut_24_bb_partial : List UInt8 := lutBytes [0x00,0x19,0x01,0x00,0x00,0x01] 42

def initPartialUpdate : List Sent :=
  [.command 0x00 [0xbf], .command 0x82 [0x08], .command 0x50 [0x17],
    .command 0x20 lut_20_vcomDC_partial, .command 0x21 lut_21_ww_partial,
    .command 0x22 lut_22_bw_partial, .command 0x23 lut_23_wb_partial,
    .command 0x24 lut_24_bb_partial]

def wakeUpCommands : List Sent :=
  [.reset, .command 0x01 [0x03,0x00,0x2b,0x2b], .command 0x06 [0x07,0x07,0x17],
    .command 0x16 [0x00], .command 0x04 [], .command 0x00 [0x1f], .command 0x30 [0x3a],
    .command 0x82 [0x08], .command 0x50 [0x97]]

def _wakeUp (p : Panel) : Panel × List Sent := ({ p with _isAsleep := false },wakeUpCommands)

def _sleep (p : Panel) : Panel × List Sent :=
  ({ p with _isAsleep := true },[.command 0x02 [], .command 0x07 [0xa5]])

def pixelByte (p : Panel) (idx : ℕ) : UInt8 :=
  ~~~(if h : idx < GDEW027W3_BUFFER_SIZE then p.buffer ⟨idx,h⟩ else 0x00)

def frameBytes (p : Panel) : List UInt8 := (List.range GDEW027W3_BUFFER_SIZE).map (pixelByte p)

def update (p : Panel) : Panel × List Sent :=
  let (p,woken) := _wakeUp p
  let p := { p with _using_partial_mode := false }
  let first : List Sent := if p._initial then
    [.command 0x10 (List.replicate GDEW027W3_BUFFER_SIZE 0xFF)] else []
  let p := { p with _initial := false }
  let frame : List Sent :=
    [.command 0x13 (frameBytes p), .command 0x12 [], .command 0x10 (frameBytes p)]
  let (p,slept) := if p._sleep_after_update then _sleep p else (p,[])
  (p,woken ++ (first ++ (frame ++ slept)))

def wordBytes (n : UInt16) (mask : UInt16) : List UInt8 := [(n >>> 8).toUInt8,(n &&& mask).toUInt8]

def areaBytes (x y xe ye : UInt16) : List UInt8 :=
  wordBytes x 0xf8 ++ (wordBytes y 0xff ++ (wordBytes xe 0xf8 ++ wordBytes ye 0xff))

def gx_uint16_min (a b : UInt16) : UInt16 := if a < b then a else b

def WIDTH : UInt16 := 176

def HEIGHT : UInt16 := 264

def _rotate (r : Rotation) (x y w h : UInt16) : UInt16 × UInt16 × UInt16 × UInt16 :=
  match r with
  | 0 => (x,y,w,h)
  | 1 => (WIDTH-y-h-1,x,h,w)
  | 2 => (WIDTH-x-w-1,HEIGHT-y-h-1,w,h)
  | 3 => (y,HEIGHT-x-w-1,h,w)

def windowBytes (p : Panel) (xs ys w h : UInt16) : List UInt8 :=
  (List.range h.toNat).flatMap fun i : ℕ => (List.range (w.toNat/8)).map fun j : ℕ =>
    pixelByte p ((ys.toNat+i)*(GDEW027W3_WIDTH/8) + (xs.toNat/8+j))

/-- Nothing is sent for a window that starts outside the panel; one that leaves it is cut off. -/
def _writeToWindow (p : Panel) (command : UInt8) (xs ys xd yd w h : UInt16) : List Sent :=
  if WIDTH ≤ xs then []
  else if HEIGHT ≤ ys then []
  else if WIDTH ≤ xd then []
  else if HEIGHT ≤ yd then []
  else
    let w := gx_uint16_min (w+7) (WIDTH-xd) + xd%8
    let h := gx_uint16_min h (HEIGHT-yd)
    [.command 0x91 [],.command command (areaBytes xd yd w h ++ windowBytes p xs ys w h)]

def _refreshWindow (x y w h : UInt16) : List Sent :=
  [.command 0x16 (areaBytes x y (w+(x%8+7)) (gx_uint16_min h 256))]

def updateWindow (x y w h : UInt16) (using_rotation : Bool) (p : Panel) : Panel × List Sent :=
  let (x,y,w,h) := if using_rotation then _rotate p.rotation x y w h else (x,y,w,h)
  let (p,woken) := if p._using_partial_mode = false ∨ p._isAsleep = true then _wakeUp p else (p,[])
  let p := { p with _using_partial_mode := true }
  (p,woken ++ (initPartialUpdate ++ (_writeToWindow p 0x15 x y x y w h ++
    (_refreshWindow x y w h ++ _writeToWindow p 0x14 x y x y w h))))

def fillScreen (color : UInt16) (d : Display) : Display :=
  { d with buffer := fun _ => if color = EPD_BLACK then 0xFF else 0x00 }

/-- What the program does with the panel. -/
inductive Call where
  | draw (ps : List Pixel)
  | fillScreen (color : UInt16)
  | update
  | updateWindow (x y w h : UInt16) (using_rotation : Bool)

def step (p : Panel) : Call → Panel × List Sent
  | .draw ps => ({ p with toDisplay := drawAll ps p.toDisplay },[])
  | .fillScreen color => ({ p with toDisplay := fillScreen color p.toDisplay },[])
  | .update => update p
  | .updateWindow x y w h using_rotation => updateWindow x y w h using_rotation p

/-- The panel as its commands leave it: off after a reset, on after 0x04, off
again after 0x02, and in deep sleep after 0x07, from which only a reset wakes it. -/
inductive Power where
  | off | on | deep
  deriving DecidableEq, Repr

/-- Pictures are sent and shown only while the power is on; 0x16 shows one if
an area comes with it, and is a setting otherwise. -/
def needsPower (c : UInt8) (data : List UInt8) : Bool :=
  c ∈ [0x10,0x12,0x13,0x14,0x15,0x91] ∨ c = 0x16 ∧ data.length = 8

def takes : Power → Sent → Option Power
  | _, .reset => some .off
  | .deep, .command _ _ => none
  | .on, .command c _ => if c = 0x02 then some .off else if c = 0x07 then none else some .on
  | .off, .command c data =>
      if c = 0x04 then some .on
      else if c = 0x07 then some .deep
      else if needsPower c data then none
      else some .off

theorem wakeUp_powers (s : Power) : watch takes s wakeUpCommands = some .on := by
  cases s <;> decide

theorem initPartialUpdate_powered : watch takes .on initPartialUpdate = some .on := by decide

theorem writeToWindow_powered (p : Panel) {command : UInt8} (hc : command = 0x15 ∨ command = 0x14)
    (xs ys xd yd w h : UInt16) :
    watch takes .on (_writeToWindow p command xs ys xd yd w h) = some .on := by
  rw [_writeToWindow]
  split_ifs
  all_goals try rfl
  obtain rfl | rfl := hc <;> rfl

structure Known (p : Panel) (s : Power) : Prop where
  asleep : p._isAsleep = true ↔ s = .deep
  awake : p._using_partial_mode = true → p._isAsleep = false → s = .on

theorem update_known (p : Panel) (s : Power) :
    ∃ s', watch takes s (update p).2 = some s' ∧ Known (update p).1 s' := by
  have hsent : ∀ first frame : List UInt8, watch takes .on
      [.command 0x10 first,.command 0x13 frame,.command 0x12 [],.command 0x10 frame] = some .on :=
    fun _ _ => rfl
  have hframe : ∀ frame : List UInt8, watch takes .on
      [.command 0x13 frame,.command 0x12 [],.command 0x10 frame] = some .on := fun _ => rfl
  rw [update]
  dsimp only [_wakeUp]
  rw [watch_append, wakeUp_powers, Option.bind_some]
  cases hfirst : p._initial <;> cases hsleep : p._sleep_after_update
  · exact ⟨.on,hframe _,⟨iff_of_false Bool.false_ne_true (by decide),fun h => absurd h (by simp)⟩⟩
  · exact ⟨.deep,rfl,⟨iff_of_true rfl rfl,fun _ h => absurd h (by simp [_sleep])⟩⟩
  · exact ⟨.on,hsent _ _,⟨iff_of_false Bool.false_ne_true (by decide),fun h => absurd h (by simp)⟩⟩
  · exact ⟨.deep,rfl,⟨iff_of_true rfl rfl,fun _ h => absurd h (by simp [_sleep])⟩⟩

theorem updateWindow_known (x y w h : UInt16) (using_rotation : Bool) {p : Panel} {s : Power}
    (hs : Known p s) : ∃ s', watch takes s (updateWindow x y w h using_rotation p).2 = some s' ∧
      Known (updateWindow x y w h using_rotation p).1 s' := by
  have hwindow : ∀ (p : Panel) (x y w h : UInt16), watch takes .on
      (initPartialUpdate ++ (_writeToWindow p 0x15 x y x y w h ++
        (_refreshWindow x y w h ++ _writeToWindow p 0x14 x y x y w h))) = some .on := by
    intro p x y w h
    rw [watch_append, initPartialUpdate_powered, Option.bind_some, watch_append,
      writeToWindow_powered p (Or.inl rfl), Option.bind_some, watch_append]
    exact writeToWindow_powered p (Or.inr rfl) ..
  refine ⟨.on,?_,?_⟩
  · rw [updateWindow]
    dsimp only
    by_cases hwake : p._using_partial_mode = false ∨ p._isAsleep = true
    · rw [if_pos hwake, watch_append]
      dsimp only [_wakeUp]
      rw [wakeUp_powers, Option.bind_some]
      exact hwindow ..
    · rw [if_neg hwake]
      simp only [not_or, Bool.not_eq_false, Bool.not_eq_true] at hwake
      rw [hs.awake hwake.1 hwake.2]
      exact hwindow ..
  · have hawake : (updateWindow x y w h using_rotation p).1._isAsleep = false := by
      rw [updateWindow]
      dsimp only
      by_cases hwake : p._using_partial_mode = false ∨ p._isAsleep = true
      · rw [if_pos hwake]
        rfl
      · rw [if_neg hwake]
        simp only [not_or, Bool.not_eq_false, Bool.not_eq_true] at hwake
        exact hwake.2
    exact ⟨by simp [hawake],fun _ _ => rfl⟩

theorem step_known (p : Panel) (s : Power) (c : Call) (hs : Known p s) :
    ∃ s', watch takes s (step p c).2 = some s' ∧ Known (step p c).1 s' := by
  cases c with
  | draw ps => exact ⟨s,rfl,hs.asleep,hs.awake⟩
  | fillScreen color => exact ⟨s,rfl,hs.asleep,hs.awake⟩
  | update => exact update_known p s
  | updateWindow x y w h using_rotation => exact updateWindow_known x y w h using_rotation hs

/-- Whatever is drawn and shown in whatever order, the panel can take everything it is sent:
it is woken before a picture is sent to it, and in deep sleep it is only reset. The driver
knows whether it sleeps. -/
theorem power_held (d : Display) (calls : List Call) :
    ∃ s, watch takes .off (run step { toDisplay := d } calls).2 = some s ∧
      ((run step { toDisplay := d } calls).1._isAsleep = true ↔ s = .deep) := by
  have hboot : Known { toDisplay := d } .off :=
    ⟨by simp,fun h => absurd h Bool.false_ne_true⟩
  obtain ⟨s,htaken,hknown⟩ := watch_run (fun p s c hs _ => step_known p s c hs) hboot
    (guarded_true step _ calls)
  exact ⟨s,htaken,hknown.asleep⟩

end THue.PanelDriver
