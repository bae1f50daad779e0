import THue.OutputRuns
import THue.WrappingClock
import Mathlib.Data.List.Basic
import Mathlib.Data.Int.Notation
import Mathlib.Tactic.Linarith

/-!
# The touch controller

An interrupt makes `processTouch` read the registers of the controller and fire
events. The start time of a touch is kept in 32 bits; a read that fails leaves
the last report in place, and it is handled once more.
-/

set_option autoImplicit false

namespace THue.TouchPanel
open THue.OutputRuns THue.WrappingClock

inductive TRawEvent where
  | PressDown
  | LiftUp
  | Contact
  | NoEvent
  deriving DecidableEq, Repr

inductive TEvent where
  | None
  | TouchStart
  | TouchMove
  | TouchEnd
  | Tap
  | DragStart
  | DragMove
  | DragEnd
  deriving DecidableEq, Repr

structure TPoint where
  x : UInt16
  y : UInt16
  deriving DecidableEq, Repr

/-- One entry of `_touchX`, `_touchY` and `_touchEvent`. -/
structure Touch where
  x : UInt16 := 0
  y : UInt16 := 0
  event : TRawEvent := .PressDown
  deriving DecidableEq, Repr

/-- What an interrupt meets: the registers, if they can be asked for, and the
clock in microseconds when an age is compared and when a time is kept. -/
structure Report where
  data : Option (Fin 16 → UInt8)
  checked : ℕ
  stored : ℕ

structure FT6X36 where
  rotation : UInt8 := 0
  touchWidth : UInt16 := 0
  touchHeight : UInt16 := 0
  touches : Fin 2 → Touch := fun _ => {}
  touchStartTime : UInt32 := 0
  lastX : UInt16 := 0
  lastY : UInt16 := 0
  dragMode : Bool := false

def maxDeviation : ℤ := 5

def rawEvent (bits : UInt8) : TRawEvent :=
  if bits = 0 then .PressDown else if bits = 1 then .LiftUp
  else if bits = 2 then .Contact else .NoEvent

/-- A point's registers start at `FT6X36_REG_P1_XH` or `FT6X36_REG_P2_XH`. -/
def readTouch (data : Fin 16 → UInt8) (i : Fin 2) : Touch :=
  let xh := data ⟨3+i.val*6,by omega⟩
  let xl := data ⟨4+i.val*6,by omega⟩
  let yh := data ⟨5+i.val*6,by omega⟩
  let yl := data ⟨6+i.val*6,by omega⟩
  { x := (xh &&& 0x0F).toUInt16 <<< 8 ||| xl.toUInt16
    y := (yh &&& 0x0F).toUInt16 <<< 8 ||| yl.toUInt16
    event := rawEvent (xh >>> 6) }

def rotateTouch (rotation : UInt8) (width height : UInt16) (t : Touch) : Touch :=
  if rotation = 1 then { t with x := t.y, y := width - t.x - 1 }
  else if rotation = 2 then { t with x := width - t.x - 1, y := height - t.y - 1 }
  else if rotation = 3 then { t with x := height - t.y - 1, y := t.x }
  else t

def readData (data : Option (Fin 16 → UInt8)) (s : FT6X36) : FT6X36 :=
  match data with
  | none => s
  | some data => { s with
      touches := fun i => rotateTouch s.rotation s.touchWidth s.touchHeight (readTouch data i) }

/-- `esp_timer_get_time()/1000` in an `unsigned long`. -/
def toMillis (micros : ℕ) : UInt32 := UInt32.ofNat (micros/1000)

/-- A contact starts a drag: it is near the last one in a coordinate, and the
start time, read as 64 bits, is more than 300 milliseconds ago. -/
def StartsDrag (checked : ℕ) (s : FT6X36) : Prop :=
  s.dragMode = false ∧
    (|(s.lastX.toNat:ℤ) - (s.touches 0).x.toNat| ≤ maxDeviation ∨
      |(s.lastY.toNat:ℤ) - (s.touches 0).y.toNat| ≤ maxDeviation) ∧
    (s.touchStartTime.toNat:ℤ) + 300 < (checked/1000 : ℕ)

instance startsDrag_decidable (checked : ℕ) (s : FT6X36) : Decidable (StartsDrag checked s) :=
  inferInstanceAs (Decidable (_ ∧ _ ∧ _))

def point (s : FT6X36) : TPoint := ⟨(s.touches 0).x,(s.touches 0).y⟩

def pressDown (r : Report) (s : FT6X36) : FT6X36 × List TEvent :=
  ({ s with dragMode := false, touchStartTime := toMillis r.stored },[.TouchStart])

def contact (r : Report) (s : FT6X36) : FT6X36 × List TEvent :=
  if StartsDrag r.checked s then
    ({ s with dragMode := true, touchStartTime := toMillis r.stored },[.DragStart,.TouchMove])
  else if s.dragMode then
    ({ s with touchStartTime := toMillis r.stored },[.DragMove,.TouchMove])
  else ({ s with touchStartTime := toMillis r.stored },[.TouchMove])

def liftUp (r : Report) (s : FT6X36) : FT6X36 × List TEvent :=
  let ended := if s.dragMode then [TEvent.TouchEnd,.DragEnd] else [.TouchEnd]
  let s := { s with dragMode := false }
  if toMillis r.stored - s.touchStartTime ≤ 900 then
    ({ s with touchStartTime := 0, dragMode := false },ended ++ [.Tap])
  else (s,ended)

def processTouch (s : FT6X36) (r : Report) : FT6X36 × List (TPoint × TEvent) :=
  let s := readData r.data s
  let fired := match (s.touches 0).event with
    | .PressDown => pressDown r s
    | .Contact => contact r s
    | .LiftUp => liftUp r s
    | .NoEvent => (s,[])
  ({ fired.1 with lastX := (s.touches 0).x, lastY := (s.touches 0).y },
    fired.2.map fun e => (point s,e))

def handled (s : FT6X36) (r : Report) : TRawEvent := ((readData r.data s).touches 0).event

theorem readData_frame (data : Option (Fin 16 → UInt8)) (s : FT6X36) :
    readData data s = { s with touches := (readData data s).touches } := by
  cases data <;> rfl

/-- What the events so far amount to: a drag is going on or not. An event that
does not fit has no next state. -/
def watch (dragging : Bool) : TEvent → Option Bool
  | .TouchStart => some false
  | .DragStart => if dragging then none else some true
  | .DragMove => if dragging then some true else none
  | .DragEnd => if dragging then some false else none
  | .Tap => if dragging then none else some false
  | .TouchMove | .TouchEnd => some dragging
  | .None => none

def watchAll (dragging : Bool) : List TEvent → Option Bool
  | [] => some dragging
  | e::es => (watch dragging e).bind fun d => watchAll d es

theorem watchAll_append (dragging : Bool) (es fs : List TEvent) :
    watchAll dragging (es++fs) = (watchAll dragging es).bind fun d => watchAll d fs := by
  induction es generalizing dragging with
  | nil => rfl
  | cons e es ih =>
    rw [List.cons_append, watchAll, watchAll]
    cases watch dragging e with
    | none => rfl
    | some d => exact ih d

theorem processTouch_watched (s : FT6X36) (r : Report) :
    watchAll s.dragMode ((processTouch s r).2.map Prod.snd) =
      some (processTouch s r).1.dragMode := by
  have hdrag : (readData r.data s).dragMode = s.dragMode := by rw [readData_frame]
  rw [← hdrag, processTouch]
  dsimp only
  generalize readData r.data s = t
  rw [List.map_map]
  cases (t.touches 0).event with
  | PressDown => rfl
  | NoEvent => rfl
  | Contact =>
    dsimp only
    rw [contact]
    split
    · next h => rw [h.1]; rfl
    · split
      · next h => rw [h]; rfl
      · next h => rw [Bool.not_eq_true] at h; rw [h]; simp [watchAll, watch]
  | LiftUp =>
    dsimp only
    rw [liftUp]
    cases t.dragMode <;> dsimp only <;> split <;> rfl

/-- In every run drags are well bracketed and no tap falls into one: a drag
starts outside a drag, moves and ends within one, and is only cut short by a
new touch. -/
theorem stream_watched (s : FT6X36) (rs : List Report) :
    watchAll s.dragMode ((run processTouch s rs).2.map Prod.snd) =
      some (run processTouch s rs).1.dragMode := by
  induction rs generalizing s with
  | nil => rfl
  | cons r rs ih =>
    rw [run, List.map_append, watchAll_append, processTouch_watched]
    exact ih _

/-- The controller, and the true time in milliseconds of the last report handled
as a press or a contact since the last tap. -/
structure Traced where
  panel : FT6X36
  since : Option ℕ := none

def Fires (s : FT6X36) (r : Report) (e : TEvent) : Prop := e ∈ (processTouch s r).2.map Prod.snd

instance fires_decidable (s : FT6X36) (r : Report) (e : TEvent) : Decidable (Fires s r e) :=
  inferInstanceAs (Decidable (_ ∈ _))

def trace (s : Traced) (r : Report) : Traced × List (TPoint × TEvent) :=
  ({ panel := (processTouch s.panel r).1
     since := match handled s.panel r with
       | .PressDown | .Contact => some (r.stored/1000)
       | .LiftUp => if Fires s.panel r .Tap then none else s.since
       | .NoEvent => s.since },(processTouch s.panel r).2)

/-- Time does not run backwards, and a touch is less than 2^32 milliseconds old. -/
def Timely (s : Traced) (r : Report) : Prop :=
  ∀ t ∈ s.since, t ≤ r.checked/1000 ∧ r.checked ≤ r.stored ∧ r.stored/1000 < t+2^32

instance timely_decidable (s : Traced) (r : Report) : Decidable (Timely s r) :=
  match h : s.since with
  | none => isTrue (by simp [Timely, h])
  | some t => decidable_of_iff (t ≤ r.checked/1000 ∧ r.checked ≤ r.stored ∧ r.stored/1000 < t+2^32)
      (by simp [Timely, h])

/-- The start time kept is the one of the last press or contact, or 0. -/
def Stamped (s : Traced) : Prop :=
  s.panel.touchStartTime = UInt32.ofNat (s.since.getD 0)

theorem fires_tap (s : FT6X36) (r : Report) : Fires s r .Tap ↔
    handled s r = .LiftUp ∧ toMillis r.stored - s.touchStartTime ≤ 900 := by
  have hstart : (readData r.data s).touchStartTime = s.touchStartTime := by rw [readData_frame]
  rw [Fires, ← hstart, processTouch, handled]
  dsimp only
  generalize readData r.data s = t
  rw [List.map_map]
  cases (t.touches 0).event with
  | PressDown => simp [pressDown]
  | NoEvent => simp
  | Contact =>
    dsimp only
    rw [contact]
    split
    · simp
    · split <;> simp
  | LiftUp =>
    dsimp only
    rw [liftUp]
    cases t.dragMode <;> dsimp only <;> split <;> simp_all

theorem processTouch_start (s : FT6X36) (r : Report) : (processTouch s r).1.touchStartTime =
    match handled s r with
    | .PressDown | .Contact => toMillis r.stored
    | .LiftUp => if Fires s r .Tap then 0 else s.touchStartTime
    | .NoEvent => s.touchStartTime := by
  have hstart : (readData r.data s).touchStartTime = s.touchStartTime := by rw [readData_frame]
  have htap := fires_tap s r
  rw [← hstart] at htap
  simp only [htap]
  rw [← hstart, processTouch, handled]
  dsimp only
  generalize readData r.data s = t
  cases hevent : (t.touches 0).event with
  | PressDown => rfl
  | NoEvent => rfl
  | Contact =>
    dsimp only
    rw [contact]
    split
    · rfl
    · split <;> rfl
  | LiftUp =>
    dsimp only
    rw [liftUp]
    cases t.dragMode <;> dsimp only <;> split <;> simp_all

theorem trace_stamped {s : Traced} {r : Report} (hs : Stamped s) : Stamped (trace s r).1 := by
  rw [Stamped, trace]
  dsimp only
  rw [processTouch_start]
  cases handled s.panel r with
  | PressDown => rfl
  | Contact => rfl
  | NoEvent => exact hs
  | LiftUp =>
    dsimp only
    split
    · rfl
    · exact hs

theorem toMillis_age {micros t : ℕ} (hle : t ≤ micros/1000) (hlt : micros/1000 < t+2^32) :
    toMillis micros - UInt32.ofNat t ≤ 900 ↔ micros/1000 - t ≤ 900 := by
  have helapsed := elapsed (m := 2^32) hle (by omega)
  rw [UInt32.le_iff_toNat_le, UInt32.toNat_sub, toMillis, UInt32.toNat_ofNat', UInt32.toNat_ofNat',
    helapsed]
  rfl

def age (since : Option ℕ) (now : ℕ) : ℕ :=
  match since with
  | some time => now-time
  | none => now % 2^32

/-- A report taps exactly when it lifts the finger at most 0.9 seconds after the
last press or contact. Without one since the last tap, a lift taps in the first
0.9 seconds of each period of the clock. -/
theorem tap_exact {s : Traced} (hs : s.since = none) (hstart : s.panel.touchStartTime = 0)
    {rs : List Report} {r : Report} (hrs : Guarded trace Timely s (rs++[r])) :
    let t := (run trace s rs).1
    Fires t.panel r .Tap ↔ handled t.panel r = .LiftUp ∧ age t.since (r.stored/1000) ≤ 900 := by
  intro t
  obtain ⟨hrun,hlast,-⟩ := guarded_append.mp hrs
  have hstamp : Stamped t := run_keeps (I := Stamped) (fun s r hs _ => trace_stamped hs)
    (by rw [Stamped, hs]; exact hstart) hrun
  rw [fires_tap, hstamp]
  refine and_congr_right fun _ => ?_
  cases hsince : t.since with
  | some time =>
    obtain ⟨hle,horder,hlt⟩ := hlast time hsince
    exact toMillis_age (hle.trans (Nat.div_le_div_right horder)) hlt
  | none =>
    rw [UInt32.le_iff_toNat_le, UInt32.toNat_sub, toMillis, UInt32.toNat_ofNat', age]
    simp

def registers (event : UInt8) : Fin 16 → UInt8 := fun i => if i = 3 then event <<< 6 else 0

/-- A second after boot a press, and a lift half a second later. -/
theorem short_touch_taps :
    Guarded trace Timely { panel := {} } ([⟨some (registers 0),1000000,1000000⟩]++
        [⟨some (registers 1),1500000,1500000⟩]) ∧
      Fires (run trace { panel := {} } [⟨some (registers 0),1000000,1000000⟩]).1.panel
        ⟨some (registers 1),1500000,1500000⟩ .Tap := by
  have hrs : Guarded trace Timely { panel := {} } ([⟨some (registers 0),1000000,1000000⟩]++
      [⟨some (registers 1),1500000,1500000⟩]) := by decide +kernel
  refine ⟨hrs,(tap_exact rfl rfl hrs).mpr ?_⟩
  decide +kernel

end THue.TouchPanel
