import THue.Entertainment

/-!
# The plus and minus buttons of the edit pages

Each press changes one setting. A speed press also writes the delay of its
behavior; a count press leaves the behavior to the task it starts.
-/

set_option autoImplicit false

namespace THue.BehaviorSettings
open THue.Globals THue.Entertainment

inductive Setting where
  | incrementBlinkingLightsSpeed
  | decrementBlinkingLightsSpeed
  | incrementBlinkingLightsCount
  | decrementBlinkingLightsCount
  | incrementAlarmDuration
  | decrementAlarmDuration
  | incrementAlarmFlashCount
  | decrementAlarmFlashCount
  | incrementFestSpeed
  | decrementFestSpeed
  deriving DecidableEq, Repr

def setDelay (k : Fin 20) (delay : ℤ) (p : Play) : Play :=
  { p with behaviors := Function.update p.behaviors k { p.behaviors k with delay := delay } }

def incrementBlinkingLightsSpeed (p : Play) : Play :=
  let d := p.blinkingLightsDelay + 1000
  setDelay 0 (d.tdiv 10) { p with blinkingLightsDelay := d }

def decrementBlinkingLightsSpeed (p : Play) : Play :=
  let d := if 1000 < p.blinkingLightsDelay then p.blinkingLightsDelay - 1000
    else p.blinkingLightsDelay
  setDelay 0 (d.tdiv 10) { p with blinkingLightsDelay := d }

def incrementBlinkingLightsCount (p : Play) : Play :=
  { p with blinkingLightsEntries := p.blinkingLightsEntries + 10 }

def decrementBlinkingLightsCount (p : Play) : Play :=
  if 10 < p.blinkingLightsEntries then
    { p with blinkingLightsEntries := p.blinkingLightsEntries - 10 }
  else p

def incrementAlarmDuration (p : Play) : Play :=
  let d := p.alarmDelay + 10000
  setDelay 1 (d.tdiv 10) { p with alarmDelay := d }

/-- The test is against 1000, the step is 10000. -/
def decrementAlarmDuration (p : Play) : Play :=
  let d := if 1000 < p.alarmDelay then p.alarmDelay - 10000 else p.alarmDelay
  setDelay 1 (d.tdiv 10) { p with alarmDelay := d }

def incrementAlarmFlashCount (p : Play) : Play := { p with alarmEntries := p.alarmEntries + 10 }

def decrementAlarmFlashCount (p : Play) : Play :=
  if 10 < p.alarmEntries then { p with alarmEntries := p.alarmEntries - 10 } else p

def incrementFestSpeed (p : Play) : Play :=
  let d := p.festDelay + 1
  setDelay 2 (((1000:ℤ).tdiv d).tdiv 10) { p with festDelay := d }

def decrementFestSpeed (p : Play) : Play :=
  let d := if 1 < p.festDelay then p.festDelay - 1 else p.festDelay
  setDelay 2 (((1000:ℤ).tdiv d).tdiv 10) { p with festDelay := d }

def press : Setting → Play → Play
  | .incrementBlinkingLightsSpeed => incrementBlinkingLightsSpeed
  | .decrementBlinkingLightsSpeed => decrementBlinkingLightsSpeed
  | .incrementBlinkingLightsCount => incrementBlinkingLightsCount
  | .decrementBlinkingLightsCount => decrementBlinkingLightsCount
  | .incrementAlarmDuration => incrementAlarmDuration
  | .decrementAlarmDuration => decrementAlarmDuration
  | .incrementAlarmFlashCount => incrementAlarmFlashCount
  | .decrementAlarmFlashCount => decrementAlarmFlashCount
  | .incrementFestSpeed => incrementFestSpeed
  | .decrementFestSpeed => decrementFestSpeed

theorem decrementBlinkingLightsCount_with (p : Play) :
    ∃ n, decrementBlinkingLightsCount p = { p with blinkingLightsEntries := n } := by
  rw [decrementBlinkingLightsCount]
  split
  · exact ⟨_,rfl⟩
  · exact ⟨_,rfl⟩

theorem decrementAlarmFlashCount_with (p : Play) :
    ∃ n, decrementAlarmFlashCount p = { p with alarmEntries := n } := by
  rw [decrementAlarmFlashCount]
  split
  · exact ⟨_,rfl⟩
  · exact ⟨_,rfl⟩

theorem setDelay_behaviors (k : Fin 20) (delay : ℤ) (p : Play) (j : Fin 20) :
    ∃ d, (setDelay k delay p).behaviors j = { p.behaviors j with delay := d } := by
  by_cases hj : j = k
  · subst hj
    exact ⟨delay,by simp [setDelay]⟩
  · exact ⟨(p.behaviors j).delay,by simp [setDelay, hj]⟩

/-- No press opens a behavior page or touches what a run is bound to. -/
theorem press_keeps (e : Setting) (p : Play) :
    (press e p).lastBehaviorId = p.lastBehaviorId ∧
      (press e p).behaviorCount = p.behaviorCount ∧
      ∀ j, ∃ d, (press e p).behaviors j = { p.behaviors j with delay := d } := by
  cases e with
  | incrementBlinkingLightsCount => exact ⟨rfl,rfl,fun j => ⟨_,rfl⟩⟩
  | incrementAlarmFlashCount => exact ⟨rfl,rfl,fun j => ⟨_,rfl⟩⟩
  | decrementBlinkingLightsCount =>
    obtain ⟨n,hn⟩ := decrementBlinkingLightsCount_with p
    rw [press, hn]
    exact ⟨rfl,rfl,fun j => ⟨_,rfl⟩⟩
  | decrementAlarmFlashCount =>
    obtain ⟨n,hn⟩ := decrementAlarmFlashCount_with p
    rw [press, hn]
    exact ⟨rfl,rfl,fun j => ⟨_,rfl⟩⟩
  | incrementBlinkingLightsSpeed =>
    simp only [press, incrementBlinkingLightsSpeed]
    exact ⟨rfl,rfl,setDelay_behaviors _ _ _⟩
  | decrementBlinkingLightsSpeed =>
    simp only [press, decrementBlinkingLightsSpeed]
    exact ⟨rfl,rfl,setDelay_behaviors _ _ _⟩
  | incrementAlarmDuration =>
    simp only [press, incrementAlarmDuration]
    exact ⟨rfl,rfl,setDelay_behaviors _ _ _⟩
  | decrementAlarmDuration =>
    simp only [press, decrementAlarmDuration]
    exact ⟨rfl,rfl,setDelay_behaviors _ _ _⟩
  | incrementFestSpeed =>
    simp only [press, incrementFestSpeed]
    exact ⟨rfl,rfl,setDelay_behaviors _ _ _⟩
  | decrementFestSpeed =>
    simp only [press, decrementFestSpeed]
    exact ⟨rfl,rfl,setDelay_behaviors _ _ _⟩

end THue.BehaviorSettings
