import THue.LogDelivery
import THue.WrappingClock

/-!
# The throttle of the user action log

True time runs beside the 32-bit clock that a call reads. The throttle adds a
second to the reading it kept, so it is exact as long as a call lies in the
same period of the clock as the end of that second.
-/

set_option autoImplicit false

namespace THue.LogThrottle
open THue.Firebase THue.FaultRun THue.WrappingClock

/-- `millis()`: the true time in milliseconds, in 32 bits. -/
def millis (time : ℕ) : UInt32 := UInt32.ofNat time

/-- The channel, the true times of the last call and of the last accepted one; boot is at 0. -/
structure Timed where
  channel : LogDelivery.Channel := {}
  now : ℕ := 0
  last : ℕ := 0

/-- A call of one of the overloads at a true time, or a step of the other parties. -/
inductive Move where
  | call (time : ℕ) (a : Action)
  | start (interaction action context what : String)
  | startPush
  | consume

def step (s : Timed) : Move → Except Unit Timed
  | .call time a => do
      let channel ← LogDelivery.step s.channel (.append (millis time) a)
      pure { channel := channel
             now := time
             last := if passes (millis time) s.channel.log then time else s.last }
  | .start i a c w => do
      let channel ← LogDelivery.step s.channel (.start i a c w)
      pure { s with channel := channel }
  | .startPush => do
      let channel ← LogDelivery.step s.channel .startPush
      pure { s with channel := channel }
  | .consume => do
      let channel ← LogDelivery.step s.channel .consume
      pure { s with channel := channel }

def recorded (now : UInt32) (a : Action) (s : Log) : Log :=
  setFlag (writeFields { s with timeSinceLastLog := now, accepted := s.accepted ++ [a] } a)
    true a.kind

/-- A call is accepted when more than a second has passed, and else changes nothing. -/
def Exact (s : Timed) : Move → Prop
  | .call time a => firebaseAppendUserAction (millis time) a s.channel.log =
      if 1000 < time - s.last then recorded (millis time) a s.channel.log else s.channel.log
  | .start .. | .startPush | .consume => True

/-- Time does not run backwards, and the last accepted call is not half a period old. -/
def Timely (s : Timed) : Move → Prop
  | .call time _ => s.now ≤ time ∧ time - s.last < 2^31
  | .start .. | .startPush | .consume => True

/-- The call and the end of the second after the last accepted one share a period. -/
def Unwrapped (s : Timed) : Move → Prop
  | .call time _ => period (2^32) (s.last+1000) = period (2^32) time
  | .start .. | .startPush | .consume => True

instance exact_decidable (s : Timed) : ∀ m, Decidable (Exact s m)
  | .call _ _ => inferInstanceAs (Decidable (_ = _))
  | .start .. | .startPush | .consume => isTrue trivial

instance timely_decidable (s : Timed) : ∀ m, Decidable (Timely s m)
  | .call _ _ => inferInstanceAs (Decidable (_ ∧ _))
  | .start .. | .startPush | .consume => isTrue trivial

instance unwrapped_decidable (s : Timed) : ∀ m, Decidable (Unwrapped s m)
  | .call _ _ => inferInstanceAs (Decidable (_ = _))
  | .start .. | .startPush | .consume => isTrue trivial

def Stamped (s : Timed) : Prop :=
  s.channel.log.timeSinceLastLog = millis s.last ∧ s.last ≤ s.now

theorem stamp_kept (s : Log) (b : Bool) (k : Kind) (a : Action) :
    (setFlag (writeFields s a) b k).timeSinceLastLog = s.timeSinceLastLog := by
  cases a <;> cases k <;> rfl

theorem recorded_ne (now : UInt32) (a : Action) (s : Log) : recorded now a s ≠ s := by
  intro h
  have hlen := congrArg (fun l : Log => l.accepted.length) h
  simp [recorded] at hlen

theorem passes_iff {log : Log} {last time : ℕ} (h : log.timeSinceLastLog = millis last) :
    passes (millis time) log = true ↔ (last+1000) % 2^32 < time % 2^32 := by
  rw [passes, decide_eq_true_iff, gt_iff_lt, h, UInt32.lt_iff_toNat_lt]
  simp only [millis, UInt32.toNat_add, UInt32.toNat_ofNat', UInt32.toNat_ofNat]
  rw [Nat.add_mod last 1000]

theorem exact_iff_passes (s : Timed) (time : ℕ) (a : Action) :
    Exact s (.call time a) ↔
      (passes (millis time) s.channel.log = true ↔ 1000 < time - s.last) := by
  rw [Exact, firebaseAppendUserAction, ← recorded]
  have hne := recorded_ne (millis time) a s.channel.log
  split <;> split
  · next hp ht => exact ⟨fun _ => ⟨fun _ => ht,fun _ => hp⟩,fun _ => rfl⟩
  · next hp ht => exact ⟨fun h => absurd h hne,fun h => absurd (h.mp hp) ht⟩
  · next hp ht => exact ⟨fun h => absurd h.symm hne,fun h => absurd (h.mpr ht) hp⟩
  · next hp ht => exact ⟨fun _ => ⟨fun h => absurd h hp,fun h => absurd h ht⟩,fun _ => rfl⟩

theorem exact_iff_unwrapped {s : Timed} {m : Move} (hs : Stamped s) (hm : Timely s m) :
    Exact s m ↔ Unwrapped s m := by
  cases m with
  | start | startPush | consume => exact Iff.rfl
  | call time a =>
    obtain ⟨hstamp,hlast⟩ := hs
    obtain ⟨hnow,hage⟩ := hm
    rw [exact_iff_passes, passes_iff hstamp, Unwrapped,
      ← reading_lt_iff (by omega) (by omega)]
    have hdue : s.last+1000 < time ↔ 1000 < time - s.last := by omega
    rw [hdue]

theorem step_stamped {s t : Timed} {m : Move} (hs : Stamped s) (hm : Timely s m)
    (h : step s m = .ok t) : Stamped t := by
  obtain ⟨hstamp,hlast⟩ := hs
  cases m with
  | call time a =>
    cases h
    obtain ⟨hnow,-⟩ := hm
    by_cases hp : passes (millis time) s.channel.log = true
    · refine ⟨?_,?_⟩
      · simp only [firebaseAppendUserAction, if_pos hp, stamp_kept]
      · simp only [if_pos hp, le_refl]
    · refine ⟨?_,?_⟩
      · simpa only [firebaseAppendUserAction, if_neg hp] using hstamp
      · simp only [if_neg hp]
        omega
  | start i a c w =>
    obtain ⟨channel,hc,h⟩ := bind_ok.mp h
    cases h
    rw [LogDelivery.step] at hc
    split at hc
    · cases hc
    · cases hc
      exact ⟨hstamp,hlast⟩
  | startPush =>
    obtain ⟨channel,hc,h⟩ := bind_ok.mp h
    cases h
    rw [LogDelivery.step] at hc
    split at hc
    · cases hc
      exact ⟨hstamp,hlast⟩
    · cases hc
  | consume =>
    cases h
    refine ⟨Eq.trans ?_ hstamp,hlast⟩
    cases s.channel.task with
    | test k => dsimp only [firebaseTask]; split <;> rfl
    | push k => rw [firebaseTask_push]; rfl
    | reset k => cases k <;> rfl

/-- In a run from boot every call is throttled exactly if and only if every
call lies in the same period as the end of its second. -/
theorem throttled_iff_unwrapped {ms : List Move} (hm : Meets step Timely {} ms) :
    Meets step Exact {} ms ↔ Meets step Unwrapped {} ms :=
  meets_iff (I := Stamped) (fun _ _ _ => step_stamped) (fun _ _ => exact_iff_unwrapped)
    ⟨rfl,le_refl 0⟩ hm

/-- Two calls a second and a half apart, and one in between. -/
theorem seconds_throttled :
    Meets step Exact {} [.call 2000 drawHomeAction,.call 2500 drawHomeAction,.consume,
      .call 3500 drawHomeAction] :=
  (throttled_iff_unwrapped (by decide +kernel)).mpr (by decide +kernel)

/-- In the last second of a period every call is accepted. -/
theorem last_second_unthrottled :
    ¬∀ ms : List Move, Meets step Timely {} ms → Meets step Exact {} ms := by
  intro h
  have hrun := h [.call (2^31-1) drawHomeAction,.call (2^32-500) drawHomeAction,
    .call (2^32-499) drawHomeAction]
    (by decide +kernel)
  revert hrun
  decide +kernel

end THue.LogThrottle
