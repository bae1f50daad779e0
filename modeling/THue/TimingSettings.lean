import THue.BehaviorSettings

/-!
# The timing settings of the edit pages

Each setting has a step and a guard of its own, and its behavior gets a delay
computed from it. Minus on the alarm's duration is guarded below its step, and
plus on the party's speed is not guarded at all.
-/

set_option autoImplicit false

namespace THue.TimingSettings
open THue.Globals THue.Entertainment THue.BehaviorSettings THue.FaultRun

/-- A press, or a refresh, which sets the behaviors up again. -/
inductive Move where
  | press (e : Setting)
  | refresh (unset : Behavior)

def step (p : Play) : Move → Except Fault Play
  | .press e => .ok (press e p)
  | .refresh unset => .ok (initBehaviors unset p)

structure Usable (p : Play) : Prop where
  divisor : p.festDelay ≠ 0
  training : 0 < p.blinkingLightsDelay
  trainingSeconds : 1 ≤ p.blinkingLightsDelay.tdiv 1000
  alarm : 0 < p.alarmDelay
  alarmSeconds : 1 ≤ p.alarmDelay.tdiv 1000
  delays : ∀ k ∈ [(0 : Fin 20),1,2], 1 ≤ (p.behaviors k).delay

/-- Minus does not take the alarm's last ten seconds, and plus stops at 100 flashes a second. -/
def Spared (p : Play) : Move → Prop
  | .press .decrementAlarmDuration => p.alarmDelay ≠ 10000
  | .press .incrementFestSpeed => p.festDelay ≠ 100
  | .press _ | .refresh _ => True

instance spared_decidable (p : Play) : ∀ m, Decidable (Spared p m)
  | .press e =>
      match e with
      | .decrementAlarmDuration | .incrementFestSpeed => inferInstanceAs (Decidable (_ ≠ _))
      | .incrementBlinkingLightsSpeed | .decrementBlinkingLightsSpeed
      | .incrementBlinkingLightsCount | .decrementBlinkingLightsCount
      | .incrementAlarmDuration | .incrementAlarmFlashCount | .decrementAlarmFlashCount
      | .decrementFestSpeed => isTrue trivial
  | .refresh _ => isTrue trivial

structure Handed (p : Play) : Prop where
  training : (p.behaviors 0).delay = p.blinkingLightsDelay.tdiv 10
  alarm : (p.behaviors 1).delay = p.alarmDelay.tdiv 10
  fest : (p.behaviors 2).delay = ((1000:ℤ).tdiv p.festDelay).tdiv 10

structure Stepped (p : Play) : Prop where
  handed : Handed p
  training : 0 < p.blinkingLightsDelay ∧ p.blinkingLightsDelay % 1000 = 0
  alarm : 0 ≤ p.alarmDelay ∧ p.alarmDelay % 10000 = 0
  fest : 0 < p.festDelay

section Presses
variable {p : Play} {m : Move} {d : ℤ}

theorem initBehaviors_handed (unset : Behavior) (p : Play) : Handed (initBehaviors unset p) :=
  ⟨rfl,rfl,rfl⟩

theorem press_handed (e : Setting) (h : Handed p) : Handed (press e p) := by
  obtain ⟨htraining,halarm,hfest⟩ := h
  cases e with
  | incrementBlinkingLightsCount | incrementAlarmFlashCount => exact ⟨htraining,halarm,hfest⟩
  | decrementBlinkingLightsCount =>
    obtain ⟨n,hn⟩ := decrementBlinkingLightsCount_with p
    rw [press, hn]
    exact ⟨htraining,halarm,hfest⟩
  | decrementAlarmFlashCount =>
    obtain ⟨n,hn⟩ := decrementAlarmFlashCount_with p
    rw [press, hn]
    exact ⟨htraining,halarm,hfest⟩
  | incrementBlinkingLightsSpeed | decrementBlinkingLightsSpeed => exact ⟨rfl,halarm,hfest⟩
  | incrementAlarmDuration | decrementAlarmDuration => exact ⟨htraining,rfl,hfest⟩
  | incrementFestSpeed | decrementFestSpeed => exact ⟨htraining,halarm,rfl⟩

theorem press_stepped (e : Setting) (h : Stepped p) : Stepped (press e p) := by
  have hhanded := press_handed e h.handed
  obtain ⟨-,htraining,halarm,hfest⟩ := h
  cases e with
  | incrementBlinkingLightsCount | incrementAlarmFlashCount =>
    exact ⟨hhanded,htraining,halarm,hfest⟩
  | decrementBlinkingLightsCount =>
    obtain ⟨n,hn⟩ := decrementBlinkingLightsCount_with p
    rw [press, hn] at hhanded ⊢
    exact ⟨hhanded,htraining,halarm,hfest⟩
  | decrementAlarmFlashCount =>
    obtain ⟨n,hn⟩ := decrementAlarmFlashCount_with p
    rw [press, hn] at hhanded ⊢
    exact ⟨hhanded,htraining,halarm,hfest⟩
  | incrementBlinkingLightsSpeed =>
    refine ⟨hhanded,?_,halarm,hfest⟩
    simp only [press, incrementBlinkingLightsSpeed, setDelay]
    omega
  | decrementBlinkingLightsSpeed =>
    refine ⟨hhanded,?_,halarm,hfest⟩
    simp only [press, decrementBlinkingLightsSpeed, setDelay]
    split <;> omega
  | incrementAlarmDuration =>
    refine ⟨hhanded,htraining,?_,hfest⟩
    simp only [press, incrementAlarmDuration, setDelay]
    omega
  | decrementAlarmDuration =>
    -- the guard lets the last step through, and 0 is where it stops
    refine ⟨hhanded,htraining,?_,hfest⟩
    simp only [press, decrementAlarmDuration, setDelay]
    split <;> omega
  | incrementFestSpeed =>
    refine ⟨hhanded,htraining,halarm,?_⟩
    simp only [press, incrementFestSpeed, setDelay]
    omega
  | decrementFestSpeed =>
    refine ⟨hhanded,htraining,halarm,?_⟩
    simp only [press, decrementFestSpeed, setDelay]
    split <;> omega

theorem le_tdiv_iff {a n k : ℤ} (hn : 0 ≤ n) (hk : 0 < k) : a ≤ n.tdiv k ↔ a*k ≤ n := by
  rw [Int.tdiv_eq_ediv_of_nonneg hn, Int.le_ediv_iff_mul_le hk]

theorem fest_delay_iff (hd : 0 < d) : 1 ≤ ((1000:ℤ).tdiv d).tdiv 10 ↔ d ≤ 100 := by
  have hpos : (0:ℤ) ≤ (1000:ℤ).tdiv d := (le_tdiv_iff (by decide) hd).mpr (by omega)
  rw [le_tdiv_iff hpos (by decide), le_tdiv_iff (by decide) hd]
  omega

theorem usable_iff (h : Stepped p) : Usable p ↔ 0 < p.alarmDelay ∧ p.festDelay ≤ 100 := by
  obtain ⟨⟨htraining,halarm,hfest⟩,hblink,hduration,hspeed⟩ := h
  constructor
  · intro hp
    have hdelay := hp.delays 2 (by decide)
    rw [hfest] at hdelay
    exact ⟨hp.alarm,(fest_delay_iff hspeed).mp hdelay⟩
  · rintro ⟨hpos,hle⟩
    have hseconds : ∀ n : ℤ, 1000 ≤ n → 1 ≤ n.tdiv 1000 ∧ 1 ≤ n.tdiv 10 := fun n hn =>
      ⟨(le_tdiv_iff (by omega) (by decide)).mpr (by omega),
        (le_tdiv_iff (by omega) (by decide)).mpr (by omega)⟩
    have hshown := hseconds p.blinkingLightsDelay (by omega)
    have hlasts := hseconds p.alarmDelay (by omega)
    refine ⟨hspeed.ne',hblink.1,hshown.1,hpos,hlasts.1,fun k hk => ?_⟩
    have hk' : k = 0 ∨ k = 1 ∨ k = 2 := by simpa using hk
    obtain rfl | rfl | rfl := hk'
    · rw [htraining]
      exact hshown.2
    · rw [halarm]
      exact hlasts.2
    · rw [hfest]
      exact (fest_delay_iff hspeed).mpr hle

/-- Of the two presses that spoil a setting each does so at one value of it. -/
theorem step_usable_iff (h : Stepped p) (hp : Usable p) (m : Move) :
    Ends (step p m) (fun q => Stepped q ∧ (Usable q ↔ Spared p m)) (fun _ => False) := by
  obtain ⟨halarm,hfest⟩ := (usable_iff h).mp hp
  have hduration := h.alarm
  cases m with
  | refresh unset =>
    have hstepped : Stepped (initBehaviors unset p) :=
      ⟨initBehaviors_handed unset p,h.training,h.alarm,h.fest⟩
    exact ⟨hstepped,iff_of_true ((usable_iff hstepped).mpr ⟨halarm,hfest⟩) trivial⟩
  | press e =>
    have hstepped := press_stepped e h
    refine ⟨hstepped,(usable_iff hstepped).trans ?_⟩
    cases e with
    | incrementBlinkingLightsSpeed | decrementBlinkingLightsSpeed
    | incrementBlinkingLightsCount | incrementAlarmFlashCount =>
      exact iff_of_true ⟨halarm,hfest⟩ trivial
    | decrementBlinkingLightsCount =>
      obtain ⟨n,hn⟩ := decrementBlinkingLightsCount_with p
      rw [press, hn]
      exact iff_of_true ⟨halarm,hfest⟩ trivial
    | decrementAlarmFlashCount =>
      obtain ⟨n,hn⟩ := decrementAlarmFlashCount_with p
      rw [press, hn]
      exact iff_of_true ⟨halarm,hfest⟩ trivial
    | incrementAlarmDuration =>
      refine iff_of_true ⟨?_,hfest⟩ trivial
      simp only [press, incrementAlarmDuration, setDelay]
      omega
    | decrementAlarmDuration =>
      simp only [press, decrementAlarmDuration, setDelay, Spared]
      split <;> omega
    | incrementFestSpeed =>
      simp only [press, incrementFestSpeed, setDelay, Spared]
      omega
    | decrementFestSpeed =>
      refine iff_of_true ⟨halarm,?_⟩ trivial
      simp only [press, decrementFestSpeed, setDelay]
      split <;> omega

/-- The timing settings stay usable exactly in the runs in which minus leaves the
alarm its last ten seconds and plus the party its hundred flashes. -/
theorem usable_iff_spared (unset : Behavior) (ms : List Move) :
    Runs step Usable (fun _ => True) (initBehaviors unset {}) ms ↔
      Meets step Spared (initBehaviors unset {}) ms := by
  have hstart : Stepped (initBehaviors unset {}) :=
    ⟨initBehaviors_handed unset {},show (0:ℤ) < 1000 ∧ (1000:ℤ)%1000 = 0 by decide,
      show (0:ℤ) ≤ 60000 ∧ (60000:ℤ)%10000 = 0 by decide,show (0:ℤ) < 10 by decide⟩
  have hboot : Usable (initBehaviors unset {}) :=
    (usable_iff hstart).mpr (show (0:ℤ) < 60000 ∧ (10:ℤ) ≤ 100 by decide)
  exact runs_iff_meets_of_step (fun _ m h hp => step_usable_iff h hp m) hstart hboot ms

end Presses

/-- Five presses of minus leave the alarm ten seconds. -/
example : Meets step Spared (initBehaviors {} {})
    (List.replicate 5 (.press .decrementAlarmDuration)) := by
  decide +kernel

/-- Six presses of minus leave the alarm no time; 91 of plus leave the party no tick. -/
theorem alarm_runs_out : (¬∀ ms, Runs step Usable (fun _ => True) (initBehaviors {} {}) ms) ∧
    ¬Runs step Usable (fun _ => True) (initBehaviors {} {})
      (List.replicate 91 (.press .incrementFestSpeed)) := by
  refine ⟨fun hall => ?_,fun h => ?_⟩
  · have hrun := ok_getD (x := run step (initBehaviors {} {})
      (List.replicate 6 (.press .decrementAlarmDuration))) {} (by decide +kernel)
    have halarm := (runs_last (hall _) hrun).alarm
    exact absurd halarm (by decide +kernel)
  · have hrun := ok_getD (x := run step (initBehaviors {} {})
      (List.replicate 91 (.press .incrementFestSpeed))) {} (by decide +kernel)
    have hdelay := (runs_last h hrun).delays 2 (by decide)
    exact absurd hdelay (by decide +kernel)

end THue.TimingSettings
