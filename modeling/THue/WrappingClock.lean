import Mathlib.Data.Nat.ModEq
import Mathlib.Tactic.Ring

/-!
# Clocks that wrap around

A clock of period `m` shows the true time modulo `m`. Two readings give the
time between them by subtraction, as long as it is shorter than a period. A
deadline computed by addition is compared rightly only in the period in which
it falls.
-/

set_option autoImplicit false

namespace THue.WrappingClock

variable {m : ℕ}

def period (m t : ℕ) : ℕ := t/m

theorem reading_period (m t : ℕ) : m*period m t + t % m = t := Nat.div_add_mod t m

theorem elapsed {s t : ℕ} (hs : s ≤ t) (ht : t-s < m) : (m - s % m + t % m) % m = t-s := by
  have hm : 0 < m := by omega
  have hlt : s % m < m := Nat.mod_lt s hm
  have hsum : m - s % m + t % m + m*period m t = m*(period m s + 1) + (t-s) := by
    have h1 := reading_period m s
    have h2 := reading_period m t
    rw [Nat.mul_add, Nat.mul_one]
    omega
  have h := congrArg (· % m) hsum
  simpa only [Nat.add_mul_mod_self_left, Nat.mul_add_mod, Nat.mod_eq_of_lt ht] using h

theorem reading_lt_iff {d t : ℕ} (hd : d < t+m) (ht : t < d+m) :
    (d % m < t % m ↔ d < t) ↔ period m d = period m t := by
  have h1 := reading_period m d
  have h2 := reading_period m t
  obtain hp | hp | hp := lt_trichotomy (period m d) (period m t)
  · obtain ⟨k,hk⟩ := Nat.exists_eq_add_of_lt hp
    have hmul : m*period m t = m*period m d + m*k + m := by rw [hk]; ring
    have hlt : d % m < m := Nat.mod_lt d (by omega)
    refine ⟨fun h => ?_,fun h => absurd h hp.ne⟩
    have hread : d % m < t % m := h.mpr (by omega)
    omega
  · rw [hp] at h1
    exact ⟨fun _ => hp,fun _ => by omega⟩
  · obtain ⟨k,hk⟩ := Nat.exists_eq_add_of_lt hp
    have hmul : m*period m d = m*period m t + m*k + m := by rw [hk]; ring
    have hlt : t % m < m := Nat.mod_lt t (by omega)
    refine ⟨fun h => ?_,fun h => absurd h hp.ne'⟩
    have htime : d < t := h.mp (by omega)
    omega

end THue.WrappingClock
