import Mathlib.Data.Int.Basic
import Mathlib.Data.Int.ModEq
import Mathlib.Algebra.Order.Ring.Abs
import Mathlib.Tactic.Ring
import Mathlib.Tactic.Linarith

/-!
# A knob with detents

The shaft of a knob stands at an integer angle. Every `size` angles it clicks
into a detent, and the notch is the number of the detent it was in last. As
long as the shaft is looked at often enough to be seen at every angle, the
notch changes by one at a time and lies within one detent of the angle.
-/

set_option autoImplicit false

namespace THue.DetentKnob
/-- Where the detents are: `size` angles apart, one of them at `rest`. -/
structure Detents where
  size : ℕ
  rest : ℤ
  positive : 0 < size

structure Knob where
  angle : ℤ
  notch : ℤ
  deriving DecidableEq

variable {d : Detents} {k : Knob} {a : ℤ}

def Detents.AtRest (d : Detents) (a : ℤ) : Prop := (a-d.rest) % d.size = 0

instance atRest_decidable (d : Detents) (a : ℤ) : Decidable (d.AtRest a) :=
  inferInstanceAs (Decidable (_ = _))

def Detents.angle (d : Detents) (notch : ℤ) : ℤ := d.size*notch + d.rest

def turn (d : Detents) (k : Knob) (a : ℤ) : Knob :=
  { angle := a, notch := if d.AtRest a then (a-d.rest)/d.size else k.notch }

/-- The shaft is between the neighbours of its detent; in a detent it is in its own. -/
def Engaged (d : Detents) (k : Knob) : Prop := |k.angle - d.angle k.notch| < d.size

instance engaged_decidable (d : Detents) (k : Knob) : Decidable (Engaged d k) :=
  inferInstanceAs (Decidable (_ < _))

/-- From one look to the next the shaft moves by one angle at most. -/
def Near (a b : ℤ) : Prop := |b-a| ≤ 1

instance near_decidable (a b : ℤ) : Decidable (Near a b) := inferInstanceAs (Decidable (_ ≤ _))

theorem atRest_angle (h : d.AtRest a) : d.angle ((a-d.rest)/d.size) = a := by
  have hdiv := Int.mul_ediv_add_emod (a-d.rest) d.size
  rw [Detents.AtRest] at h
  rw [Detents.angle]
  linarith

theorem angle_atRest (d : Detents) (n : ℤ) : d.AtRest (d.angle n) := by
  rw [Detents.AtRest, Detents.angle, add_sub_cancel_right, Int.mul_emod_right]

theorem angle_notch (d : Detents) (n : ℤ) : (d.angle n - d.rest)/d.size = n := by
  have hsize : (d.size:ℤ) ≠ 0 := by have := d.positive; omega
  rw [Detents.angle, add_sub_cancel_right, Int.mul_ediv_cancel_left _ hsize]

theorem notch_near {m n : ℤ} (h : |d.angle n - d.angle m| < 2*d.size) : Near m n := by
  have hpos : (0:ℤ) < d.size := by have := d.positive; omega
  have hprod : |(d.size:ℤ)| * |n-m| < |(d.size:ℤ)| * 2 := by
    rw [← abs_mul, abs_of_pos hpos, mul_comm (d.size:ℤ) 2]
    have hdiff : (d.size:ℤ)*(n-m) = d.angle n - d.angle m := by
      rw [Detents.angle, Detents.angle]
      ring
    rw [hdiff]
    exact h
  have hlt := lt_of_mul_lt_mul_left hprod (abs_nonneg _)
  rw [Near]
  omega

theorem engaged_rest (hk : Engaged d k) (hr : d.AtRest k.angle) :
    (k.angle-d.rest)/d.size = k.notch := by
  have hangle := atRest_angle hr
  have hdvd : (d.size:ℤ) ∣ k.angle - d.angle k.notch := by
    refine ⟨(k.angle-d.rest)/d.size - k.notch,?_⟩
    conv_lhs => rw [← hangle]
    rw [Detents.angle, Detents.angle]
    ring
  have hzero := Int.eq_zero_of_abs_lt_dvd hdvd hk
  rw [show k.angle = d.angle k.notch by omega, angle_notch]

theorem turn_still (hk : Engaged d k) : turn d k k.angle = k := by
  rw [turn]
  split
  · next hr => rw [engaged_rest hk hr]
  · rfl

theorem turn_engaged (hk : Engaged d k) (ha : Near k.angle a) : Engaged d (turn d k a) := by
  have hpos := d.positive
  rw [Engaged, turn]
  split
  · next hr =>
    rw [atRest_angle hr, sub_self, abs_zero]
    omega
  · next hr =>
    have hle : |a - d.angle k.notch| ≤ d.size := by
      have htri := abs_add_le (a-k.angle) (k.angle - d.angle k.notch)
      rw [show a-k.angle + (k.angle - d.angle k.notch) = a - d.angle k.notch by ring] at htri
      rw [Near] at ha
      rw [Engaged] at hk
      omega
    refine lt_of_le_of_ne hle fun heq => hr ?_
    have hdvd : (d.size:ℤ) ∣ a - d.angle k.notch := by
      rw [← dvd_abs, heq]
    have hat := angle_atRest d k.notch
    rw [Detents.AtRest] at hat ⊢
    rw [show a-d.rest = (a - d.angle k.notch) + (d.angle k.notch - d.rest) by ring,
      Int.add_emod, Int.emod_eq_zero_of_dvd hdvd, hat]
    rfl

theorem turn_near (hk : Engaged d k) (ha : Near k.angle a) : Near k.notch (turn d k a).notch := by
  have hpos := d.positive
  rw [turn]
  dsimp only
  split
  · next hr =>
    refine notch_near (d := d) ?_
    rw [atRest_angle hr]
    have htri := abs_add_le (a-k.angle) (k.angle - d.angle k.notch)
    rw [show a-k.angle + (k.angle - d.angle k.notch) = a - d.angle k.notch by ring] at htri
    rw [Near] at ha
    rw [Engaged] at hk
    omega
  · rw [Near]
    simp

end THue.DetentKnob
