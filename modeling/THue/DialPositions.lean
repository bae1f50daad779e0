import Mathlib.Data.List.Perm.Subperm
import Mathlib.Data.List.Nodup
import Mathlib.Data.List.Range
import Mathlib.Algebra.BigOperators.Group.List.Basic
import Mathlib.Data.Int.ModEq
import Mathlib.Tactic.Ring

/-!
# Positions of a turned dial

A dial is turned by detents, each a step of 1 or -1. On a ring of `m`
positions the position depends on the sum of the detents alone; a clamped dial
stops at both ends. A dial may also be read through two tables, one for each
direction.
-/

set_option autoImplicit false

namespace THue.DialPositions

/-- The position of a ring of `m` positions for a sum of detents. -/
def place (m : ℕ) (a : ℤ) : ℕ := (a % m).toNat

theorem place_cast {m : ℕ} (hm : 0 < m) (a : ℤ) : (place m a : ℤ) = a % m :=
  Int.toNat_of_nonneg (Int.emod_nonneg a (by omega))

theorem place_lt {m : ℕ} (hm : 0 < m) (a : ℤ) : place m a < m := by
  have h := Int.emod_lt_of_pos a (show (0:ℤ) < m by omega)
  have hc := place_cast hm a
  omega

theorem place_of_lt {m k : ℕ} (h : k < m) : place m k = k := by
  rw [place, Int.emod_eq_of_lt (by omega) (by omega), Int.toNat_natCast]

theorem place_eq_iff {m : ℕ} (hm : 0 < m) (a b : ℤ) : place m a = place m b ↔ a % m = b % m := by
  have ha := place_cast hm a
  have hb := place_cast hm b
  omega

theorem place_add {m : ℕ} (hm : 0 < m) (a d : ℤ) : place m (place m a + d) = place m (a+d) := by
  rw [place_eq_iff hm, place_cast hm, Int.emod_add_emod]

theorem place_neg_one {m : ℕ} (hm : 0 < m) : place m (-1) = m-1 := by
  have h : (-1:ℤ) % m = m-1 := by
    rw [← Int.add_emod_right, Int.emod_eq_of_lt (by omega) (by omega)]
    ring
  rw [place, h]
  omega

def stops (m : ℕ) : ℤ → List ℤ → List ℕ
  | _, [] => []
  | a, d::ds => place m (a+d) :: stops m (a+d) ds

theorem stops_append (m : ℕ) (a : ℤ) (ds es : List ℤ) :
    stops m a (ds++es) = stops m a ds ++ stops m (a+ds.sum) es := by
  induction ds generalizing a with
  | nil => simp [stops]
  | cons d ds ih => simp only [List.cons_append, stops, ih, List.sum_cons, add_assoc]

/-- The position of a dial that stops at 0 and at `m`. -/
def clamped (m : ℕ) (a : ℤ) : ℤ := max 0 (min a m)

theorem clamped_mono (m : ℕ) {a b : ℤ} (h : a ≤ b) : clamped m a ≤ clamped m b :=
  max_le_max_left 0 (min_le_min_right (m:ℤ) h)

theorem clamped_inside {m : ℕ} {a : ℤ} (h0 : 0 ≤ a) (hm : a ≤ m) : clamped m a = a := by
  rw [clamped, min_eq_left hm, max_eq_right h0]

theorem clamped_cancel {m : ℕ} {a d : ℤ} (h0 : 0 < a) (hm : a < m) (hd : d = 1 ∨ d = -1) :
    clamped m (clamped m (a+d) + -d) = a := by
  rw [clamped_inside (a := a+d) (by omega) (by omega), clamped_inside (by omega) (by omega)]
  ring

section Tables
variable {α β : Type*}

/-- The value shown lies between the readings of both tables. -/
def Between [LE β] (lo hi : α → β) (a : α) (v : β) : Prop := lo a ≤ v ∧ v ≤ hi a

variable [Preorder β] {lo hi : α → β} {a b : α} {v : β}

theorem between_up (h : Between lo hi a v) (hhi : hi a ≤ hi b) (hle : lo b ≤ hi b) :
    v ≤ hi b ∧ Between lo hi b (hi b) := ⟨h.2.trans hhi,hle,le_refl _⟩

theorem between_down (h : Between lo hi a v) (hlo : lo b ≤ lo a) (hle : lo b ≤ hi b) :
    lo b ≤ v ∧ Between lo hi b (lo b) := ⟨hlo.trans h.1,le_refl _,hle⟩

end Tables

end THue.DialPositions
