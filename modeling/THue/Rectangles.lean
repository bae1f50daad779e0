import Mathlib.Algebra.Order.Monoid.Defs
import Mathlib.Algebra.GroupWithZero.Nat
import Mathlib.Data.List.Forall2
import Mathlib.Data.Set.Prod
import Mathlib.Order.Interval.Set.Basic

/-!
# Rectangles and plans

A rectangle is a corner with two extents, and its interior a product of open
intervals. A plan is a list of rectangles. Slots fit a plan when the interior
of each lies in that of the rectangle with its index; over a plan of
rectangles apart from each other, a point lies in one slot at most.
-/

set_option autoImplicit false

namespace THue.Rectangles

structure Rect (α : Type*) where
  x : α
  y : α
  width : α
  height : α
  deriving DecidableEq, Repr

section Rect
variable {α : Type*} {r q p : Rect α}

def Rect.interior [LinearOrder α] [Add α] (r : Rect α) : Set (α × α) :=
  Set.Ioo r.x (r.x + r.width) ×ˢ Set.Ioo r.y (r.y + r.height)

/-- One of the two ends before the other begins, in one direction or the other. -/
def Apart [LE α] [Add α] (r q : Rect α) : Prop :=
  r.x + r.width ≤ q.x ∨ q.x + q.width ≤ r.x ∨ r.y + r.height ≤ q.y ∨ q.y + q.height ≤ r.y

instance apart_decidable [LE α] [DecidableLE α] [Add α] (r q : Rect α) : Decidable (Apart r q) :=
  inferInstanceAs (Decidable (_ ∨ _ ∨ _ ∨ _))

def Within [LE α] [Add α] [Zero α] (r q : Rect α) : Prop :=
  r.width = 0 ∨ (q.x ≤ r.x ∧ r.x + r.width ≤ q.x + q.width ∧
    q.y ≤ r.y ∧ r.y + r.height ≤ q.y + q.height)

instance within_decidable [LE α] [DecidableLE α] [Add α] [Zero α] [DecidableEq α] (r q : Rect α) :
    Decidable (Within r q) :=
  inferInstanceAs (Decidable (_ ∨ _ ∧ _ ∧ _ ∧ _))

variable [LinearOrder α]

theorem mem_rect [Add α] {x y : α} : (x,y) ∈ r.interior ↔
    (r.x < x ∧ x < r.x + r.width) ∧ r.y < y ∧ y < r.y + r.height := Iff.rfl

theorem apart_symm [Add α] (h : Apart r q) : Apart q r := by
  obtain h | h | h | h := h
  · exact .inr (.inl h)
  · exact .inl h
  · exact .inr (.inr (.inr h))
  · exact .inr (.inr (.inl h))

theorem apart_not_mem [Add α] {p : α × α} (h : Apart r q) (hr : p ∈ r.interior) :
    p ∉ q.interior := by
  rintro ⟨hx',hy'⟩
  obtain ⟨hx,hy⟩ := hr
  obtain h | h | h | h := h
  · exact lt_asymm hx.2 (h.trans_lt hx'.1)
  · exact lt_asymm hx'.2 (h.trans_lt hx.1)
  · exact lt_asymm hy.2 (h.trans_lt hy'.1)
  · exact lt_asymm hy'.2 (h.trans_lt hy.1)

theorem within_refl [Add α] [Zero α] (r : Rect α) : Within r r :=
  .inr ⟨le_refl _,le_refl _,le_refl _,le_refl _⟩

theorem within_subset [AddZeroClass α] (h : Within r q) : r.interior ⊆ q.interior := by
  obtain h | ⟨hx,hw,hy,hh⟩ := h
  · rw [Rect.interior, h, add_zero, Set.Ioo_self, Set.empty_prod]
    exact Set.empty_subset _
  · exact Set.prod_mono (Set.Ioo_subset_Ioo hx hw) (Set.Ioo_subset_Ioo hy hh)

theorem not_mem_thin [AddZeroClass α] {p : α × α} (h : r.width = 0) : p ∉ r.interior := by
  rintro ⟨⟨h1,h2⟩,-⟩
  rw [h, add_zero] at h2
  exact lt_asymm h1 h2

end Rect

section Plans
variable {α : Type*} [LinearOrder α] [AddZeroClass α] {n : ℕ} {plan wide rest : List (Rect α)}
variable {slots slots' : Fin n → Rect α}

def Fits (plan : List (Rect α)) (slots : Fin n → Rect α) : Prop :=
  ∀ (k : Fin n) r, plan[k.val]? = some r → (slots k).interior ⊆ r.interior

theorem fits_within (h : ∀ (k : Fin n) r, plan[k.val]? = some r → Within (slots k) r) :
    Fits plan slots := fun k r hr => within_subset (h k r hr)

theorem fits_update {i : Fin n} {q : Rect α} (h : Fits plan slots)
    (hq : ∀ r, plan[i.val]? = some r → Within q r)
    (hi : slots' i = q) (hs : ∀ k, k ≠ i → slots' k = slots k) : Fits plan slots' := by
  intro k r hr
  by_cases hk : k = i
  · subst hk
    rw [hi]
    exact within_subset (hq r hr)
  · rw [hs k hk]
    exact h k r hr

theorem fits_left (h : Fits (plan ++ rest) slots) : Fits plan slots := by
  intro k r hr
  obtain ⟨hk,-⟩ := List.getElem?_eq_some_iff.mp hr
  exact h k r ((List.getElem?_append_left hk).trans hr)

theorem fits_snoc {q : Rect α} (h : Fits plan slots)
    (hq : ∀ k : Fin n, k.val = plan.length → Within (slots k) q) : Fits (plan ++ [q]) slots := by
  intro k r hr
  obtain hlt | heq | hgt := Nat.lt_trichotomy k.val plan.length
  · exact h k r ((List.getElem?_append_left hlt).symm.trans hr)
  · rw [heq, List.getElem?_append_right (le_refl _), Nat.sub_self] at hr
    cases Option.some.inj hr
    exact within_subset (hq k heq)
  · rw [List.getElem?_eq_none (by rw [List.length_append, List.length_singleton]; omega)] at hr
    cases hr

theorem fits_widen (h : Fits plan slots) (hw : List.Forall₂ Within plan wide) :
    Fits wide slots := by
  intro k r hr
  obtain ⟨hk,rfl⟩ := List.getElem?_eq_some_iff.mp hr
  have hkp : k.val < plan.length := hw.length_eq ▸ hk
  exact (h k _ (List.getElem?_eq_getElem hkp)).trans (within_subset (hw.get hkp hk))

theorem fits_unique (hp : plan.Pairwise Apart) (h : Fits plan slots) {j k : Fin n}
    (hj : j.val < plan.length) (hk : k.val < plan.length) {p : α × α}
    (hpj : p ∈ (slots j).interior) (hpk : p ∈ (slots k).interior) : j = k := by
  by_contra hne
  have hapart : Apart plan[j.val] plan[k.val] := by
    obtain hlt | hgt := Nat.lt_or_gt_of_ne (fun he => hne (Fin.ext he))
    · exact List.pairwise_iff_getElem.mp hp _ _ hj hk hlt
    · exact apart_symm (List.pairwise_iff_getElem.mp hp _ _ hk hj hgt)
  exact apart_not_mem hapart (h j _ (List.getElem?_eq_getElem hj) hpj)
    (h k _ (List.getElem?_eq_getElem hk) hpk)

end Plans

end THue.Rectangles
