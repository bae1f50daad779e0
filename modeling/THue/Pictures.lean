import Mathlib.Data.Set.Basic
import Mathlib.Data.Set.Insert
import Mathlib.Data.List.Induction

/-!
# Pictures

A picture gives every point a colour. Painting a region in one colour leaves
the rest as it is, and after many strokes a point has the colour of the last
one over it.
-/

set_option autoImplicit false

namespace THue.Pictures

open scoped Classical in
/-- The region in one colour, and the picture elsewhere. -/
noncomputable def paint {P C : Type*} (S : Set P) (c : C) (p : P → C) : P → C :=
  fun q => if q ∈ S then c else p q

variable {P C : Type*} {S T : Set P} {c d : C} {p : P → C} {q : P}

theorem paint_in (h : q ∈ S) : paint S c p q = c := if_pos h

theorem paint_out (h : q ∉ S) : paint S c p q = p q := if_neg h

/-- A stroke: a region and its colour. -/
noncomputable def paintAll (strokes : List (Set P × C)) (p : P → C) : P → C :=
  strokes.foldl (fun p s => paint s.1 s.2 p) p

theorem paintAll_append (ss ts : List (Set P × C)) (p : P → C) :
    paintAll (ss++ts) p = paintAll ts (paintAll ss p) := List.foldl_append

theorem paintAll_out {ss : List (Set P × C)} (h : ∀ s ∈ ss, q ∉ s.1) : paintAll ss p q = p q := by
  induction ss generalizing p with
  | nil => rfl
  | cons s ss ih =>
    rw [paintAll, List.foldl_cons]
    exact (ih fun t ht => h t (List.mem_cons_of_mem _ ht)).trans
      (paint_out (h s List.mem_cons_self))

theorem paintAll_last {ss ts : List (Set P × C)} {s : Set P × C} (hs : q ∈ s.1)
    (h : ∀ t ∈ ts, q ∉ t.1) : paintAll (ss ++ s::ts) p q = s.2 := by
  rw [paintAll_append, show paintAll (s::ts) (paintAll ss p) =
    paintAll ts (paint s.1 s.2 (paintAll ss p)) from rfl, paintAll_out h, paint_in hs]

theorem paintAll_colored {ss : List (Set P × C)} (h : ∀ s ∈ ss, q ∈ s.1 → s.2 = c)
    (hs : ∃ s ∈ ss, q ∈ s.1) : paintAll ss p q = c := by
  induction ss using List.reverseRecOn with
  | nil =>
    obtain ⟨s,hs,-⟩ := hs
    exact absurd hs List.not_mem_nil
  | append_singleton ss s ih =>
    by_cases hq : q ∈ s.1
    · rw [paintAll_last hq (by simp)]
      exact h s (List.mem_append_right _ List.mem_cons_self) hq
    · rw [paintAll_append]
      obtain ⟨t,ht,hqt⟩ := hs
      obtain ht | ht := List.mem_append.mp ht
      · exact (paintAll_out (by simpa using hq)).trans
          (ih (fun t ht => h t (List.mem_append_left _ ht)) ⟨t,ht,hqt⟩)
      · rw [List.mem_singleton.mp ht] at hqt
        exact absurd hqt hq

end THue.Pictures
