import Mathlib.Data.List.Basic
import Mathlib.Data.Int.Notation

/-!
# Faulting programs and guarded runs

A program step either ends in a state or faults. The rules below are stated
for any state, move and fault type: a rule of consequence and a bind rule for
one step, an induction for whole runs, and the equivalence between a law that
holds in every reached state and a guard that every move of the run meets.
-/

set_option autoImplicit false

namespace THue.FaultRun

universe u

variable {σ μ ε : Type*} {α β : Type u}

/-- The result of a step, judged by a postcondition and by the allowed faults. -/
def Ends (x : Except ε α) (Q : α → Prop) (E : ε → Prop) : Prop :=
  match x with
  | .ok a => Q a
  | .error e => E e

@[simp] theorem ends_ok (a : α) (Q : α → Prop) (E : ε → Prop) :
    Ends (.ok a : Except ε α) Q E ↔ Q a := Iff.rfl

@[simp] theorem ends_error (e : ε) (Q : α → Prop) (E : ε → Prop) :
    Ends (.error e : Except ε α) Q E ↔ E e := Iff.rfl

@[simp] theorem ends_pure (a : α) (Q : α → Prop) (E : ε → Prop) :
    Ends (pure a : Except ε α) Q E ↔ Q a := Iff.rfl

theorem ends_true (x : Except ε α) : Ends x (fun _ => True) (fun _ => True) := by
  cases x <;> trivial

theorem ends_self (x : Except ε α) : Ends x (fun a => x = .ok a) (fun _ => True) := by
  cases x <;> trivial

theorem ends_and {x : Except ε α} {Q R : α → Prop} {E F : ε → Prop} (hQ : Ends x Q E)
    (hR : Ends x R F) : Ends x (fun a => Q a ∧ R a) E := by
  cases x with
  | ok a => exact ⟨hQ,hR⟩
  | error e => exact hQ

theorem ends_bind {x : Except ε α} {f : α → Except ε β} {Q : α → Prop} {R : β → Prop}
    {E : ε → Prop} (hx : Ends x Q E) (hf : ∀ a, Q a → Ends (f a) R E) : Ends (x >>= f) R E := by
  cases x with
  | ok a => exact hf a hx
  | error e => exact hx

theorem ends_bind_ok {x : Except ε α} {f : α → Except ε β} {a : α} {R : β → Prop} {E : ε → Prop}
    (hx : x = .ok a) (hf : Ends (f a) R E) : Ends (x >>= f) R E := by
  subst hx
  exact hf

theorem ends_mono {x : Except ε α} {Q R : α → Prop} {E F : ε → Prop} (h : Ends x Q E)
    (hQ : ∀ a, Q a → R a) (hE : ∀ e, E e → F e) : Ends x R F := by
  cases x with
  | ok a => exact hQ a h
  | error e => exact hE e h

theorem ends_imp {x : Except ε α} {Q R : α → Prop} {E : ε → Prop} (h : Ends x Q E)
    (hQ : ∀ a, Q a → R a) : Ends x R E := ends_mono h hQ fun _ he => he

theorem ends_of_ok {x : Except ε α} {Q : α → Prop} {E : ε → Prop} {a : α}
    (h : Ends x Q E) (hx : x = .ok a) : Q a := by
  subst hx
  exact h

theorem bind_ok {x : Except ε α} {f : α → Except ε β} {b : β} :
    x >>= f = .ok b ↔ ∃ a, x = .ok a ∧ f a = .ok b := by
  constructor
  · intro h
    cases x with
    | ok a => exact ⟨a,rfl,h⟩
    | error e => cases h
  · rintro ⟨a,rfl,h⟩
    exact h

theorem ok_getD {x : Except ε α} (d : α) (h : x.isOk = true) : x = .ok (x.toOption.getD d) := by
  cases x with
  | ok a => rfl
  | error e => cases h

def run (step : σ → μ → Except ε σ) : σ → List μ → Except ε σ
  | s, [] => .ok s
  | s, m::ms => step s m >>= fun t => run step t ms

theorem run_cons_ok {step : σ → μ → Except ε σ} {s t : σ} {m : μ} {ms : List μ} :
    run step s (m::ms) = .ok t ↔ ∃ u, step s m = .ok u ∧ run step u ms = .ok t :=
  bind_ok

theorem run_append (step : σ → μ → Except ε σ) (s : σ) (ms ns : List μ) :
    run step s (ms++ns) = run step s ms >>= fun t => run step t ns := by
  induction ms generalizing s with
  | nil => rfl
  | cons m ms ih =>
    simp only [List.cons_append, run]
    cases step s m with
    | ok u => exact ih u
    | error e => rfl

theorem run_append_ok {step : σ → μ → Except ε σ} {s u : σ} {ms ns : List μ} :
    run step s (ms++ns) = .ok u ↔ ∃ t, run step s ms = .ok t ∧ run step t ns = .ok u := by
  rw [run_append]
  exact bind_ok

/-- Every state of the run satisfies `P`; a fault that ends it satisfies `E`. -/
def Runs (step : σ → μ → Except ε σ) (P : σ → Prop) (E : ε → Prop) : σ → List μ → Prop
  | s, [] => P s
  | s, m::ms => P s ∧ Ends (step s m) (fun t => Runs step P E t ms) E

/-- Every move of the run meets the guard in the state in which it is taken. -/
def Meets (step : σ → μ → Except ε σ) (ok : σ → μ → Prop) : σ → List μ → Prop
  | _, [] => True
  | s, m::ms => ok s m ∧ Ends (step s m) (fun t => Meets step ok t ms) (fun _ => True)

/-- After every move that is a trigger the rest of the run satisfies `C`. -/
def Whenever (step : σ → μ → Except ε σ) (trigger : σ → μ → Prop) (C : σ → List μ → Prop) :
    σ → List μ → Prop
  | _, [] => True
  | s, m::ms => (trigger s m → Ends (step s m) (fun t => C t ms) (fun _ => True)) ∧
      Ends (step s m) (fun t => Whenever step trigger C t ms) (fun _ => True)

def Unless (step : σ → μ → Except ε σ) (bad release : σ → μ → Prop) : σ → List μ → Prop
  | _, [] => True
  | s, m::ms => release s m ∨
      (¬bad s m ∧ Ends (step s m) (fun t => Unless step bad release t ms) (fun _ => True))

theorem meets_and {step : σ → μ → Except ε σ} {P Q : σ → μ → Prop} {s : σ} {ms : List μ}
    (hP : Meets step P s ms) (hQ : Meets step Q s ms) :
    Meets step (fun s m => P s m ∧ Q s m) s ms := by
  induction ms generalizing s with
  | nil => trivial
  | cons m ms ih =>
    refine ⟨⟨hP.1,hQ.1⟩,?_⟩
    exact ends_imp (ends_and hP.2 hQ.2) fun t ht => ih ht.1 ht.2

theorem meets_moves {step : σ → μ → Except ε σ} {C : μ → Prop} {s : σ} {ms : List μ}
    (hC : ∀ m ∈ ms, C m) : Meets step (fun _ m => C m) s ms := by
  induction ms generalizing s with
  | nil => trivial
  | cons m ms ih =>
    have hrest := fun t => ih (s := t) fun n hn => hC n (List.mem_cons_of_mem _ hn)
    exact ⟨hC m List.mem_cons_self,ends_imp (ends_true _) (fun t _ => hrest t)⟩

theorem meets_forall {step : σ → μ → Except ε σ} {ok : σ → μ → Prop} {C : μ → Prop} {s : σ}
    {ms : List μ} (hC : ∀ m ∈ ms, C m) (h : Meets step ok s ms) :
    Meets step (fun s m => C m ∧ ok s m) s ms := meets_and (meets_moves hC) h

instance ends_decidable (x : Except ε α) (Q : α → Prop) (E : ε → Prop) [DecidablePred Q]
    [DecidablePred E] : Decidable (Ends x Q E) :=
  match x with
  | .ok a => inferInstanceAs (Decidable (Q a))
  | .error e => inferInstanceAs (Decidable (E e))

instance meets_decidable (step : σ → μ → Except ε σ) (ok : σ → μ → Prop)
    [∀ s m, Decidable (ok s m)] : ∀ s ms, Decidable (Meets step ok s ms)
  | _, [] => isTrue trivial
  | s, m::ms =>
      match hx : step s m with
      | .ok t =>
          have := meets_decidable step ok t ms
          decidable_of_iff (ok s m ∧ Meets step ok t ms) (by simp [Meets, hx])
      | .error e => decidable_of_iff (ok s m) (by simp [Meets, hx])

theorem runs_head {step : σ → μ → Except ε σ} {P : σ → Prop} {E : ε → Prop} {s : σ}
    {ms : List μ} (h : Runs step P E s ms) : P s := by
  cases ms with
  | nil => exact h
  | cons m ms => exact h.1

theorem runs_last {step : σ → μ → Except ε σ} {P : σ → Prop} {E : ε → Prop} {s t : σ}
    {ms : List μ} (h : Runs step P E s ms) (hr : run step s ms = .ok t) : P t := by
  induction ms generalizing s with
  | nil => cases hr; exact h
  | cons m ms ih =>
    obtain ⟨u,hu,ht⟩ := run_cons_ok.mp hr
    have h' := ends_of_ok (Q := fun t => Runs step P E t ms) h.2 hu
    exact ih h' ht

theorem runs_ends {step : σ → μ → Except ε σ} {P : σ → Prop} {E : ε → Prop} {s : σ}
    {ms : List μ} (h : Runs step P E s ms) : Ends (run step s ms) P E := by
  induction ms generalizing s with
  | nil => exact h
  | cons m ms ih => exact ends_bind h.2 fun _ ht => ih ht

theorem meets_snoc {step : σ → μ → Except ε σ} {ok : σ → μ → Prop} {s t : σ} {m : μ}
    {ms : List μ} (h : Meets step ok s ms) (hr : run step s ms = .ok t) (hm : ok t m) :
    Meets step ok s (ms++[m]) := by
  induction ms generalizing s with
  | nil =>
    cases hr
    refine ⟨hm,?_⟩
    cases step t m <;> trivial
  | cons n ms ih =>
    obtain ⟨u,hu,ht⟩ := run_cons_ok.mp hr
    have hn := h.2
    rw [hu] at hn
    refine ⟨h.1,?_⟩
    rw [hu]
    exact ih hn ht

theorem meets_returned {step : σ → μ → Except ε σ} {ok : σ → μ → Prop} {s u : σ} {ms : List μ}
    (hr : run step s ms = .ok u) (h : Meets step ok s ms) :
    Meets step (fun s m => ok s m ∧ ∃ t, step s m = .ok t) s ms := by
  induction ms generalizing s with
  | nil => trivial
  | cons m ms ih =>
    obtain ⟨t,ht,hu⟩ := run_cons_ok.mp hr
    have hrest := h.2
    rw [ht] at hrest
    refine ⟨⟨h.1,t,ht⟩,?_⟩
    rw [ht]
    exact ih hu hrest

theorem runs_step {step : σ → μ → Except ε σ} {P : σ → Prop} {E : ε → Prop} {s t : σ} {m : μ}
    {ms : List μ} (h : Runs step P E s (ms++[m])) (hr : run step s ms = .ok t) :
    Ends (step t m) P E := by
  induction ms generalizing s with
  | nil =>
    cases hr
    exact h.2
  | cons n ms ih =>
    obtain ⟨u,hu,ht⟩ := run_cons_ok.mp hr
    have hn := h.2
    rw [hu] at hn
    exact ih hn ht

theorem whenever_at {step : σ → μ → Except ε σ} {trigger : σ → μ → Prop} {C : σ → List μ → Prop}
    {s t u : σ} {m : μ} {ms ns : List μ} (h : Whenever step trigger C s (ms++m::ns))
    (hr : run step s ms = .ok t) (hm : trigger t m) (hs : step t m = .ok u) : C u ns := by
  induction ms generalizing s with
  | nil =>
    cases hr
    exact ends_of_ok (Q := fun u => C u ns) (h.1 hm) hs
  | cons n ms ih =>
    obtain ⟨v,hv,ht⟩ := run_cons_ok.mp hr
    exact ih (ends_of_ok (Q := fun v => Whenever step trigger C v (ms++m::ns)) h.2 hv) ht

section Rules
variable {step : σ → μ → Except ε σ} {I P : σ → Prop} {E : ε → Prop} {ok : σ → μ → Prop}

theorem invariant_run (hstep : ∀ s m t, I s → ok s m → step s m = .ok t → I t)
    {s t : σ} {ms : List μ} (hs : I s) (hm : Meets step ok s ms)
    (hr : run step s ms = .ok t) : I t := by
  induction ms generalizing s with
  | nil => cases hr; exact hs
  | cons m ms ih =>
    obtain ⟨u,hu,ht⟩ := run_cons_ok.mp hr
    have hm' := ends_of_ok (Q := fun t => Meets step ok t ms) hm.2 hu
    exact ih (hstep s m u hs hm.1 hu) hm' ht

theorem meets_of_invariant (hok : ∀ s m, I s → ok s m)
    (hstep : ∀ s m, I s → Ends (step s m) I (fun _ => True)) {s : σ} {ms : List μ} (hs : I s) :
    Meets step ok s ms := by
  induction ms generalizing s with
  | nil => trivial
  | cons m ms ih => exact ⟨hok s m hs,ends_imp (hstep s m hs) (fun _ ht => ih ht)⟩

theorem runs_of_meets (hP : ∀ s, I s → P s)
    (hstep : ∀ s m, I s → ok s m → Ends (step s m) I E)
    {s : σ} {ms : List μ} (hs : I s) (hm : Meets step ok s ms) : Runs step P E s ms := by
  induction ms generalizing s with
  | nil => exact hP s hs
  | cons m ms ih =>
    refine ⟨hP s hs,?_⟩
    have he := hstep s m hs hm.1
    have ht := hm.2
    cases h : step s m with
    | ok t => rw [h] at he ht; exact ih he ht
    | error e => rw [h] at he; exact he

/-- A law that fails at the first move outside `ok` holds exactly on the runs
that stay inside, among the runs that meet a further guard. -/
theorem runs_iff_guarded {G : σ → μ → Prop} (hP : ∀ s, I s → P s)
    (hstep : ∀ s m, I s → G s m → ok s m → Ends (step s m) I E)
    (hbad : ∀ s m, I s → G s m → ¬ok s m → ¬Ends (step s m) P E)
    {s : σ} (hs : I s) {ms : List μ} (hg : Meets step G s ms) :
    Runs step P E s ms ↔ Meets step ok s ms := by
  refine ⟨fun h => ?_,fun h => ?_⟩
  · induction ms generalizing s with
    | nil => trivial
    | cons m ms ih =>
      have hok : ok s m := by
        by_contra hn
        exact hbad s m hs hg.1 hn (ends_imp h.2 (fun _ ht => runs_head ht))
      have he := hstep s m hs hg.1 hok
      have ht := h.2
      have hg' := hg.2
      refine ⟨hok,?_⟩
      cases hx : step s m with
      | ok t => rw [hx] at he ht hg'; exact ih he hg' ht
      | error e => trivial
  · exact runs_of_meets hP (fun s m hs hm => hstep s m hs hm.1 hm.2) hs (meets_and hg h)

theorem runs_iff_meets (hP : ∀ s, I s → P s)
    (hstep : ∀ s m, I s → ok s m → Ends (step s m) I E)
    (hbad : ∀ s m, I s → ¬ok s m → ¬Ends (step s m) P E)
    {s : σ} (hs : I s) (ms : List μ) : Runs step P E s ms ↔ Meets step ok s ms :=
  runs_iff_guarded (G := fun _ _ => True) hP (fun s m hs _ => hstep s m hs)
    (fun s m hs _ => hbad s m hs) hs (meets_moves (C := fun _ => True) fun _ _ => trivial)

theorem runs_iff_meets_of_step
    (hstep : ∀ s m, I s → P s → Ends (step s m) (fun t => I t ∧ (P t ↔ ok s m)) (fun _ => False))
    {s : σ} (hs : I s) (hp : P s) (ms : List μ) : Runs step P E s ms ↔ Meets step ok s ms := by
  refine runs_iff_meets (I := fun s => I s ∧ P s) (fun _ h => h.2) (fun s m h hm => ?_)
    (fun s m h hm ht => ?_) ⟨hs,hp⟩ ms
  · exact ends_mono (hstep s m h.1 h.2) (fun t ht => ⟨ht.1,ht.2.mpr hm⟩) fun _ he => he.elim
  · have he := hstep s m h.1 h.2
    cases hx : step s m with
    | ok t =>
      rw [hx] at he ht
      exact hm (he.2.mp ht)
    | error e =>
      rw [hx] at he
      exact he

theorem runs_iff_meets_of_ok (hP : ∀ s, I s → P s)
    (hstep : ∀ s m t, I s → ok s m → step s m = .ok t → I t)
    (hbad : ∀ s m t, I s → ¬ok s m → step s m = .ok t → ¬P t)
    {s u : σ} (hs : I s) {ms : List μ} (hr : run step s ms = .ok u) :
    Runs step P (fun _ => True) s ms ↔ Meets step ok s ms := by
  induction ms generalizing s with
  | nil => exact ⟨fun _ => trivial,fun _ => hP s hs⟩
  | cons m ms ih =>
    obtain ⟨t,ht,hu⟩ := run_cons_ok.mp hr
    simp only [Runs, Meets, ht, ends_ok]
    constructor
    · intro h
      have hok : ok s m := by
        by_contra hn
        exact hbad s m t hs hn ht (runs_head h.2)
      exact ⟨hok,(ih (hstep s m t hs hok ht) hu).mp h.2⟩
    · intro h
      exact ⟨hP s hs,(ih (hstep s m t hs h.1 ht) hu).mpr h.2⟩

theorem meets_imp {guard P : σ → μ → Prop}
    (hstep : ∀ s m, I s → guard s m → Ends (step s m) I (fun _ => True))
    (hP : ∀ s m, I s → guard s m → P s m) {s : σ} (hs : I s) {ms : List μ}
    (hm : Meets step guard s ms) : Meets step P s ms := by
  induction ms generalizing s with
  | nil => trivial
  | cons m ms ih =>
    obtain ⟨hg,hrest⟩ := hm
    refine ⟨hP s m hs hg,?_⟩
    exact ends_imp (ends_and hrest (hstep s m hs hg)) fun t ht => ih ht.2 ht.1

/-- Two guards that agree where the invariant holds agree along a run, if the
invariant survives the steps that meet both the second and a third. -/
theorem meets_iff_guarded {guard P Q : σ → μ → Prop}
    (hstep : ∀ s m t, I s → guard s m → Q s m → step s m = .ok t → I t)
    (hPQ : ∀ s m, I s → guard s m → (P s m ↔ Q s m)) {s : σ} (hs : I s) {ms : List μ}
    (hm : Meets step guard s ms) : Meets step P s ms ↔ Meets step Q s ms := by
  induction ms generalizing s with
  | nil => exact Iff.rfl
  | cons m ms ih =>
    obtain ⟨hg,hrest⟩ := hm
    rw [Meets, Meets, hPQ s m hs hg]
    refine and_congr_right fun hQ => ?_
    cases h : step s m with
    | error e => exact Iff.rfl
    | ok t =>
      rw [h] at hrest
      exact ih (hstep s m t hs hg hQ h) hrest

theorem meets_iff {guard P Q : σ → μ → Prop}
    (hstep : ∀ s m t, I s → guard s m → step s m = .ok t → I t)
    (hPQ : ∀ s m, I s → guard s m → (P s m ↔ Q s m)) {s : σ} (hs : I s) {ms : List μ}
    (hm : Meets step guard s ms) : Meets step P s ms ↔ Meets step Q s ms :=
  meets_iff_guarded (fun s m t hI hg _ => hstep s m t hI hg) hPQ hs hm

theorem meets_iff_kept {P Q : σ → μ → Prop}
    (hstep : ∀ s m t, I s → Q s m → step s m = .ok t → I t)
    (hPQ : ∀ s m, I s → (P s m ↔ Q s m)) {s : σ} (hs : I s) {ms : List μ} :
    Meets step P s ms ↔ Meets step Q s ms :=
  meets_iff_guarded (fun s m t hI _ => hstep s m t hI) (fun s m hI _ => hPQ s m hI) hs
    (meets_moves (C := fun _ => True) fun _ _ => trivial)

/-- A measure that no step lowers stays level over a run exactly when each of
its steps keeps it. -/
theorem level_iff_meets {f : σ → ℤ}
    (hstep : ∀ s m t, step s m = .ok t → f s ≤ f t ∧ (f t = f s ↔ ok s m)) {s u : σ}
    {ms : List μ} (hr : run step s ms = .ok u) :
    f s ≤ f u ∧ (f u = f s ↔ Meets step ok s ms) := by
  induction ms generalizing s with
  | nil =>
    cases hr
    exact ⟨Int.le_refl _,fun _ => trivial,fun _ => rfl⟩
  | cons m ms ih =>
    obtain ⟨t,ht,hu⟩ := run_cons_ok.mp hr
    obtain ⟨hle,hone⟩ := hstep s m t ht
    obtain ⟨hrest,hall⟩ := ih hu
    simp only [Meets, ht, ends_ok, ← hone, ← hall]
    omega

/-- Two promises agree along a run where every trigger leads to a state in
which they agree. -/
theorem whenever_iff {trigger trigger' : σ → μ → Prop} {C C' : σ → List μ → Prop}
    (hstep : ∀ s m t, I s → step s m = .ok t → I t)
    (hC : ∀ s m t ms, I s → step s m = .ok t →
      ((trigger s m → C t ms) ↔ (trigger' s m → C' t ms)))
    {s : σ} (hs : I s) (ms : List μ) :
    Whenever step trigger C s ms ↔ Whenever step trigger' C' s ms := by
  induction ms generalizing s with
  | nil => exact Iff.rfl
  | cons m ms ih =>
    simp only [Whenever]
    cases h : step s m with
    | error e => simp only [ends_error, implies_true]
    | ok t =>
      simp only [ends_ok]
      rw [hC s m t ms hs h, ih (hstep s m t hs h)]

end Rules

end THue.FaultRun
