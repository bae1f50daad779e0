import Mathlib.Algebra.BigOperators.Group.List.Basic
import Mathlib.Algebra.Ring.Int.Defs

/-!
# Runs of machines with outputs

A machine takes inputs one at a time, changes its state and answers each input
with a list of outputs. A guard is a condition on the input in the state in
which it is taken. The rules give invariants, simulations between two machines
and the sum of what a run puts out.
-/

set_option autoImplicit false

namespace THue.OutputRuns

variable {σ τ μ ν ο : Type*}

def run (step : σ → μ → σ × List ο) : σ → List μ → σ × List ο
  | s, [] => (s,[])
  | s, m::ms => ((run step (step s m).1 ms).1,(step s m).2 ++ (run step (step s m).1 ms).2)

/-- Every input of the run meets the guard. -/
def Guarded (step : σ → μ → σ × List ο) (ok : σ → μ → Prop) : σ → List μ → Prop
  | _, [] => True
  | s, m::ms => ok s m ∧ Guarded step ok (step s m).1 ms

instance guarded_decidable (step : σ → μ → σ × List ο) (ok : σ → μ → Prop)
    [∀ s m, Decidable (ok s m)] : ∀ s ms, Decidable (Guarded step ok s ms)
  | _, [] => isTrue trivial
  | s, m::ms =>
      have := guarded_decidable step ok (step s m).1 ms
      inferInstanceAs (Decidable (_ ∧ _))

@[simp] theorem run_nil (step : σ → μ → σ × List ο) (s : σ) : run step s [] = (s,[]) := rfl

theorem run_append (step : σ → μ → σ × List ο) (s : σ) (ms ns : List μ) :
    run step s (ms++ns) = ((run step (run step s ms).1 ns).1,
      (run step s ms).2 ++ (run step (run step s ms).1 ns).2) := by
  induction ms generalizing s with
  | nil => rfl
  | cons m ms ih => simp only [List.cons_append, run, ih, List.append_assoc]

theorem guarded_append {step : σ → μ → σ × List ο} {ok : σ → μ → Prop} {s : σ} {ms ns : List μ} :
    Guarded step ok s (ms++ns) ↔
      Guarded step ok s ms ∧ Guarded step ok (run step s ms).1 ns := by
  induction ms generalizing s with
  | nil => exact (and_iff_right trivial).symm
  | cons m ms ih => simp only [List.cons_append, Guarded, run, ih, and_assoc]

theorem guarded_true (step : σ → μ → σ × List ο) (s : σ) (ms : List μ) :
    Guarded step (fun _ _ => True) s ms := by
  induction ms generalizing s with
  | nil => trivial
  | cons m ms ih => exact ⟨trivial,ih _⟩

theorem run_keeps {step : σ → μ → σ × List ο} {ok : σ → μ → Prop} {I : σ → Prop} {s : σ}
    {ms : List μ} (hstep : ∀ s m, I s → ok s m → I (step s m).1) (hs : I s)
    (hms : Guarded step ok s ms) : I (run step s ms).1 := by
  induction ms generalizing s with
  | nil => exact hs
  | cons m ms ih => exact ih (hstep s m hs hms.1) hms.2

theorem run_simulates {step : σ → μ → σ × List ο} {step' : τ → ν → τ × List ο}
    {ok : τ → ν → Prop} {R : σ → τ → Prop} {f : ν → μ} {s : σ} {t : τ} {ns : List ν}
    (hstep : ∀ s t n, R s t → ok t n →
      R (step s (f n)).1 (step' t n).1 ∧ (step s (f n)).2 = (step' t n).2)
    (h : R s t) (hns : Guarded step' ok t ns) :
    R (run step s (ns.map f)).1 (run step' t ns).1 ∧
      (run step s (ns.map f)).2 = (run step' t ns).2 := by
  induction ns generalizing s t with
  | nil => exact ⟨h,rfl⟩
  | cons n ns ih =>
    obtain ⟨hnext,hout⟩ := hstep s t n h hns.1
    obtain ⟨hlast,hrest⟩ := ih hnext hns.2
    exact ⟨hlast,by rw [List.map_cons, run, run, hout, hrest]⟩

theorem outputs_sum {step : σ → μ → σ × List ο} {ok : σ → μ → Prop} {I : σ → Prop} {w : ο → ℤ}
    {q : σ → ℤ} {s : σ} {ms : List μ} (hstep : ∀ s m, I s → ok s m → I (step s m).1)
    (hsum : ∀ s m, I s → ok s m → ((step s m).2.map w).sum = q (step s m).1 - q s) (hs : I s)
    (hms : Guarded step ok s ms) :
    ((run step s ms).2.map w).sum = q (run step s ms).1 - q s := by
  induction ms generalizing s with
  | nil => simp
  | cons m ms ih =>
    have hrest := ih (hstep s m hs hms.1) hms.2
    have hfirst := hsum s m hs hms.1
    simp only [run, List.map_append, List.sum_append]
    omega

def watch {ρ : Type*} (read : ρ → ο → Option ρ) (r : ρ) (os : List ο) : Option ρ := os.foldlM read r

theorem watch_append {ρ : Type*} (read : ρ → ο → Option ρ) (r : ρ) (os os' : List ο) :
    watch read r (os++os') = (watch read r os).bind fun r => watch read r os' :=
  List.foldlM_append

theorem watch_run {ρ : Type*} {step : σ → μ → σ × List ο} {ok : σ → μ → Prop}
    {read : ρ → ο → Option ρ} {R : σ → ρ → Prop} {s : σ} {r : ρ} {ms : List μ}
    (hstep : ∀ s r m, R s r → ok s m →
      ∃ r', watch read r (step s m).2 = some r' ∧ R (step s m).1 r')
    (h : R s r) (hms : Guarded step ok s ms) :
    ∃ r', watch read r (run step s ms).2 = some r' ∧ R (run step s ms).1 r' := by
  induction ms generalizing s r with
  | nil => exact ⟨r,rfl,h⟩
  | cons m ms ih =>
    obtain ⟨r₁,hfirst,hnext⟩ := hstep s r m h hms.1
    obtain ⟨r₂,hrest,hlast⟩ := ih hnext hms.2
    exact ⟨r₂,by rw [run, watch_append, hfirst, Option.bind_some, hrest],hlast⟩

end THue.OutputRuns
