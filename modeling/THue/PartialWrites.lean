import Mathlib.Data.List.Infix
import Mathlib.Data.List.TakeDrop
import Mathlib.Data.Int.Order.Basic
import Mathlib.Tactic.Common

/-!
# Writing a buffer in parts

A loop calls a writer until a whole buffer is accepted or a call fails, each
time behind the elements accepted before. How many elements are offered at an
offset is a parameter; the buffer is written once where every call stays in it.
-/

set_option autoImplicit false

namespace THue.PartialWrites

universe u

/-- A call, with its result: the number accepted, or a negative error. -/
structure Call where
  offset : ℕ
  length : ℕ
  ret : ℤ
  deriving DecidableEq, Repr

structure Written where
  done : Bool
  calls : List Call
  deriving DecidableEq, Repr

def writeFrom (offer : ℕ → ℕ) (size : ℕ) (write : ℕ → ℕ → ℤ) : ℕ → ℕ → ℕ → Option Written
  | 0, _, _ => none
  | rounds+1, n, total =>
      if total < size then
        let ret := write n (offer total)
        let call : Call := { offset := total, length := offer total, ret := ret }
        if ret < 0 then some { done := false, calls := [call] }
        else (writeFrom offer size write rounds (n+1) (total+ret.toNat)).map fun w =>
          { w with calls := call::w.calls }
      else some { done := true, calls := [] }

/-- A call fails, or accepts at least one element and at most those offered. -/
def Answers (write : ℕ → ℕ → ℤ) : Prop :=
  ∀ n length, 0 < length → write n length < 0 ∨ 1 ≤ write n length ∧ write n length ≤ length

def accepted {α : Type u} (buf : List α) (calls : List Call) : List α :=
  calls.flatMap fun c => (buf.drop c.offset).take c.ret.toNat

/-- Every call stays in the buffer, and success means that all of it was accepted, once. -/
structure WrittenOnce {α : Type u} (buf : List α) (w : Written) : Prop where
  inside : ∀ c ∈ w.calls, c.offset + c.length ≤ buf.length
  start : accepted buf w.calls <+: buf
  whole : w.done = true ↔ accepted buf w.calls = buf
  failed : w.done = false ↔ ∃ c ∈ w.calls, c.ret < 0

section Runs
variable {α : Type u} {buf : List α} {offer : ℕ → ℕ} {size rounds n total : ℕ}
  {write : ℕ → ℕ → ℤ} {w : Written}

theorem writeFrom_full (ht : size ≤ total)
    (h : writeFrom offer size write rounds n total = some w) : w.calls = [] := by
  cases rounds with
  | zero => cases h
  | succ rounds =>
    rw [writeFrom, if_neg (not_lt.mpr ht)] at h
    cases h
    rfl

theorem writeFrom_first (ht : total < size)
    (h : writeFrom offer size write rounds n total = some w) :
    ∃ later, w.calls =
      { offset := total, length := offer total, ret := write n (offer total) } :: later ∧
      (write n (offer total) < 0 → later = []) ∧
      (¬write n (offer total) < 0 → ∃ rounds v, v.calls = later ∧ writeFrom offer size write
        rounds (n+1) (total + (write n (offer total)).toNat) = some v) := by
  cases rounds with
  | zero => cases h
  | succ rounds =>
    rw [writeFrom, if_pos ht] at h
    dsimp only at h
    split at h
    · next hneg =>
      cases h
      exact ⟨[],rfl,fun _ => rfl,fun hn => absurd hneg hn⟩
    · next hnonneg =>
      obtain ⟨v,hv,rfl⟩ := Option.map_eq_some_iff.mp h
      exact ⟨v.calls,rfl,fun hneg => absurd hneg hnonneg,fun _ => ⟨rounds,v,rfl,hv⟩⟩

theorem writeFrom_ends (hw : Answers write) (ho : ∀ total < size, 0 < offer total)
    (hr : size-total < rounds) : ∃ w, writeFrom offer size write rounds n total = some w := by
  induction rounds generalizing n total with
  | zero => omega
  | succ rounds ih =>
    rw [writeFrom]
    by_cases ht : total < size
    · rw [if_pos ht]
      dsimp only
      rcases hw n (offer total) (ho total ht) with hneg | ⟨hpos,-⟩
      · exact ⟨_,if_pos hneg⟩
      · rw [if_neg (by omega)]
        have hless : size-(total + (write n (offer total)).toNat) < rounds := by omega
        obtain ⟨w,hrun⟩ := ih (n := n+1) hless
        rw [hrun]
        exact ⟨_,rfl⟩
    · exact ⟨_,if_neg ht⟩

/-- Where the calls stay inside, what is accepted is a stretch of the buffer; it
reaches the end exactly where no call fails. -/
theorem writeFrom_stretch (hw : Answers write) (ho : ∀ total < buf.length, 0 < offer total)
    (ht : total ≤ buf.length) (h : writeFrom offer buf.length write rounds n total = some w)
    (hin : ∀ c ∈ w.calls, c.offset + c.length ≤ buf.length) :
    ∃ stop, total ≤ stop ∧ stop ≤ buf.length ∧
      accepted buf w.calls = (buf.take stop).drop total ∧
      (w.done = true ↔ stop = buf.length) ∧
      (w.done = false ↔ ∃ c ∈ w.calls, c.ret < 0) := by
  induction rounds generalizing n total w with
  | zero => cases h
  | succ rounds ih =>
    rw [writeFrom] at h
    split at h
    · next hlt =>
      dsimp only at h
      split at h
      · next hneg =>
        cases h
        refine ⟨total,le_refl _,ht,?_,?_,?_⟩
        · simp [accepted, Int.toNat_of_nonpos hneg.le]
        · simp only [Bool.false_eq_true, false_iff]
          omega
        · exact iff_of_true rfl ⟨_,List.mem_singleton_self _,hneg⟩
      · next hnonneg =>
        obtain ⟨v,hv,rfl⟩ := Option.map_eq_some_iff.mp h
        obtain ⟨hhead,htail⟩ := List.forall_mem_cons.mp hin
        dsimp only at hhead
        have hret := (hw n (offer total) (ho total hlt)).resolve_left hnonneg
        obtain ⟨stop,hle,hstop,hacc,hdone,hfail⟩ :=
          ih (by omega) hv htail
        refine ⟨stop,by omega,hstop,?_,hdone,?_⟩
        · have hsplit : (buf.take stop).drop total =
              (buf.drop total).take (write n (offer total)).toNat ++
                (buf.take stop).drop (total + (write n (offer total)).toNat) := by
            have hparts : stop-total = (write n (offer total)).toNat +
                (stop-(total + (write n (offer total)).toNat)) := by omega
            rw [List.drop_take, List.drop_take, hparts, List.take_add, List.drop_drop]
          rw [hsplit, ← hacc]
          rfl
        · rw [hfail]
          simp only [List.exists_mem_cons_iff]
          exact ⟨Or.inr,fun h => h.resolve_left hnonneg⟩
    · cases h
      refine ⟨total,le_refl _,ht,?_,?_,?_⟩
      · simp [accepted]
      · simp only [true_iff]
        omega
      · simp

theorem writtenOnce_iff (hw : Answers write) (ho : ∀ total < buf.length, 0 < offer total)
    (h : writeFrom offer buf.length write rounds 0 0 = some w) :
    WrittenOnce buf w ↔ ∀ c ∈ w.calls, c.offset + c.length ≤ buf.length := by
  constructor
  · exact fun hw => hw.inside
  · intro hin
    obtain ⟨stop,-,hstop,hacc,hdone,hfail⟩ := writeFrom_stretch hw ho (Nat.zero_le _) h hin
    rw [List.drop_zero] at hacc
    refine ⟨hin,?_,?_,hfail⟩
    · rw [hacc]
      exact List.take_prefix stop buf
    · rw [hdone, hacc, List.take_eq_self_iff]
      omega

end Runs

end THue.PartialWrites
