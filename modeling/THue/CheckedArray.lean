import Mathlib.Data.List.OfFn
import Mathlib.Data.Fin.Basic
import Mathlib.Logic.Function.Basic
import Mathlib.Algebra.Order.Ring.Int

/-!
# Fixed arrays with checked indices

An array of `n` cells is a function on `Fin n`, so no cell outside it exists.
An index is a machine integer; reading or writing at an index outside the
array faults with the error the caller supplies. The first `c` cells, read as
a list, are the stack kept by an array and a counter.
-/

set_option autoImplicit false

namespace THue.CheckedArray

universe u v

variable {ε : Type u} {α : Type v} {n : ℕ}

def read (a : Fin n → α) (i : ℤ) (e : ε) : Except ε α :=
  if h : 0 ≤ i ∧ i < n then .ok (a ⟨i.toNat,by omega⟩) else .error e

def write (a : Fin n → α) (i : ℤ) (v : α) (e : ε) : Except ε (Fin n → α) :=
  if h : 0 ≤ i ∧ i < n then .ok (Function.update a ⟨i.toNat,by omega⟩ v) else .error e

theorem read_inside (a : Fin n → α) (e : ε) (i : ℕ) (h : i < n) :
    read a (i:ℤ) e = .ok (a ⟨i,h⟩) := by
  rw [read, dif_pos ⟨by omega,by omega⟩]
  rfl

theorem write_inside (a : Fin n → α) (v : α) (e : ε) (i : ℕ) (h : i < n) :
    write a (i:ℤ) v e = .ok (Function.update a ⟨i,h⟩ v) := by
  rw [write, dif_pos ⟨by omega,by omega⟩]
  rfl

theorem read_outside (a : Fin n → α) (e : ε) (i : ℤ) (h : i < 0 ∨ (n:ℤ) ≤ i) :
    read a i e = .error e := dif_neg (by omega)

theorem write_outside (a : Fin n → α) (v : α) (e : ε) (i : ℤ) (h : i < 0 ∨ (n:ℤ) ≤ i) :
    write a i v e = .error e := dif_neg (by omega)

theorem read_ok {a : Fin n → α} {i : ℤ} {e : ε} {v : α} :
    read a i e = .ok v ↔ ∃ (k : ℕ) (h : k < n), i = k ∧ a ⟨k,h⟩ = v := by
  constructor
  · intro hr
    by_cases h : 0 ≤ i ∧ i < n
    · rw [read, dif_pos h] at hr
      cases hr
      exact ⟨i.toNat,by omega,by omega,rfl⟩
    · rw [read, dif_neg h] at hr
      cases hr
  · rintro ⟨k,h,rfl,rfl⟩
    exact read_inside a e k h

theorem write_ok {a b : Fin n → α} {i : ℤ} {e : ε} {v : α} :
    write a i v e = .ok b ↔
      ∃ (k : ℕ) (h : k < n), i = k ∧ b = Function.update a ⟨k,h⟩ v := by
  constructor
  · intro hw
    by_cases h : 0 ≤ i ∧ i < n
    · rw [write, dif_pos h] at hw
      cases hw
      exact ⟨i.toNat,by omega,by omega,rfl⟩
    · rw [write, dif_neg h] at hw
      cases hw
  · rintro ⟨k,h,rfl,rfl⟩
    exact write_inside a v e k h

def front (a : Fin n → α) (c : ℕ) : List α := (List.ofFn a).take c

@[simp] theorem front_zero (a : Fin n → α) : front a 0 = [] := rfl

theorem front_length (a : Fin n → α) (c : ℕ) (h : c ≤ n) : (front a c).length = c := by
  simpa [front] using h

theorem front_get (a : Fin n → α) (c i : ℕ) (hi : i < c) (h : i < n) :
    (front a c)[i]? = some (a ⟨i,h⟩) := by
  simp [front, hi, h]

theorem front_succ (a : Fin n → α) (c : ℕ) (h : c < n) :
    front a (c+1) = front a c ++ [a ⟨c,h⟩] := by
  rw [front, List.take_add_one]
  simp [front, h]

theorem front_take (a : Fin n → α) (c d : ℕ) (h : d ≤ c) : (front a c).take d = front a d := by
  simp [front, List.take_take, Nat.min_eq_left h]

theorem front_update_above (a : Fin n → α) (c : ℕ) (i : Fin n) (v : α) (h : c ≤ i.val) :
    front (Function.update a i v) c = front a c := by
  apply List.ext_getElem?
  intro k
  by_cases hk : k < c
  · have hn : k < n := by omega
    rw [front_get _ c k hk hn, front_get _ c k hk hn, Function.update_of_ne]
    intro he
    have := congrArg Fin.val he
    simp only at this
    omega
  · simp [front, hk]

theorem front_push (a : Fin n → α) (c : ℕ) (h : c < n) (v : α) :
    front (Function.update a ⟨c,h⟩ v) (c+1) = front a c ++ [v] := by
  rw [front_succ _ c h, front_update_above a c ⟨c,h⟩ v (le_refl _)]
  simp

end THue.CheckedArray
