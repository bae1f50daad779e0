import Mathlib.Data.List.Basic
import Mathlib.Data.List.Range
import Mathlib.Tactic.Ring

/-!
# Buffers made of a header and equal slots

A buffer is a list with a header of `h` entries and slots of `k` entries.
Entries are written one at a time at a checked index; writing a whole slot
leaves the header and every other slot alone, and the slots determine the
body of the buffer.
-/

set_option autoImplicit false

namespace THue.SlottedBuffer

universe u v

variable {ε : Type v} {α β : Type u}

def poke (e : ℕ → ε) (buf : List α) (i : ℕ) (x : α) : Except ε (List α) :=
  if i < buf.length then .ok (buf.set i x) else .error (e i)

def pokes (e : ℕ → ε) : List α → ℕ → List α → Except ε (List α)
  | buf, _, [] => .ok buf
  | buf, i, x::xs => poke e buf i x >>= fun b => pokes e b (i+1) xs

def overwrite (buf : List α) (i : ℕ) (xs : List α) : List α :=
  buf.take i ++ xs ++ buf.drop (i+xs.length)

theorem overwrite_length (buf xs : List α) (i : ℕ) (h : i+xs.length ≤ buf.length) :
    (overwrite buf i xs).length = buf.length := by
  simp only [overwrite, List.length_append, List.length_take, List.length_drop]
  omega

theorem pokes_inside (e : ℕ → ε) (buf xs : List α) (i : ℕ) (h : i+xs.length ≤ buf.length) :
    pokes e buf i xs = .ok (overwrite buf i xs) := by
  induction xs generalizing buf i with
  | nil => simp [pokes, overwrite]
  | cons x xs ih =>
    simp only [List.length_cons] at h
    have hi : i < buf.length := by omega
    have ht := ih (buf.set i x) (i+1) (by rw [List.length_set]; omega)
    simp only [pokes, poke, if_pos hi]
    refine ht.trans (congrArg Except.ok ?_)
    simp only [overwrite, List.length_cons, List.append_assoc]
    rw [List.drop_set_of_lt (by omega), List.take_add_one, List.getElem?_set_self hi,
      List.take_set_of_le (le_refl i), show i+1+xs.length = i+(xs.length+1) by omega]
    simp

theorem getElem?_overwrite_below (buf xs : List α) (i j : ℕ) (h : i+xs.length ≤ buf.length)
    (hj : j < i) : (overwrite buf i xs)[j]? = buf[j]? := by
  rw [overwrite, List.append_assoc, List.getElem?_append_left (by rw [List.length_take]; omega),
    List.getElem?_take_of_lt hj]

theorem getElem?_overwrite_above (buf xs : List α) (i j : ℕ) (h : i+xs.length ≤ buf.length)
    (hj : i+xs.length ≤ j) : (overwrite buf i xs)[j]? = buf[j]? := by
  have hl : (buf.take i ++ xs).length = i+xs.length := by
    rw [List.length_append, List.length_take]
    omega
  rw [overwrite, List.getElem?_append_right (by omega), hl, List.getElem?_drop]
  congr 1
  omega

def slot (h k : ℕ) (buf : List α) (l : ℕ) : List α := (buf.drop (h+k*l)).take k

theorem overwrite_header (h k l : ℕ) (buf xs : List α) (hx : xs.length = k)
    (hb : h+k*l+k ≤ buf.length) : (overwrite buf (h+k*l) xs).take h = buf.take h := by
  rw [overwrite, List.append_assoc, List.take_append_of_le_length
    (by rw [List.length_take]; omega), List.take_take, Nat.min_eq_left (by omega)]

theorem slot_overwrite_same (h k l : ℕ) (buf xs : List α) (hx : xs.length = k)
    (hb : h+k*l+k ≤ buf.length) : slot h k (overwrite buf (h+k*l) xs) l = xs := by
  have ht : (buf.take (h+k*l)).length = h+k*l := by
    rw [List.length_take]
    omega
  rw [slot, overwrite, List.append_assoc, List.drop_left' ht, List.take_left' hx]

theorem slot_overwrite_other (h k l m : ℕ) (buf xs : List α) (hx : xs.length = k)
    (hb : h+k*l+k ≤ buf.length) (hm : m ≠ l) :
    slot h k (overwrite buf (h+k*l) xs) m = slot h k buf m := by
  apply List.ext_getElem?
  intro j
  by_cases hj : j < k
  · rw [slot, slot, List.getElem?_take_of_lt hj, List.getElem?_take_of_lt hj,
      List.getElem?_drop, List.getElem?_drop]
    rcases Nat.lt_or_gt_of_ne hm with hlt | hgt
    · have := Nat.mul_le_mul_left k (show m+1 ≤ l from hlt)
      rw [Nat.mul_succ] at this
      exact getElem?_overwrite_below _ _ _ _ (by omega) (by omega)
    · have := Nat.mul_le_mul_left k (show l+1 ≤ m from hgt)
      rw [Nat.mul_succ] at this
      exact getElem?_overwrite_above _ _ _ _ (by omega) (by omega)
  · rw [List.getElem?_eq_none (by rw [slot, List.length_take]; omega),
      List.getElem?_eq_none (by rw [slot, List.length_take]; omega)]

theorem body_eq_flatMap (k n : ℕ) (body : List α) (f : ℕ → List α)
    (hl : body.length = k*n) (hs : ∀ l < n, slot 0 k body l = f l) :
    body = (List.range n).flatMap f := by
  induction n generalizing body f with
  | zero => simpa using hl
  | succ n ih =>
    have h0 : body.take k = f 0 := by simpa [slot] using hs 0 (by omega)
    have hd : (body.drop k).length = k*n := by
      rw [List.length_drop, hl, Nat.mul_succ]
      omega
    have ht := ih (body.drop k) (fun l => f (l+1)) hd (fun l hlt => by
      have hf := hs (l+1) (by omega)
      simpa [slot, List.drop_drop, Nat.mul_succ, Nat.add_comm] using hf)
    calc
      body = body.take k ++ body.drop k := (List.take_append_drop k body).symm
      _ = f 0 ++ (List.range n).flatMap (fun l => f (l+1)) := by rw [h0, ← ht]
      _ = (List.range (n+1)).flatMap f := by
        rw [List.range_succ_eq_map, List.flatMap_cons, List.flatMap_map]

theorem slot_drop (h k l : ℕ) (buf : List α) : slot 0 k (buf.drop h) l = slot h k buf l := by
  simp [slot, List.drop_drop]

end THue.SlottedBuffer
