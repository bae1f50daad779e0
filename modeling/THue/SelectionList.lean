import THue.Entertainment
import Mathlib.Data.List.Nodup

/-!
# The selection as a list

The lights selected for a behavior are the first `lightCounter` cells of its
array. Adding a light appends it; removing a selected light shifts it out of a
list without duplicates.
-/

set_option autoImplicit false

namespace THue.SelectionList
open THue.Globals THue.Entertainment THue.CheckedArray THue.FaultRun

def chosen (b : Behavior) : List UInt8 := front b.lightIds b.lightCounter.toNat

/-- A cell holds the value looked for, which is an `int`. -/
def Holds (value : ℤ) (x : UInt8) : Prop := (x.toNat:ℤ) = value

instance holds_decidable (value : ℤ) (x : UInt8) : Decidable (Holds value x) :=
  inferInstanceAs (Decidable (_ = _))

def shiftedOut (value : ℤ) (arr : List UInt8) : List UInt8 :=
  arr.filter (fun x => ¬Holds value x) ++
    List.replicate (arr.countP fun x => Holds value x) 0

section Shift
variable {p q r arr : List UInt8} {x : UInt8} {rounds length : ℕ} {value : ℤ}

theorem moveDown_parts (p q r : List UInt8) (x : UInt8) :
    moveDown q.length (p ++ x::(q ++ r)) p.length =
      p ++ q ++ (x::q).getLast (List.cons_ne_nil x q)::r := by
  induction q generalizing p x with
  | nil => simp [moveDown]
  | cons y q ih =>
    have hget : (p ++ x::(y::q ++ r)).getD (p.length+1) 0 = y := by
      simp [List.getD_eq_getElem?_getD]
    have hset : (p ++ x::(y::q ++ r)).set p.length y = (p ++ [y]) ++ y::(q ++ r) := by
      simp
    rw [List.length_cons, moveDown, hget, hset]
    have hnext := ih (p ++ [y]) y
    rw [List.length_append, List.length_singleton] at hnext
    rw [hnext, List.getLast_cons (List.cons_ne_nil y q)]
    simp

theorem shiftLeft_parts (p q r : List UInt8) (x : UInt8) :
    shiftLeft (p ++ (x::q ++ r)) (p.length+(q.length+1)) p.length = p ++ ((q ++ [0]) ++ r) := by
  have hrounds : p.length+(q.length+1)-1-p.length = q.length := by omega
  have hlast : p.length+(q.length+1)-1 = (p ++ q).length := by
    rw [List.length_append]
    omega
  rw [shiftLeft, hrounds, List.cons_append, moveDown_parts, hlast]
  simp

theorem shiftedOut_cons_holds (hx : Holds value x) (h0 : value ≠ 0) :
    shiftedOut value (q ++ [0]) = shiftedOut value (x::q) := by
  have hzero : ¬Holds value 0 := fun h => h0 h.symm
  have hcount : (x::q).countP (fun x => Holds value x) =
      q.countP (fun x => Holds value x) + 1 := by simp [hx]
  rw [shiftedOut, shiftedOut, hcount, List.replicate_succ]
  simp [hx, hzero]

/-- From index `i` on, every round passes a cell or takes one out, and the
cells behind the length are kept. -/
theorem arrayShiftFrom_parts (h0 : value ≠ 0)
    (hr : q.length + q.countP (fun x => Holds value x) < rounds) :
    arrayShiftFrom rounds (p ++ (q ++ r)) (p.length+q.length) value p.length =
      some (p ++ (shiftedOut value q ++ r)) := by
  induction rounds generalizing p q with
  | zero => omega
  | succ rounds ih =>
    rw [arrayShiftFrom]
    cases q with
    | nil => simp [shiftedOut]
    | cons x q =>
      have hget : (p ++ (x::q ++ r))[p.length]?.map (fun x => (x.toNat:ℤ)) = some (x.toNat:ℤ) := by
        simp
      rw [if_pos (by simp), hget]
      by_cases hx : Holds value x
      · rw [if_pos (congrArg some hx), List.length_cons, shiftLeft_parts]
        have hzero : ¬Holds value 0 := fun h => h0 h.symm
        have hrounds : (q ++ [0]).length + (q ++ [0]).countP (fun x => Holds value x) < rounds := by
          simp [hx, hzero] at hr ⊢
          omega
        have hshift := ih (p := p) hrounds
        rw [List.length_append, List.length_singleton] at hshift
        rw [hshift, shiftedOut_cons_holds hx h0]
      · rw [if_neg fun h => hx (Option.some.inj h)]
        have hrounds : q.length + q.countP (fun x => Holds value x) < rounds := by
          simp [hx] at hr
          omega
        have hnext := ih (p := p ++ [x]) hrounds
        rw [List.length_append, List.length_singleton] at hnext
        have hsame : shiftedOut value (x::q) = x::shiftedOut value q := by simp [shiftedOut, hx]
        rw [hsame]
        rw [show p ++ (x::q ++ r) = p ++ [x] ++ (q ++ r) by simp,
          show p.length + (x::q).length = p.length + 1 + q.length by simp; omega, hnext]
        simp

theorem shiftedOut_length (value : ℤ) (arr : List UInt8) :
    (shiftedOut value arr).length = arr.length := by
  have hsum := List.length_eq_countP_add_countP (fun x => decide (Holds value x)) (l := arr)
  rw [shiftedOut, List.length_append, List.length_replicate, ← List.countP_eq_length_filter]
  simp at hsum ⊢
  omega

theorem arrayShiftFrom_whole (h0 : value ≠ 0) (hl : length ≤ arr.length)
    (hr : 2*length < rounds) : arrayShiftFrom rounds arr length value 0 =
      some (shiftedOut value (arr.take length) ++ arr.drop length) := by
  have hlen : (arr.take length).length = length := by
    rw [List.length_take]
    omega
  have hcount := List.countP_le_length (p := fun x => decide (Holds value x)) (l := arr.take length)
  have hparts : arrayShiftFrom rounds ([] ++ (arr.take length ++ arr.drop length))
      (([] : List UInt8).length+(arr.take length).length) value ([] : List UInt8).length = _ :=
    arrayShiftFrom_parts h0 (by omega)
  rwa [List.nil_append, List.take_append_drop, List.nil_append, List.length_nil, Nat.zero_add,
    hlen] at hparts

/-- Shifting a value other than 0 out ends, within twice the length of rounds,
with the other cells in their order, zeros after them and the rest as it was. -/
theorem arrayShift_stable {length : UInt8} (hl : length.toNat ≤ arr.length) (h0 : value ≠ 0) :
    (∀ rounds, 2*length.toNat < rounds → arrayShiftFrom rounds arr length.toNat value 0 =
      arrayShift arr length value) ∧
    arrayShift arr length value = some ((arr.take length.toNat).filter (fun x => ¬Holds value x) ++
      List.replicate ((arr.take length.toNat).countP fun x => Holds value x) 0 ++
        arr.drop length.toNat) := by
  have hwhole := arrayShiftFrom_whole h0 hl (Nat.lt_succ_self (2*length.toNat))
  exact ⟨fun rounds hr => (arrayShiftFrom_whole h0 hl hr).trans hwhole.symm,hwhole⟩

/-- Three adjacent occurrences, and a value no cell can hold. -/
theorem fives_shifted :
    arrayShift [5,5,7,5,9,5] 5 5 = some [7,9,0,0,0,5] ∧
    arrayShift [5,5,7,5,9,5] 5 261 = some [5,5,7,5,9,5] :=
  ⟨(@arrayShift_stable [5,5,7,5,9,5] 5 5 (by decide) (by decide)).2,
    (@arrayShift_stable [5,5,7,5,9,5] 261 5 (by decide) (by decide)).2⟩

theorem arrayShift_erase {length : UInt8} (hl : length.toNat ≤ arr.length)
    (hn : (arr.take length.toNat).Nodup) (hx : x ∈ arr.take length.toNat) (h0 : x ≠ 0) :
    ∃ out, arrayShift arr length x.toNat = some out ∧ out.length = arr.length ∧
      out.take (length.toNat-1) = (arr.take length.toNat).erase x := by
  have hvalue : (x.toNat:ℤ) ≠ 0 := fun h => h0 (UInt8.toNat_inj.mp (by exact_mod_cast h))
  have hholds : ∀ y : UInt8, Holds x.toNat y ↔ y = x := fun y => by
    rw [Holds, Nat.cast_inj, UInt8.toNat_inj]
  have herase : (arr.take length.toNat).filter (fun y => ¬Holds x.toNat y) =
      (arr.take length.toNat).erase x := by
    rw [hn.erase_eq_filter]
    refine List.filter_congr fun y _ => ?_
    by_cases hy : y = x <;> simp [hholds, hy]
  have hlen : ((arr.take length.toNat).erase x).length = length.toNat-1 := by
    rw [List.length_erase_of_mem hx, List.length_take, Nat.min_eq_left hl]
  refine ⟨_,arrayShiftFrom_whole hvalue hl (Nat.lt_succ_self _),?_,?_⟩
  · rw [List.length_append, shiftedOut_length, ← List.length_append, List.take_append_drop]
  · rw [shiftedOut, herase, List.append_assoc, List.take_left' hlen]

end Shift

variable {b : Behavior} {x : UInt8}

theorem ofFn_ofList {arr : List UInt8} (h : arr.length = 20) : List.ofFn (ofList arr) = arr := by
  refine List.ext_getElem (List.length_ofFn.trans h.symm) fun j h1 h2 => ?_
  rw [List.getElem_ofFn, ofList, List.getD_eq_getElem?_getD, List.getElem?_eq_getElem h2]
  rfl

theorem removeLight_erase (hc : b.lightCounter.toNat ≤ 20) (hn : (chosen b).Nodup)
    (hx : x ∈ chosen b) (h0 : x ≠ 0) : ∃ c, removeLight x.toNat b = .ok c ∧
      chosen c = (chosen b).erase x ∧ c.lightCounter.toNat+1 = b.lightCounter.toNat := by
  have hlen : (List.ofFn b.lightIds).length = 20 := List.length_ofFn
  have hnodup : ((List.ofFn b.lightIds).take b.lightCounter.toNat).Nodup := hn
  obtain ⟨out,hout,holen,htake⟩ := arrayShift_erase (by omega) hnodup hx h0
  have hpos : 0 < b.lightCounter.toNat := by
    have := List.length_pos_of_mem hx
    rw [chosen, front_length _ _ hc] at this
    exact this
  have hcount : (b.lightCounter-1).toNat = b.lightCounter.toNat-1 :=
    UInt8.toNat_sub_of_le _ _ (by rw [UInt8.le_iff_toNat_le]; simpa using by omega)
  refine ⟨{ b with lightIds := ofList out, lightCounter := b.lightCounter-1 },?_,?_,?_⟩
  · rw [removeLight, if_neg (by omega), hout]
  · rw [chosen, front, ofFn_ofList (by omega), hcount, htake]
    rfl
  · rw [hcount]
    omega

theorem addLight_append (hc : b.lightCounter.toNat < 20) : ∃ c, addLight x.toNat b = .ok c ∧
    chosen c = chosen b ++ [x] ∧ c.lightCounter.toNat = b.lightCounter.toNat+1 := by
  have hcount : (b.lightCounter+1).toNat = b.lightCounter.toNat+1 := by
    rw [UInt8.toNat_add]
    simpa using by omega
  have hid : toUInt8 x.toNat = x := by
    have hlt : x.toNat < 256 := x.toNat_lt
    refine UInt8.toNat_inj.mp ?_
    exact_mod_cast toUInt8_cast (n := x.toNat) (by omega) (by omega)
  refine ⟨_,bind_ok.mpr ⟨_,write_inside b.lightIds (toUInt8 x.toNat) _ _ hc,rfl⟩,?_,hcount⟩
  rw [chosen, hcount, hid, front_push]
  rfl

theorem addLight_full (hc : ¬b.lightCounter.toNat < 20) : ∃ e,
    addLight x.toNat b = .error e ∧ ∃ i, e = .outside .behaviorLightIds i := by
  refine ⟨.outside .behaviorLightIds b.lightCounter.toNat,?_,_,rfl⟩
  rw [addLight, write_outside b.lightIds _ _ _ (Or.inr (by exact_mod_cast Nat.not_lt.mp hc))]
  rfl

end THue.SelectionList
