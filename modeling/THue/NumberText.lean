import Mathlib.Data.Nat.Notation
import Mathlib.Data.Int.Notation
import Mathlib.Tactic.Common

/-!
# Numbers written in digits

`strtol` as the C standard describes it, with a `long` of 32 bits, and the
hexadecimal text of bytes, two digits for each.
-/

set_option autoImplicit false

namespace THue.NumberText

/-- Digits and letters count up to 36, a letter the same in both cases. -/
def digitValue (c : Char) : Option ℕ :=
  if c.isDigit then some (c.toNat-48)
  else if c.isLower then some (c.toNat-87)
  else if c.isUpper then some (c.toNat-55)
  else none

def digit (base : ℕ) (c : Char) : Option ℕ := (digitValue c).filter (· < base)

def digits (base : ℕ) : ℕ → List Char → ℕ
  | n, [] => n
  | n, c::cs =>
      match digit base c with
      | some d => digits base (n*base+d) cs
      | none => n

def isSpace (c : Char) : Bool := c ∈ [' ','\t','\n','\x0b','\x0c','\r']

def sign : List Char → Bool × List Char
  | '-'::cs => (true,cs)
  | '+'::cs => (false,cs)
  | cs => (false,cs)

/-- `0x` before a digit. -/
def HexPrefix : List Char → Prop
  | zero::x::c::_ => zero = '0' ∧ (x = 'x' ∨ x = 'X') ∧ (digit 16 c).isSome = true
  | _ => False

instance hexPrefix_decidable : ∀ s, Decidable (HexPrefix s)
  | _::_::_::_ => inferInstanceAs (Decidable (_ ∧ _ ∧ _))
  | [] | [_] | [_,_] => isFalse id

/-- The base and the digits; base 0 goes by the prefix of the number. -/
def radix (base : ℕ) (s : List Char) : ℕ × List Char :=
  if (base = 0 ∨ base = 16) ∧ HexPrefix s then (16,s.drop 2)
  else if base = 0 then (if s.head? = some '0' then 8 else 10,s)
  else (base,s)

def strtol (base : ℕ) (s : List Char) : ℤ :=
  let signed := sign (s.dropWhile isSpace)
  let based := radix base signed.2
  let n : ℤ := digits based.1 0 based.2
  if signed.1 then max (-n) (-2147483648) else min n 2147483647

def hexText : List UInt8 → List Char
  | [] => []
  | b::bs => Nat.digitChar (b.toNat/16) :: Nat.digitChar (b.toNat%16) :: hexText bs

section Digits
variable {base d : ℕ} {c : Char} {s : List Char}

theorem at_ascii {P : Char → Prop} (h : ∀ n : Fin 128, P (Char.ofNat n.val)) (hc : c.toNat < 128) :
    P c := by
  have hn := h ⟨c.toNat,hc⟩
  rwa [Char.ofNat_toNat] at hn

theorem isUpper_le (h : c.isUpper = true) : c.toNat ≤ 90 :=
  UInt32.le_iff_toNat_le.mp (of_decide_eq_true h).2

theorem isLower_le (h : c.isLower = true) : c.toNat ≤ 122 :=
  UInt32.le_iff_toNat_le.mp (of_decide_eq_true (Bool.and_eq_true_iff.mp h).2)

theorem digitValue_ascii (h : digitValue c = some d) : c.toNat < 128 := by
  rw [digitValue] at h
  split at h
  · next hd =>
    have hle : c.toNat ≤ 57 := (Char.isDigit_iff_toNat.mp hd).2
    omega
  · split at h
    · next hl =>
      have hle : c.toNat ≤ 122 := isLower_le hl
      omega
    · split at h
      · next hu =>
        have hle : c.toNat ≤ 90 := isUpper_le hu
        omega
      · cases h

theorem digit_eq_some : digit base c = some d ↔ digitValue c = some d ∧ d < base := by
  rw [digit, Option.filter_eq_some_iff]
  simp

theorem digitValue_starts (h : digitValue c = some d) :
    isSpace c = false ∧ c ≠ '-' ∧ c ≠ '+' := by
  refine at_ascii (P := fun c => (digitValue c).isSome = true →
    isSpace c = false ∧ c ≠ '-' ∧ c ≠ '+') (by decide) (digitValue_ascii h) ?_
  rw [h]
  rfl

theorem digitValue_toLower (c : Char) : digitValue c.toLower = digitValue c := by
  by_cases hu : c.isUpper
  · have hc : c.toNat < 128 := by
      have hle : c.toNat ≤ 90 := isUpper_le hu
      omega
    exact at_ascii (P := fun c => digitValue c.toLower = digitValue c) (by decide) hc
  · have hlower : c.toLower = c := dif_neg fun h => hu (decide_eq_true h)
    rw [hlower]

theorem digit_digitChar (hd : d < 16) : digit 16 (Nat.digitChar d) = some d := by
  have hall : ∀ d : Fin 16, digit 16 (Nat.digitChar d) = some d.val := by decide
  exact hall ⟨d,hd⟩

theorem digitChar_of_digit (h : digit 16 c = some d) : Nat.digitChar d = c.toLower := by
  have hall := at_ascii
    (P := fun c => (digit 16 c).all (fun d => Nat.digitChar d = c.toLower) = true) (by decide)
    (digitValue_ascii (digit_eq_some.mp h).1)
  rw [h] at hall
  exact of_decide_eq_true hall

end Digits

section Reading
variable {base x y : ℕ} {c d : Char} {s : List Char}

theorem sign_digit (h : digitValue c = some x) : sign (c::s) = (false,c::s) := by
  obtain ⟨-,hminus,hplus⟩ := digitValue_starts h
  rw [sign]
  · rintro _ ⟨rfl,-⟩
    exact hminus rfl
  · rintro _ ⟨rfl,-⟩
    exact hplus rfl

theorem strtol_digits (h : digitValue c = some x) (hs : ¬HexPrefix (c::s)) :
    strtol base (c::s) = min (digits (if base = 0 then (if c = '0' then 8 else 10) else base) 0
      (c::s) : ℤ) 2147483647 := by
  obtain ⟨hspace,-⟩ := digitValue_starts h
  have hdrop : (c::s).dropWhile isSpace = c::s := by
    rw [List.dropWhile_cons, hspace]
    rfl
  have hradix : radix base (c::s) =
      (if base = 0 then (if c = '0' then 8 else 10) else base,c::s) := by
    rw [radix, if_neg fun h => hs h.2]
    by_cases hb : base = 0
    · rw [if_pos hb, if_pos hb]
      by_cases hc : c = '0' <;> simp [hc]
    · rw [if_neg hb, if_neg hb]
  rw [strtol, hdrop, sign_digit h]
  dsimp only
  rw [if_neg (by decide), hradix]

theorem strtol_pair (hc : digit 16 c = some x) (hd : digit 16 d = some y) :
    strtol 16 [c,d] = 16*x+y := by
  obtain ⟨hcv,hx⟩ := digit_eq_some.mp hc
  have hy := (digit_eq_some.mp hd).2
  rw [strtol_digits hcv (by simp [HexPrefix]), if_neg (by decide)]
  simp only [digits, hc, hd]
  push_cast
  omega

variable {n : ℕ}

theorem digitValue_decimal (h : c.isDigit = true) : digitValue c = some (c.toNat-48) := by
  rw [digitValue, if_pos h]

theorem digits_decimal (h : ∀ c ∈ s, c.isDigit = true) :
    digits 10 n s = Nat.ofDigitChars 10 s n := by
  induction s generalizing n with
  | nil => rfl
  | cons c s ih =>
    have hc := h c (List.mem_cons_self ..)
    have hle : c.toNat ≤ 57 := (Char.isDigit_iff_toNat.mp hc).2
    have hdigit : digit 10 c = some (c.toNat-48) :=
      digit_eq_some.mpr ⟨digitValue_decimal hc,by omega⟩
    rw [digits, hdigit, Nat.ofDigitChars_cons, Nat.mul_comm 10 n]
    exact ih fun d hd => h d (List.mem_cons_of_mem _ hd)

theorem decimal_not_hexPrefix (h : ∀ c ∈ s, c.isDigit = true) : ¬HexPrefix s := by
  match s, h with
  | [], _ | [_], _ | [_,_], _ => exact id
  | _::x::_::_, h =>
    rintro ⟨-,rfl | rfl,-⟩
    · exact absurd (h 'x' (by simp)) (by decide)
    · exact absurd (h 'X' (by simp)) (by decide)

theorem toDigits_head (hn : 0 < n) : (Nat.toDigits 10 n).head? ≠ some '0' := by
  induction n using Nat.strongRecOn with
  | ind n ih =>
    by_cases hlt : n < 10
    · rw [Nat.toDigits_of_lt_base hlt]
      have hall : ∀ d : Fin 10, d.val = 0 ∨ [Nat.digitChar d.val].head? ≠ some '0' := by decide
      exact (hall ⟨n,hlt⟩).resolve_left (by dsimp only; omega)
    · have hnext := ih (n/10) (by omega) (by omega)
      rw [Nat.toDigits_of_base_le (by decide) (by omega), List.head?_append]
      cases hq : (Nat.toDigits 10 (n/10)).head? with
      | none => exact absurd (List.head?_eq_none_iff.mp hq) Nat.toDigits_ne_nil
      | some c =>
        rw [hq] at hnext
        exact hnext

theorem strtol_toDigits (n : ℕ) : strtol 0 (Nat.toDigits 10 n) = min (n:ℤ) 2147483647 := by
  have hdigits : ∀ c ∈ Nat.toDigits 10 n, c.isDigit = true := fun c hc =>
    Nat.isDigit_of_mem_toDigits (by decide) (by decide) hc
  have hvalue : digits 10 0 (Nat.toDigits 10 n) = n := by
    rw [digits_decimal hdigits, Nat.ofDigitChars_ten_toDigits]
  obtain rfl | hn := Nat.eq_zero_or_pos n
  · decide
  have hhead := toDigits_head hn
  cases hs : Nat.toDigits 10 n with
  | nil => exact absurd hs Nat.toDigits_ne_nil
  | cons c s =>
    rw [hs] at hdigits hvalue hhead
    have hc : c ≠ '0' := fun h => hhead (congrArg some h)
    rw [strtol_digits (digitValue_decimal (hdigits c (List.mem_cons_self ..)))
      (decimal_not_hexPrefix hdigits), if_pos rfl, if_neg hc, hvalue]

end Reading

end THue.NumberText
