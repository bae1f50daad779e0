import Mathlib.Data.Nat.Notation
import Mathlib.Tactic.Common

/-!
# Values written as JSON

A value is written as tokens, and a text is the tokens one after the other with
blanks after each. A reader takes the text apart again; as long as no number or
word runs into the next one, it reads the value that was written. Texts are
plain: they hold no quote, no backslash and no control character.
-/

set_option autoImplicit false

namespace THue.JsonText

inductive Json where
  | bool (b : Bool)
  | number (n : ℕ)
  | text (s : String)
  | array (vs : List Json)
  | object (ms : List (String × Json))

inductive Token where
  | leftBrace | rightBrace | leftBracket | rightBracket | colon | comma
  | bool (b : Bool)
  | number (n : ℕ)
  | text (s : String)
  deriving DecidableEq, Repr

def PlainChar (c : Char) : Bool := c != '"' && c != '\\' && decide (32 ≤ c.toNat)

def spell : Token → List Char
  | .leftBrace => ['\x7b']
  | .rightBrace => ['\x7d']
  | .leftBracket => ['[']
  | .rightBracket => [']']
  | .colon => [':']
  | .comma => [',']
  | .bool true => ['t','r','u','e']
  | .bool false => ['f','a','l','s','e']
  | .number n => Nat.toDigits 10 n
  | .text s => '"' :: (s.toList ++ ['"'])

def render (ts : List (Token × ℕ)) : List Char :=
  ts.flatMap fun t => spell t.1 ++ List.replicate t.2 ' '

def symbol : Char → Option Token
  | '\x7b' => some .leftBrace
  | '\x7d' => some .rightBrace
  | '[' => some .leftBracket
  | ']' => some .rightBracket
  | ':' => some .colon
  | ',' => some .comma
  | _ => none

def word (w : List Char) : Option Token :=
  if w = ['t','r','u','e'] then some (.bool true)
  else if w = ['f','a','l','s','e'] then some (.bool false)
  else none

def next : List Char → Option (Token × List Char)
  | [] => none
  | c::cs =>
      if c = '"' then
        match cs.dropWhile PlainChar with
        | '"'::rest => some (.text (String.ofList (cs.takeWhile PlainChar)),rest)
        | _ => none
      else if c.isDigit then
        some (.number (Nat.ofDigitChars 10 ((c::cs).takeWhile Char.isDigit) 0),
          (c::cs).dropWhile Char.isDigit)
      else if c.isLower then
        (word ((c::cs).takeWhile Char.isLower)).map fun t => (t,(c::cs).dropWhile Char.isLower)
      else (symbol c).map fun t => (t,cs)

def lex : ℕ → List Char → Option (List Token)
  | _, [] => some []
  | 0, _::_ => none
  | rounds+1, c::cs =>
      if c = ' ' then lex rounds cs
      else (next (c::cs)).bind fun t => (lex rounds t.2).map fun ts => t.1 :: ts

/-- The next character may follow the token. -/
def Ends : Token → List Char → Prop
  | .number _, c::_ => c.isDigit = false
  | .bool _, c::_ => c.isLower = false
  | .text s, _ => ∀ c ∈ s.toList, PlainChar c = true
  | _, _ => True

def Separated : List (Token × ℕ) → Prop
  | [] => True
  | t::ts => Ends t.1 (List.replicate t.2 ' ' ++ render ts) ∧ Separated ts

theorem takeWhile_stop {p : Char → Bool} {l rest : List Char} (h : ∀ c ∈ l, p c = true)
    (hrest : ∀ c ∈ rest.head?, p c = false) :
    (l++rest).takeWhile p = l ∧ (l++rest).dropWhile p = rest := by
  induction l with
  | nil =>
    cases rest with
    | nil => exact ⟨rfl,rfl⟩
    | cons c rest =>
      have hc := hrest c rfl
      simp [hc]
  | cons c l ih =>
    obtain ⟨h1,h2⟩ := ih fun c' hc' => h c' (List.mem_cons_of_mem c hc')
    have hc := h c List.mem_cons_self
    simp [hc, h1, h2]

theorem next_spell {t : Token} {rest : List Char} (h : Ends t rest) :
    next (spell t ++ rest) = some (t,rest) := by
  cases t with
  | leftBrace | rightBrace | leftBracket | rightBracket | colon | comma => rfl
  | bool b =>
    have hrest : ∀ c ∈ rest.head?, c.isLower = false := by
      cases rest with
      | nil => simp
      | cons c rest =>
        rintro c' ⟨rfl⟩
        exact h
    cases b
    · obtain ⟨h1,h2⟩ := takeWhile_stop (l := ['f','a','l','s','e'])
        (List.all_eq_true.mp (by decide)) hrest
      show (word ((['f','a','l','s','e'] ++ rest).takeWhile Char.isLower)).map _ = _
      rw [h1]
      exact congrArg (fun rest => some (Token.bool false,rest)) h2
    · obtain ⟨h1,h2⟩ := takeWhile_stop (l := ['t','r','u','e'])
        (List.all_eq_true.mp (by decide)) hrest
      show (word ((['t','r','u','e'] ++ rest).takeWhile Char.isLower)).map _ = _
      rw [h1]
      exact congrArg (fun rest => some (Token.bool true,rest)) h2
  | number n =>
    have hrest : ∀ c ∈ rest.head?, c.isDigit = false := by
      cases rest with
      | nil => simp
      | cons c rest =>
        rintro c' ⟨rfl⟩
        exact h
    have hdigits : ∀ c ∈ Nat.toDigits 10 n, c.isDigit = true := fun c hc =>
      Nat.isDigit_of_mem_toDigits (by decide) (by decide) hc
    obtain ⟨h1,h2⟩ := takeWhile_stop hdigits hrest
    have hread : Nat.ofDigitChars 10 (Nat.toDigits 10 n) 0 = n :=
      Nat.ofDigitChars_toDigits (by decide) (by decide)
    rw [spell]
    cases hspelt : Nat.toDigits 10 n with
    | nil => exact absurd hspelt Nat.toDigits_ne_nil
    | cons d ds =>
      have hd : d.isDigit = true := hdigits d (by simp [hspelt])
      rw [hspelt] at h1 h2 hread
      have hquote : d ≠ '"' := by
        rintro rfl
        exact absurd hd (by decide)
      rw [List.cons_append] at h1 h2 ⊢
      rw [next, if_neg hquote, if_pos hd, h1, h2, hread]
  | text s =>
    have hquote : ∀ c ∈ ('"'::rest).head?, PlainChar c = false := by
      rintro c ⟨rfl⟩
      decide
    obtain ⟨h1,h2⟩ := takeWhile_stop h hquote
    rw [spell, List.cons_append, List.append_assoc, next, if_pos rfl]
    rw [show s.toList ++ (['"'] ++ rest) = s.toList ++ '"'::rest from rfl, h1, h2,
      String.ofList_toList]
    rfl

theorem lex_blanks (rounds k : ℕ) (cs : List Char) :
    lex (rounds+k) (List.replicate k ' ' ++ cs) = lex rounds cs := by
  induction k with
  | zero => rfl
  | succ k ih =>
    rw [List.replicate_succ, List.cons_append, ← Nat.add_assoc, lex, if_pos rfl, ih]

theorem spell_head (t : Token) : ∃ c cs, spell t = c::cs ∧ c ≠ ' ' := by
  cases t with
  | leftBrace | rightBrace | leftBracket | rightBracket | colon | comma =>
    exact ⟨_,_,rfl,by decide⟩
  | bool b => cases b <;> exact ⟨_,_,rfl,by decide⟩
  | number n =>
    cases hspelt : Nat.toDigits 10 n with
    | nil => exact absurd hspelt Nat.toDigits_ne_nil
    | cons d ds =>
      refine ⟨d,ds,hspelt,?_⟩
      rintro rfl
      have hd := Nat.isDigit_of_mem_toDigits (b := 10) (n := n) (c := ' ') (by decide) (by decide)
        (by simp [hspelt])
      exact absurd hd (by decide)
  | text s => exact ⟨_,_,rfl,by decide⟩

theorem lex_render {ts : List (Token × ℕ)} (h : Separated ts) {rounds : ℕ}
    (hrounds : (render ts).length ≤ rounds) : lex rounds (render ts) = some (ts.map Prod.fst) := by
  induction ts generalizing rounds with
  | nil => cases rounds <;> rfl
  | cons t ts ih =>
    obtain ⟨hends,hrest⟩ := h
    obtain ⟨c,cs,hspell,hc⟩ := spell_head t.1
    have hnext := next_spell hends
    have hrender : render (t::ts) = c :: (cs ++ (List.replicate t.2 ' ' ++ render ts)) := by
      rw [render, List.flatMap_cons, hspell, List.append_assoc]
      rfl
    rw [hspell, List.cons_append] at hnext
    rw [hrender] at hrounds ⊢
    simp only [List.length_cons, List.length_append, List.length_replicate] at hrounds
    obtain ⟨k,rfl⟩ : ∃ k, rounds = k+t.2+1 := ⟨rounds-t.2-1,by omega⟩
    rw [lex, if_neg hc, hnext, Option.bind_some, lex_blanks, ih hrest (by omega)]
    rfl

mutual
def tokens : Json → List Token
  | .bool b => [.bool b]
  | .number n => [.number n]
  | .text s => [.text s]
  | .array [] => [.leftBracket,.rightBracket]
  | .array (v::vs) => .leftBracket :: (tokens v ++ elementTokens vs)
  | .object [] => [.leftBrace,.rightBrace]
  | .object (m::ms) => .leftBrace :: (memberTokens m ++ membersTokens ms)

def elementTokens : List Json → List Token
  | [] => [.rightBracket]
  | v::vs => .comma :: (tokens v ++ elementTokens vs)

def memberTokens : String × Json → List Token
  | (key,v) => .text key :: .colon :: tokens v

def membersTokens : List (String × Json) → List Token
  | [] => [.rightBrace]
  | m::ms => .comma :: (memberTokens m ++ membersTokens ms)
end

mutual
def value : ℕ → List Token → Option (Json × List Token)
  | _, .bool b::ts => some (.bool b,ts)
  | _, .number n::ts => some (.number n,ts)
  | _, .text s::ts => some (.text s,ts)
  | _, .leftBracket::.rightBracket::ts => some (.array [],ts)
  | rounds+1, .leftBracket::ts => (value rounds ts).bind fun v =>
      (elements rounds v.2).map fun vs => (.array (v.1::vs.1),vs.2)
  | _, .leftBrace::.rightBrace::ts => some (.object [],ts)
  | rounds+1, .leftBrace::ts => (member rounds ts).bind fun m =>
      (members rounds m.2).map fun ms => (.object (m.1::ms.1),ms.2)
  | _, _ => none

def elements : ℕ → List Token → Option (List Json × List Token)
  | _, .rightBracket::ts => some ([],ts)
  | rounds+1, .comma::ts => (value rounds ts).bind fun v =>
      (elements rounds v.2).map fun vs => (v.1::vs.1,vs.2)
  | _, _ => none

def member : ℕ → List Token → Option ((String × Json) × List Token)
  | rounds+1, .text key::.colon::ts => (value rounds ts).map fun v => ((key,v.1),v.2)
  | _, _ => none

def members : ℕ → List Token → Option (List (String × Json) × List Token)
  | _, .rightBrace::ts => some ([],ts)
  | rounds+1, .comma::ts => (member rounds ts).bind fun m =>
      (members rounds m.2).map fun ms => (m.1::ms.1,ms.2)
  | _, _ => none
end

def read (text : List Char) : Option Json :=
  (lex text.length text).bind fun ts =>
    match value ts.length ts with
    | some (v,[]) => some v
    | _ => none

theorem tokens_head (v : Json) : ∃ t ts, tokens v = t::ts ∧ t ≠ .rightBracket := by
  cases v with
  | bool b => exact ⟨_,_,rfl,Token.noConfusion⟩
  | number n => exact ⟨_,_,rfl,Token.noConfusion⟩
  | text s => exact ⟨_,_,rfl,Token.noConfusion⟩
  | array vs => cases vs <;> exact ⟨_,_,rfl,Token.noConfusion⟩
  | object ms => cases ms <;> exact ⟨_,_,rfl,Token.noConfusion⟩

theorem value_array {rounds : ℕ} {v : Json} {ts : List Token} :
    value (rounds+1) (.leftBracket :: (tokens v ++ ts)) =
      (value rounds (tokens v ++ ts)).bind fun v =>
        (elements rounds v.2).map fun vs => (.array (v.1::vs.1),vs.2) := by
  obtain ⟨t,us,htokens,ht⟩ := tokens_head v
  rw [htokens, List.cons_append, value]
  rintro _ h
  exact ht (List.cons.inj h).1

mutual
theorem value_tokens (v : Json) {rounds : ℕ} (h : (tokens v).length ≤ rounds) (ts : List Token) :
    value rounds (tokens v ++ ts) = some (v,ts) := by
  cases v with
  | bool b => cases rounds <;> rfl
  | number n => cases rounds <;> rfl
  | text s => cases rounds <;> rfl
  | array vs =>
    cases vs with
    | nil => cases rounds <;> rfl
    | cons v vs =>
      rw [tokens, List.length_cons, List.length_append] at h
      obtain ⟨k,rfl⟩ : ∃ k, rounds = k+1 := ⟨rounds-1,by omega⟩
      rw [tokens, List.cons_append, List.append_assoc, value_array,
        value_tokens v (by omega), Option.bind_some, elements_tokens vs (by omega)]
      rfl
  | object ms =>
    cases ms with
    | nil => cases rounds <;> rfl
    | cons m ms =>
      rw [tokens, List.length_cons, List.length_append] at h
      obtain ⟨k,rfl⟩ : ∃ k, rounds = k+1 := ⟨rounds-1,by omega⟩
      have hmember := @member_tokens m k (by omega) (membersTokens ms ++ ts)
      rw [tokens, List.cons_append, List.append_assoc]
      rw [show value (k+1) (.leftBrace :: (memberTokens m ++ (membersTokens ms ++ ts))) =
        (member k (memberTokens m ++ (membersTokens ms ++ ts))).bind fun m =>
          (members k m.2).map fun ms => (.object (m.1::ms.1),ms.2) by
          obtain ⟨key,v⟩ := m
          rw [memberTokens, List.cons_append, value]
          rintro _ ⟨⟩, hmember, Option.bind_some, members_tokens ms (by omega)]
      rfl

theorem elements_tokens (vs : List Json) {rounds : ℕ} (h : (elementTokens vs).length ≤ rounds)
    (ts : List Token) : elements rounds (elementTokens vs ++ ts) = some (vs,ts) := by
  cases vs with
  | nil => cases rounds <;> rfl
  | cons v vs =>
    rw [elementTokens, List.length_cons, List.length_append] at h
    obtain ⟨k,rfl⟩ : ∃ k, rounds = k+1 := ⟨rounds-1,by omega⟩
    rw [elementTokens, List.cons_append, List.append_assoc, elements, value_tokens v (by omega),
      Option.bind_some, elements_tokens vs (by omega)]
    rfl

theorem member_tokens (m : String × Json) {rounds : ℕ} (h : (memberTokens m).length ≤ rounds)
    (ts : List Token) : member rounds (memberTokens m ++ ts) = some (m,ts) := by
  obtain ⟨key,v⟩ := m
  rw [memberTokens, List.length_cons, List.length_cons] at h
  obtain ⟨k,rfl⟩ : ∃ k, rounds = k+1 := ⟨rounds-1,by omega⟩
  rw [memberTokens, List.cons_append, List.cons_append, member, value_tokens v (by omega)]
  rfl

theorem members_tokens (ms : List (String × Json)) {rounds : ℕ}
    (h : (membersTokens ms).length ≤ rounds) (ts : List Token) :
    members rounds (membersTokens ms ++ ts) = some (ms,ts) := by
  cases ms with
  | nil => cases rounds <;> rfl
  | cons m ms =>
    rw [membersTokens, List.length_cons, List.length_append] at h
    obtain ⟨k,rfl⟩ : ∃ k, rounds = k+1 := ⟨rounds-1,by omega⟩
    rw [membersTokens, List.cons_append, List.append_assoc, members, member_tokens m (by omega),
      Option.bind_some, members_tokens ms (by omega)]
    rfl
end

theorem read_written {v : Json} {ts : List (Token × ℕ)} (hts : ts.map Prod.fst = tokens v)
    (h : Separated ts) : read (render ts) = some v := by
  have hvalue := value_tokens v (Nat.le_refl _) []
  rw [List.append_nil] at hvalue
  rw [read, lex_render h (Nat.le_refl _), Option.bind_some, hts, hvalue]

end THue.JsonText
