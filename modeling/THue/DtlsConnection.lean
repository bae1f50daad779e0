import THue.Entertainment
import THue.NumberText
import THue.PartialWrites

/-!
# The DTLS connection

What the firmware itself does around mbedTLS: it turns the client key into the
pre-shared key, times the retransmissions and writes the frames. The results of
mbedTLS and the readings of the clock are arguments.
-/

set_option autoImplicit false

namespace THue.DtlsConnection
open THue.NumberText THue.PartialWrites THue.Entertainment

/-- The loop takes two characters at a time; a `char` is a byte, whatever its sign. -/
def hexToBytes : List Char → List UInt8
  | [] => []
  | [c] => [toUInt8 (strtol 16 [c])]
  | c::d::hex => toUInt8 (strtol 16 [c,d]) :: hexToBytes hex

def psk_binary (_clientKey : String) : List UInt8 := hexToBytes _clientKey.toList

/-- An even number of hexadecimal digits. -/
structure Hexadecimal (s : List Char) : Prop where
  even : s.length % 2 = 0
  digits : ∀ c ∈ s, (digit 16 c).isSome = true

instance hexadecimal_decidable (s : List Char) : Decidable (Hexadecimal s) :=
  decidable_of_iff (s.length % 2 = 0 ∧ s.all (fun c => (digit 16 c).isSome) = true)
    ⟨fun h => ⟨h.1,List.all_eq_true.mp h.2⟩,fun h => ⟨h.even,List.all_eq_true.mpr h.digits⟩⟩

section Key
variable {c d : Char} {s : List Char} {x y : ℕ} {b : UInt8}

theorem hexToBytes_pair (hc : digit 16 c = some x) (hd : digit 16 d = some y) :
    hexToBytes (c::d::s) = UInt8.ofNat (16*x+y) :: hexToBytes s := by
  have hx := (digit_eq_some.mp hc).2
  have hy := (digit_eq_some.mp hd).2
  have hbyte : toUInt8 (16*x+y) = UInt8.ofNat (16*x+y) := by
    rw [toUInt8]
    congr 1
    omega
  rw [hexToBytes, strtol_pair hc hd, hbyte]

theorem byte_halves (hx : x < 16) (hy : y < 16) :
    (UInt8.ofNat (16*x+y)).toNat/16 = x ∧ (UInt8.ofNat (16*x+y)).toNat%16 = y := by
  rw [UInt8.toNat_ofNat']
  omega

theorem hexToBytes_hexText (bytes : List UInt8) (h : s.map Char.toLower = hexText bytes) :
    hexToBytes s = bytes := by
  induction bytes generalizing s with
  | nil =>
    rw [List.map_eq_nil_iff.mp h]
    rfl
  | cons b bytes ih =>
    rw [hexText] at h
    obtain ⟨c,s,rfl,hc,h⟩ := List.map_eq_cons_iff.mp h
    obtain ⟨d,s,rfl,hd,h⟩ := List.map_eq_cons_iff.mp h
    have hlt : b.toNat < 256 := b.toNat_lt
    have hhigh : digit 16 c = some (b.toNat/16) := by
      rw [digit, ← digitValue_toLower, hc]
      exact digit_digitChar (by omega)
    have hlow : digit 16 d = some (b.toNat%16) := by
      rw [digit, ← digitValue_toLower, hd]
      exact digit_digitChar (by omega)
    rw [hexToBytes_pair hhigh hlow, ih h, Nat.div_add_mod, UInt8.ofNat_toNat]

theorem hexText_hexToBytes (hs : Hexadecimal s) : hexText (hexToBytes s) = s.map Char.toLower := by
  induction s using hexToBytes.induct with
  | case1 => rfl
  | case2 c => exact absurd hs.even (show ¬1 % 2 = 0 by decide)
  | case3 c d s ih =>
    obtain ⟨x,hc⟩ := Option.isSome_iff_exists.mp (hs.digits c (by simp))
    obtain ⟨y,hd⟩ := Option.isSome_iff_exists.mp (hs.digits d (by simp))
    obtain ⟨hhigh,hlow⟩ := byte_halves (digit_eq_some.mp hc).2 (digit_eq_some.mp hd).2
    have heven : s.length % 2 = 0 := by
      have := hs.even
      simp only [List.length_cons] at this
      omega
    rw [hexToBytes_pair hc hd, hexText, hhigh, hlow, digitChar_of_digit hc, digitChar_of_digit hd,
      ih ⟨heven,fun e he => hs.digits e (by simp [he])⟩]
    rfl

theorem hexText_length (bytes : List UInt8) : (hexText bytes).length = 2*bytes.length := by
  induction bytes with
  | nil => rfl
  | cons b bytes ih =>
    rw [hexText, List.length_cons, List.length_cons, List.length_cons, ih]
    omega

end Key

/-- Reading and writing hexadecimal digits are inverse up to the case of the
digits, so keys that differ otherwise give different pre-shared keys. -/
theorem hex_inverse :
    (∀ (bytes : List UInt8) (s : List Char), s.map Char.toLower = hexText bytes →
      hexToBytes s = bytes) ∧
    (∀ s : List Char, Hexadecimal s → hexText (hexToBytes s) = s.map Char.toLower) ∧
    ∀ k l : String, Hexadecimal k.toList → Hexadecimal l.toList →
      2*(psk_binary k).length = k.toList.length ∧
      (psk_binary k = psk_binary l ↔ k.toList.map Char.toLower = l.toList.map Char.toLower) := by
  refine ⟨fun bytes s => hexToBytes_hexText bytes,fun s => hexText_hexToBytes,fun k l hk hl => ?_⟩
  have htext := hexText_hexToBytes hk
  refine ⟨?_,fun h => ?_,fun h => ?_⟩
  · rw [← hexText_length, psk_binary, htext, List.length_map]
  · rw [← htext, ← hexText_hexToBytes hl]
    exact congrArg hexText h
  · exact hexToBytes_hexText _ (h.trans (hexText_hexToBytes hl).symm)

theorem mixed_case_read : hexToBytes ['0','a','F','f'] = [10,255] ∧
    hexText (hexToBytes ['0','a','F','f']) = ['0','a','f','f'] ∧
    2*(psk_binary "0aFf").length = 4 :=
  ⟨hex_inverse.1 [10,255] ['0','a','F','f'] (by decide),
    hex_inverse.2.1 ['0','a','F','f'] (by decide),
    (hex_inverse.2.2 "0aFf" "0aFf" (by decide) (by decide)).1⟩

structure Timeval where
  tv_sec : ℕ
  tv_usec : ℕ
  usec_lt : tv_usec < 1000000

structure TimingDelayContext where
  timer : Timeval
  int_ms : UInt32
  fin_ms : UInt32

/-- The timer as it is left, and the milliseconds; an `unsigned long` has 32
bits, and the signed quotient of the microseconds is truncated toward zero. -/
def my_mbedtls_timing_get_timer (val : Timeval) (reset : Bool) (now : Timeval) :
    Timeval × UInt32 :=
  if reset then (now,0)
  else
    let delta : ℤ := ((now.tv_sec:ℤ)-val.tv_sec)*1000 + ((now.tv_usec:ℤ)-val.tv_usec).tdiv 1000
    (val,UInt32.ofNat (delta % 4294967296).toNat)

def my_mbedtls_timing_set_delay (int_ms fin_ms : UInt32) (now : Timeval)
    (ctx : TimingDelayContext) : TimingDelayContext :=
  { int_ms := int_ms
    fin_ms := fin_ms
    timer := if fin_ms ≠ 0 then (my_mbedtls_timing_get_timer ctx.timer true now).1 else ctx.timer }

def my_mbedtls_timing_get_delay (ctx : TimingDelayContext) (now : Timeval) : ℤ :=
  if ctx.fin_ms = 0 then -1
  else
    let elapsed_ms := (my_mbedtls_timing_get_timer ctx.timer false now).2
    if ctx.fin_ms ≤ elapsed_ms then 2
    else if ctx.int_ms ≤ elapsed_ms then 1
    else 0

def micros (t : Timeval) : ℕ := t.tv_sec*1000000 + t.tv_usec

def millis (s t : Timeval) : ℕ := (micros t - micros s)/1000

def due (int_ms fin_ms : UInt32) (ms : ℕ) : ℤ :=
  if fin_ms = 0 then -1
  else if fin_ms.toNat ≤ ms then 2
  else if int_ms.toNat ≤ ms then 1
  else 0

/-- Later readings, in order, and none a whole 32-bit count of milliseconds after the first. -/
structure Readings (s : Timeval) (ts : List Timeval) : Prop where
  later : ∀ t ∈ ts, micros s ≤ micros t ∧ millis s t < 4294967296
  ordered : ts.Pairwise fun t u => micros t ≤ micros u

/-- The answers tell the delays that have passed, and never go back. -/
structure Timed (int_ms fin_ms : UInt32) (s : Timeval) (ctx : TimingDelayContext)
    (ts : List Timeval) : Prop where
  exact : ∀ t ∈ ts, my_mbedtls_timing_get_delay
    (my_mbedtls_timing_set_delay int_ms fin_ms s ctx) t = due int_ms fin_ms (millis s t)
  ordered : (ts.map (my_mbedtls_timing_get_delay
    (my_mbedtls_timing_set_delay int_ms fin_ms s ctx))).Pairwise (· ≤ ·)

/-- The microseconds have gone back by a part of a millisecond. -/
def Rounds (s t : Timeval) : Prop :=
  t.tv_usec < s.tv_usec ∧ (s.tv_usec - t.tv_usec) % 1000 ≠ 0

/-- A millisecond counted too early makes neither delay pass, nor the count wrap. -/
def Unharmed (int_ms fin_ms : UInt32) (s t : Timeval) : Prop :=
  fin_ms = 0 ∨ ¬Rounds s t ∨ (millis s t + 1 ≠ int_ms.toNat ∧ millis s t + 1 ≠ fin_ms.toNat ∧
    millis s t + 1 ≠ 4294967296)

instance rounds_decidable (s t : Timeval) : Decidable (Rounds s t) :=
  inferInstanceAs (Decidable (_ ∧ _))

instance unharmed_decidable (int_ms fin_ms : UInt32) (s t : Timeval) :
    Decidable (Unharmed int_ms fin_ms s t) :=
  inferInstanceAs (Decidable (_ ∨ ¬Rounds s t ∨ _ ∧ _ ∧ _))

section Timer
variable {int_ms fin_ms : UInt32} {s t : Timeval} {ctx : TimingDelayContext} {ts : List Timeval}

theorem delta_rounds (h : micros s ≤ micros t) :
    ((t.tv_sec:ℤ)-s.tv_sec)*1000 + ((t.tv_usec:ℤ)-s.tv_usec).tdiv 1000 =
      (millis s t + if Rounds s t then 1 else 0 : ℕ) := by
  have hs := s.usec_lt
  have ht := t.usec_lt
  rw [millis]
  simp only [micros] at h ⊢
  rcases le_or_gt s.tv_usec t.tv_usec with hu | hu
  · have hquot : ((t.tv_usec:ℤ)-s.tv_usec).tdiv 1000 = ((t.tv_usec:ℤ)-s.tv_usec)/1000 :=
      Int.tdiv_eq_ediv_of_nonneg (by omega)
    rw [hquot, if_neg fun hr : Rounds s t => absurd hr.1 (not_lt.mpr hu)]
    omega
  · have hquot : ((t.tv_usec:ℤ)-s.tv_usec).tdiv 1000 = -(((s.tv_usec:ℤ)-t.tv_usec)/1000) := by
      rw [← neg_sub, Int.neg_tdiv, Int.tdiv_eq_ediv_of_nonneg (by omega)]
    rw [hquot]
    split
    · next hr =>
      have hpart : (s.tv_usec-t.tv_usec) % 1000 ≠ 0 := hr.2
      omega
    · next hr =>
      have hwhole : (s.tv_usec-t.tv_usec) % 1000 = 0 := by
        by_contra hpart
        exact hr ⟨hu,hpart⟩
      omega

theorem get_timer_elapsed (h : micros s ≤ micros t) :
    (my_mbedtls_timing_get_timer s false t).2.toNat =
      (millis s t + if Rounds s t then 1 else 0) % 4294967296 := by
  rw [my_mbedtls_timing_get_timer, if_neg (by decide)]
  dsimp only
  rw [delta_rounds h, UInt32.toNat_ofNat']
  omega

theorem get_delay_due (h : micros s ≤ micros t) :
    my_mbedtls_timing_get_delay (my_mbedtls_timing_set_delay int_ms fin_ms s ctx) t =
      due int_ms fin_ms ((millis s t + if Rounds s t then 1 else 0) % 4294967296) := by
  rw [my_mbedtls_timing_get_delay, my_mbedtls_timing_set_delay, due]
  dsimp only
  by_cases hfin : fin_ms = 0
  · rw [if_pos hfin, if_pos hfin]
  · rw [if_neg hfin, if_neg hfin, if_pos hfin]
    simp only [UInt32.le_iff_toNat_le, my_mbedtls_timing_get_timer, if_pos, ← get_timer_elapsed h]

theorem due_succ {ms : ℕ} (hle : int_ms ≤ fin_ms) (hfin : fin_ms ≠ 0) (hms : ms < 4294967296) :
    due int_ms fin_ms ((ms+1) % 4294967296) = due int_ms fin_ms ms ↔
      ms+1 ≠ int_ms.toNat ∧ ms+1 ≠ fin_ms.toNat ∧ ms+1 ≠ 4294967296 := by
  have hle' : int_ms.toNat ≤ fin_ms.toNat := UInt32.le_iff_toNat_le.mp hle
  have hpos : 0 < fin_ms.toNat := Nat.pos_of_ne_zero fun h => hfin (UInt32.toNat_inj.mp h)
  have hlt : fin_ms.toNat < 4294967296 := fin_ms.toNat_lt
  rw [due, due, if_neg hfin, if_neg hfin]
  by_cases hwrap : ms+1 = 4294967296
  · have hnone : ¬fin_ms.toNat ≤ 0 := by omega
    have hall : fin_ms.toNat ≤ ms := by omega
    rw [hwrap, Nat.mod_self, if_neg hnone, if_pos hall]
    split <;> simp
  · rw [Nat.mod_eq_of_lt (by omega)]
    split_ifs <;> omega

theorem exact_iff (hle : int_ms ≤ fin_ms) (h : micros s ≤ micros t)
    (hms : millis s t < 4294967296) :
    my_mbedtls_timing_get_delay (my_mbedtls_timing_set_delay int_ms fin_ms s ctx) t =
      due int_ms fin_ms (millis s t) ↔ Unharmed int_ms fin_ms s t := by
  rw [get_delay_due h]
  by_cases hfin : fin_ms = 0
  · rw [due, due, if_pos hfin, if_pos hfin]
    exact iff_of_true rfl (Or.inl hfin)
  · by_cases hr : Rounds s t
    · rw [if_pos hr, due_succ hle hfin hms]
      exact ⟨fun h => Or.inr (Or.inr h),
        fun h => (h.resolve_left hfin).resolve_left (not_not.mpr hr)⟩
    · rw [if_neg hr, Nat.add_zero, Nat.mod_eq_of_lt hms]
      exact iff_of_true rfl (Or.inr (Or.inl hr))

theorem due_mono {m n : ℕ} (hle : int_ms ≤ fin_ms) (h : m ≤ n) :
    due int_ms fin_ms m ≤ due int_ms fin_ms n := by
  have hle' : int_ms.toNat ≤ fin_ms.toNat := UInt32.le_iff_toNat_le.mp hle
  rw [due, due]
  split
  · exact le_refl _
  · split_ifs <;> omega

end Timer

/-- The timer is exact at exactly the readings at which a millisecond counted
too early does no harm; exact answers never go back. -/
theorem timed_iff_unharmed {int_ms fin_ms : UInt32} (hle : int_ms ≤ fin_ms) {s : Timeval}
    (ctx : TimingDelayContext) {ts : List Timeval} (hts : Readings s ts) :
    Timed int_ms fin_ms s ctx ts ↔ ∀ t ∈ ts, Unharmed int_ms fin_ms s t := by
  have hexact : ∀ t ∈ ts, (my_mbedtls_timing_get_delay
      (my_mbedtls_timing_set_delay int_ms fin_ms s ctx) t = due int_ms fin_ms (millis s t) ↔
        Unharmed int_ms fin_ms s t) := fun t ht =>
    exact_iff hle (hts.later t ht).1 (hts.later t ht).2
  constructor
  · exact fun h t ht => (hexact t ht).mp (h.exact t ht)
  · intro h
    refine ⟨fun t ht => (hexact t ht).mpr (h t ht),?_⟩
    rw [List.pairwise_map]
    refine hts.ordered.imp_of_mem fun {t u} ht hu htu => ?_
    rw [(hexact t ht).mpr (h t ht), (hexact u hu).mpr (h u hu)]
    exact due_mono hle (Nat.div_le_div_right (Nat.sub_le_sub_right htu _))

def instant (sec : ℕ) (usec : Fin 1000000) : Timeval := ⟨sec,usec.val,usec.isLt⟩

/-- Set at 0.9995 s with delays of 1 s and 4 s. -/
theorem second_timed : Timed 1000 4000 (instant 0 999500) ⟨instant 0 0,0,0⟩
    [instant 1 0,instant 2 999499,instant 5 0] :=
  (timed_iff_unharmed (by decide) ⟨instant 0 0,0,0⟩ ⟨by decide,by decide⟩).mpr (by decide)

/-- A delay of 1000 ms counts as passed after 999.6 ms. -/
theorem early_by_a_part : ¬∀ (int_ms fin_ms : UInt32) (s : Timeval) (ctx : TimingDelayContext)
    (ts : List Timeval), int_ms ≤ fin_ms → Readings s ts → Timed int_ms fin_ms s ctx ts := by
  intro hall
  have htimed := hall 250 1000 (instant 0 500) ⟨instant 0 0,0,0⟩ [instant 1 100] (by decide)
    ⟨by decide,by decide⟩
  exact absurd (htimed.exact (instant 1 100) (by simp)) (by decide)

/-- Every call offers the size of the whole message. A vector has less than
2^31 bytes, so that neither the offset nor a result wraps. -/
def update (entertainment_msg : List UInt8) (mbedtls_ssl_write : ℕ → ℕ → ℤ) : Option Written :=
  writeFrom (fun _ => entertainment_msg.length) entertainment_msg.length mbedtls_ssl_write
    (entertainment_msg.length+1) 0 0

section Frame
variable {msg : List UInt8} {write : ℕ → ℕ → ℤ} {w : Written}

/-- The message is empty, or the first call fails or accepts all of it. -/
def OneCall (msg : List UInt8) (write : ℕ → ℕ → ℤ) : Prop :=
  msg = [] ∨ write 0 msg.length < 0 ∨ write 0 msg.length = msg.length

theorem update_ends (hw : Answers write) : ∃ w, update msg write = some w :=
  writeFrom_ends hw (fun _ h => Nat.zero_lt_of_lt h) (by omega)

theorem inside_iff_oneCall (hw : Answers write) (h : update msg write = some w) :
    (∀ c ∈ w.calls, c.offset + c.length ≤ msg.length) ↔ OneCall msg write := by
  rcases Nat.eq_zero_or_pos msg.length with hmsg | hmsg
  · rw [writeFrom_full hmsg.le h]
    exact iff_of_true (by simp) (Or.inl (List.length_eq_zero_iff.mp hmsg))
  · obtain ⟨later,hcalls,hlast,hnext⟩ := writeFrom_first hmsg h
    rw [hcalls, List.forall_mem_cons]
    by_cases hneg : write 0 msg.length < 0
    · rw [hlast hneg]
      exact iff_of_true ⟨(Nat.zero_add _).le,by simp⟩ (Or.inr (Or.inl hneg))
    · obtain ⟨rounds,v,rfl,hv⟩ := hnext hneg
      have hret := (hw 0 msg.length hmsg).resolve_left hneg
      by_cases hall : write 0 msg.length = msg.length
      · rw [writeFrom_full (by omega) hv]
        exact iff_of_true ⟨(Nat.zero_add _).le,by simp⟩ (Or.inr (Or.inr hall))
      · -- A second call is made behind what was accepted, and offers as much again.
        obtain ⟨_,hsecond,-⟩ := writeFrom_first (by omega) hv
        refine iff_of_false (fun hin => ?_) ?_
        · have hover := hin.2 _ (hsecond ▸ List.mem_cons_self)
          dsimp only at hover
          omega
        · rintro (hnil | hneg' | hall')
          · rw [hnil] at hmsg
            exact absurd hmsg (by decide)
          · exact hneg hneg'
          · exact hall hall'

end Frame

/-- The loop always ends, and writes the message completely and only once
exactly where it makes at most one call. -/
theorem update_once_iff {msg : List UInt8} {write : ℕ → ℕ → ℤ} (hw : Answers write) :
    ∃ w, update msg write = some w ∧ (WrittenOnce msg w ↔ OneCall msg write) := by
  obtain ⟨w,h⟩ := @update_ends msg write hw
  refine ⟨w,h,(writtenOnce_iff hw (fun _ ht => Nat.zero_lt_of_lt ht) h).trans ?_⟩
  exact inside_iff_oneCall hw h

def acceptsAll : ℕ → ℕ → ℤ := fun _ length => length

def acceptsTwo : ℕ → ℕ → ℤ := fun _ length => min length 2

theorem acceptsAll_answers : Answers acceptsAll := fun _ length hpos =>
  Or.inr ⟨show (1:ℤ) ≤ length by omega,show (length:ℤ) ≤ length from le_refl _⟩

theorem acceptsTwo_answers : Answers acceptsTwo := fun _ length hpos =>
  Or.inr ⟨show (1:ℤ) ≤ min (length:ℤ) 2 by omega,show min (length:ℤ) 2 ≤ length by omega⟩

theorem three_written : ∃ w, update [1,2,3] acceptsAll = some w ∧
    WrittenOnce ([1,2,3] : List UInt8) w := by
  obtain ⟨w,hrun,honce⟩ := @update_once_iff [1,2,3] _ acceptsAll_answers
  exact ⟨w,hrun,honce.mpr (Or.inr (Or.inr rfl))⟩

/-- Where two of three bytes are accepted, the second call offers bytes 2 to 4. -/
theorem second_call_outside : ¬∀ (msg : List UInt8) (write : ℕ → ℕ → ℤ), Answers write →
    ∃ w, update msg write = some w ∧ WrittenOnce msg w := by
  intro hall
  obtain ⟨w,hrun,hwritten⟩ := hall [1,2,3] acceptsTwo acceptsTwo_answers
  have hcalls : update [1,2,3] acceptsTwo =
      some { done := true, calls := [⟨0,3,2⟩,⟨2,3,2⟩] } := by decide
  cases hrun.symm.trans hcalls
  exact absurd (hwritten.inside ⟨2,3,2⟩ (by simp)) (by decide)

end THue.DtlsConnection
