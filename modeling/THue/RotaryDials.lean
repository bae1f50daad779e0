import THue.Encoder
import THue.OutputRuns
import THue.DetentKnob
import Mathlib.Data.Fin.VecNotation

/-!
# The rotary encoders

`RotaryEncoder` counts the quarter steps of a knob from the two contacts that
`tick` reads, and copies the count at the latch states of its mode. The count
is a `long`, here an integer. A knob whose shaft is read at every angle is
followed exactly; one that is read more rarely is followed up to half turns.
-/

set_option autoImplicit false

namespace THue.RotaryDials
open THue.OutputRuns THue.DetentKnob
open THue.Encoder (Direction)

inductive LatchMode where
  | FOUR3
  | FOUR0
  | TWO03
  deriving DecidableEq, Repr

/-- The state the contacts are in, `sig1 | sig2 << 1`. -/
abbrev PinState := Fin 4

def LATCH0 : PinState := 0

def LATCH3 : PinState := 3

structure RotaryEncoder where
  mode : LatchMode := .FOUR0
  oldState : PinState := 3
  position : ℤ := 0
  positionExt : ℤ := 0
  positionExtPrev : ℤ := 0
  positionExtTime : UInt32 := 0
  positionExtTimePrev : UInt32 := 0
  deriving DecidableEq

structure Reading where
  sig1 : Bool
  sig2 : Bool
  millis : UInt32 := 0

def Reading.state (r : Reading) : PinState :=
  ⟨r.sig1.toNat ||| r.sig2.toNat <<< 1,by cases r.sig1 <;> cases r.sig2 <;> decide⟩

def KNOBDIR : Fin 16 → ℤ :=
  ![0, -1, 1, 0,
    1, 0, 0, -1,
    -1, 0, 0, 1,
    0, 1, -1, 0]

/-- The entry for a change of state, at `thisState | oldState << 2`. -/
def knobDir (oldState thisState : PinState) : ℤ :=
  KNOBDIR ⟨thisState.val ||| oldState.val <<< 2,
    Nat.or_lt_two_pow (n := 4) (by omega) (by rw [Nat.shiftLeft_eq]; omega)⟩

def copyPosition (ext : ℤ) (millis : UInt32) (e : RotaryEncoder) : RotaryEncoder :=
  { e with positionExt := ext, positionExtTimePrev := e.positionExtTime, positionExtTime := millis }

def tick (r : Reading) (e : RotaryEncoder) : RotaryEncoder :=
  if e.oldState = r.state then e
  else
    let position := e.position + knobDir e.oldState r.state
    let e := { e with position := position }
    let e := match e.mode with
      | .FOUR3 => if r.state = LATCH3 then copyPosition (position >>> (2:ℕ)) r.millis e else e
      | .FOUR0 => if r.state = LATCH0 then copyPosition (position >>> (2:ℕ)) r.millis e else e
      | .TWO03 => if r.state = LATCH0 ∨ r.state = LATCH3 then
          copyPosition (position >>> (1:ℕ)) r.millis e else e
    { e with oldState := r.state }

def getDirection (e : RotaryEncoder) : RotaryEncoder × Direction :=
  if e.positionExt < e.positionExtPrev then ({ e with positionExtPrev := e.positionExt },.down)
  else if e.positionExtPrev < e.positionExt then ({ e with positionExtPrev := e.positionExt },.up)
  else ({ e with positionExtPrev := e.positionExt },.none)

/-- The new position is shifted as a `long` of 32 bits; one or two low bits of the old stay. -/
def setPosition (newPosition : ℤ) (e : RotaryEncoder) : RotaryEncoder :=
  let position := match e.mode with
    | .FOUR3 | .FOUR0 => (newPosition*4).bmod (2^32) + e.position % 4
    | .TWO03 => (newPosition*2).bmod (2^32) + e.position % 2
  { e with position := position, positionExt := newPosition, positionExtPrev := newPosition }

/-- What an iteration of a loop does with a dial: `tick`, then `getDirection`. -/
def sample (e : RotaryEncoder) (r : Reading) : RotaryEncoder × List Direction :=
  ((getDirection (tick r e)).1,[(getDirection (tick r e)).2])

/-- The contacts at an angle, in quarter steps; clockwise they run 3, 1, 0, 2. -/
def contacts (angle : ℤ) : PinState :=
  if angle % 4 = 0 then 3 else if angle % 4 = 1 then 1 else if angle % 4 = 2 then 0 else 2

def readingAt (m : UInt32 × ℤ) : Reading :=
  { sig1 := contacts m.2 = 1 ∨ contacts m.2 = 3
    sig2 := contacts m.2 = 2 ∨ contacts m.2 = 3
    millis := m.1 }

theorem readingAt_state (m : UInt32 × ℤ) : (readingAt m).state = contacts m.2 := by
  apply Fin.ext
  dsimp only [Reading.state, readingAt]
  generalize contacts m.2 = s
  revert s
  decide

def detents : LatchMode → Detents
  | .FOUR3 => ⟨4,0,by decide⟩
  | .FOUR0 => ⟨4,2,by decide⟩
  | .TWO03 => ⟨2,0,by decide⟩

theorem knobDir_contacts (a b : ℤ) :
    knobDir (contacts a) (contacts b) = if (b-a) % 4 = 3 then -1 else (b-a) % 4 % 2 := by
  have ha : a % 4 = 0 ∨ a % 4 = 1 ∨ a % 4 = 2 ∨ a % 4 = 3 := by omega
  have hb : b % 4 = 0 ∨ b % 4 = 1 ∨ b % 4 = 2 ∨ b % 4 = 3 := by omega
  rw [Int.sub_emod, contacts, contacts]
  obtain ha | ha | ha | ha := ha <;> obtain hb | hb | hb | hb := hb <;> rw [ha, hb] <;> decide

theorem contacts_eq_iff (a b : ℤ) : contacts a = contacts b ↔ (b-a) % 4 = 0 := by
  simp only [contacts]
  split_ifs <;> simp <;> omega

theorem knobDir_near {a b : ℤ} (h : Near a b) : knobDir (contacts a) (contacts b) = b-a := by
  rw [knobDir_contacts]
  rw [Near, abs_le] at h
  split <;> omega

def Latches : LatchMode → PinState → Prop
  | .FOUR3, s => s = LATCH3
  | .FOUR0, s => s = LATCH0
  | .TWO03, s => s = LATCH0 ∨ s = LATCH3

instance latches_decidable : ∀ mode s, Decidable (Latches mode s)
  | .FOUR3, _ => inferInstanceAs (Decidable (_ = _))
  | .FOUR0, _ => inferInstanceAs (Decidable (_ = _))
  | .TWO03, _ => inferInstanceAs (Decidable (_ ∨ _))

theorem latches_iff (mode : LatchMode) (a : ℤ) :
    Latches mode (contacts a) ↔ (detents mode).AtRest a := by
  cases mode <;> simp only [Latches, contacts, LATCH0, LATCH3, Detents.AtRest, detents] <;>
    split_ifs <;> simp <;> omega

theorem tick_cases (r : Reading) (e : RotaryEncoder) : tick r e =
    if e.oldState = r.state then e
    else if Latches e.mode r.state then
      { e with
        oldState := r.state
        position := e.position + knobDir e.oldState r.state
        positionExt := (e.position + knobDir e.oldState r.state) / (detents e.mode).size
        positionExtTimePrev := e.positionExtTime
        positionExtTime := r.millis }
    else { e with oldState := r.state, position := e.position + knobDir e.oldState r.state } := by
  obtain ⟨mode,old,position,ext,prev,time,timePrev⟩ := e
  rw [tick]
  split
  · rfl
  · by_cases h : Latches mode r.state
    · rw [if_pos h]
      cases mode <;> simp only [Latches] at h <;>
        simp only [if_pos h, copyPosition, Int.shiftRight_eq_div_pow] <;> rfl
    · rw [if_neg h]
      cases mode <;> simp only [Latches] at h <;> simp only [if_neg h]

/-- The encoder reads the contacts of the knob, counts its angle from some zero,
and copies the notch, counted from the zero's own. -/
structure Follows (e : RotaryEncoder) (k : Knob) (zero : ℤ) : Prop where
  state : e.oldState = contacts k.angle
  position : e.position = k.angle + zero
  ext : e.positionExt = k.notch + ((detents e.mode).rest + zero) / (detents e.mode).size
  prev : e.positionExtPrev = e.positionExt

theorem detent_copied (d : Detents) {a : ℤ} (zero : ℤ) (h : d.AtRest a) :
    (a+zero)/d.size = (a-d.rest)/d.size + (d.rest+zero)/d.size := by
  have hsize : (d.size:ℤ) ≠ 0 := by have := d.positive; omega
  have hangle := atRest_angle h
  conv_lhs => rw [← hangle]
  rw [Detents.angle, show (d.size:ℤ)*((a-d.rest)/d.size) + d.rest + zero =
    (d.rest+zero) + d.size*((a-d.rest)/d.size) by ring, Int.add_mul_ediv_left _ _ hsize, add_comm]

/-- One reading moves the encoder as one look moves the knob. -/
theorem tick_follows {e : RotaryEncoder} {k : Knob} {zero : ℤ} (h : Follows e k zero)
    (hk : Engaged (detents e.mode) k) {m : UInt32 × ℤ} (ha : Near k.angle m.2) :
    (tick (readingAt m) e).mode = e.mode ∧
      (tick (readingAt m) e).oldState = contacts m.2 ∧
      (tick (readingAt m) e).position = m.2 + zero ∧
      (tick (readingAt m) e).positionExt = (turn (detents e.mode) k m.2).notch +
        ((detents e.mode).rest + zero) / (detents e.mode).size ∧
      (tick (readingAt m) e).positionExtPrev = e.positionExt := by
  have hposition : e.position + knobDir e.oldState (contacts m.2) = m.2 + zero := by
    rw [h.position, h.state, knobDir_near ha]
    ring
  rw [tick_cases, readingAt_state, hposition]
  split
  · next hsame =>
    have hstill : m.2 = k.angle := by
      rw [h.state, contacts_eq_iff] at hsame
      rw [Near, abs_le] at ha
      omega
    rw [hstill, turn_still hk]
    exact ⟨rfl,h.state,h.position,h.ext,h.prev⟩
  · rw [turn]
    split
    · next hlatch =>
      have hrest := (latches_iff e.mode m.2).mp hlatch
      refine ⟨rfl,rfl,rfl,?_,h.prev⟩
      dsimp only
      rw [if_pos hrest]
      exact detent_copied _ zero hrest
    · next hlatch =>
      refine ⟨rfl,rfl,rfl,?_,h.prev⟩
      dsimp only
      rw [if_neg fun hr => hlatch ((latches_iff e.mode m.2).mpr hr)]
      exact h.ext

def directionOf (n : ℤ) : Direction := if n < 0 then .down else if 0 < n then .up else .none

theorem getDirection_cases (e : RotaryEncoder) :
    getDirection e = ({ e with positionExtPrev := e.positionExt },
      directionOf (e.positionExt-e.positionExtPrev)) := by
  rw [getDirection, directionOf]
  split_ifs <;> first | rfl | omega

def lookAt (mode : LatchMode) (k : Knob) (m : UInt32 × ℤ) : Knob × List Direction :=
  (turn (detents mode) k m.2,[directionOf ((turn (detents mode) k m.2).notch-k.notch)])

structure Tracks (mode : LatchMode) (zero : ℤ) (e : RotaryEncoder) (k : Knob) : Prop where
  inMode : e.mode = mode
  follows : Follows e k zero
  engaged : Engaged (detents mode) k

theorem sample_tracks {mode : LatchMode} {zero : ℤ} {e : RotaryEncoder} {k : Knob}
    {m : UInt32 × ℤ} (h : Tracks mode zero e k) (ha : Near k.angle m.2) :
    Tracks mode zero (sample e (readingAt m)).1 (lookAt mode k m).1 ∧
      (sample e (readingAt m)).2 = (lookAt mode k m).2 := by
  obtain ⟨rfl,hfollows,hk⟩ := h
  obtain ⟨hmode,hstate,hposition,hext,hprev⟩ := tick_follows hfollows hk ha
  rw [sample, getDirection_cases]
  refine ⟨⟨hmode,⟨hstate,hposition,?_,rfl⟩,turn_engaged hk ha⟩,?_⟩
  · dsimp only
    rw [hext, hmode]
    rfl
  · dsimp only
    rw [hext, hprev, hfollows.ext, lookAt]
    ring_nf

theorem tracks_of {mode : LatchMode} {e : RotaryEncoder} {θ : ℤ} (hmode : e.mode = mode)
    (hstate : e.oldState = contacts θ) (hprev : e.positionExtPrev = e.positionExt)
    (hnear : |e.position - ((detents mode).size*e.positionExt +
      ((detents mode).rest + (e.position-θ)) % (detents mode).size)| < (detents mode).size) :
    Tracks mode (e.position-θ) e { angle := θ, notch := e.positionExt -
      ((detents mode).rest + (e.position-θ)) / (detents mode).size } := by
  refine ⟨hmode,⟨hstate,by ring,?_,hprev⟩,?_⟩
  · rw [hmode]
    ring
  · rw [Engaged, Detents.angle]
    have hdiv := Int.mul_ediv_add_emod ((detents mode).rest + (e.position-θ)) (detents mode).size
    rw [show θ - ((detents mode).size*(e.positionExt -
      ((detents mode).rest + (e.position-θ)) / (detents mode).size) + (detents mode).rest) =
      e.position - ((detents mode).size*e.positionExt +
        ((detents mode).rest + (e.position-θ)) % (detents mode).size) by linarith]
    exact hnear

def booted (mode : LatchMode) (m : UInt32 × ℤ) : RotaryEncoder :=
  (sample { mode := mode } (readingAt m)).1

def bootKnob (mode : LatchMode) (θ : ℤ) : Knob :=
  { angle := θ
    notch := -(((detents mode).rest + (knobDir 3 (contacts θ) - θ)) / (detents mode).size) }

theorem sample_boot (mode : LatchMode) (m : UInt32 × ℤ) :
    (booted mode m).mode = mode ∧ (booted mode m).oldState = contacts m.2 ∧
      (booted mode m).position = knobDir 3 (contacts m.2) ∧ (booted mode m).positionExt = 0 ∧
      (booted mode m).positionExtPrev = 0 ∧
      (sample { mode := mode } (readingAt m)).2 = [.none] := by
  rw [booted, sample, getDirection_cases, tick_cases, readingAt_state]
  generalize contacts m.2 = s
  have hs : s = 0 ∨ s = 1 ∨ s = 2 ∨ s = 3 := by decide +revert
  obtain rfl | rfl | rfl | rfl := hs <;> cases mode <;> exact ⟨rfl,rfl,rfl,rfl,rfl,rfl⟩

theorem boot_tracks (mode : LatchMode) (m : UInt32 × ℤ) :
    Tracks mode (knobDir 3 (contacts m.2) - m.2) (booted mode m) (bootKnob mode m.2) := by
  obtain ⟨hmode,hstate,hposition,hext,hprev,-⟩ := sample_boot mode m
  have h := tracks_of (θ := m.2) hmode hstate (hprev.trans hext.symm) ?_
  · rwa [hposition, hext, zero_sub] at h
  · have hcount := knobDir_contacts 0 m.2
    rw [sub_zero] at hcount
    rw [hposition, hext, show knobDir 3 (contacts m.2) = _ from hcount, abs_lt]
    cases mode <;> dsimp only [detents] <;> split <;> omega

theorem guarded_of_chain (mode : LatchMode) {k : Knob} {ms : List (UInt32 × ℤ)}
    (h : (k.angle::ms.map Prod.snd).IsChain Near) :
    Guarded (lookAt mode) (fun k m => Near k.angle m.2) k ms := by
  induction ms generalizing k with
  | nil => trivial
  | cons m ms ih =>
    obtain ⟨hfirst,hrest⟩ := List.isChain_cons_cons.mp h
    exact ⟨hfirst,ih hrest⟩

def turns (d : Direction) : ℤ :=
  match d with
  | .none => 0
  | .up => 1
  | .down => -1

theorem turns_directionOf {n : ℤ} (h : |n| ≤ 1) : turns (directionOf n) = n := by
  rw [abs_le] at h
  rw [directionOf]
  split_ifs <;> simp only [turns] <;> omega

theorem run_tracks {mode : LatchMode} {zero : ℤ} {e : RotaryEncoder} {k : Knob}
    {ms : List (UInt32 × ℤ)} (h : Tracks mode zero e k)
    (hms : (k.angle::ms.map Prod.snd).IsChain Near) :
    Tracks mode zero (run sample e (ms.map readingAt)).1 (run (lookAt mode) k ms).1 ∧
      (run sample e (ms.map readingAt)).2 = (run (lookAt mode) k ms).2 ∧
      ((run (lookAt mode) k ms).2.map turns).sum = (run (lookAt mode) k ms).1.notch - k.notch := by
  have hguard := guarded_of_chain mode hms
  obtain ⟨htracks,hout⟩ := run_simulates (f := readingAt)
    (fun e k n h hn => sample_tracks h hn) h hguard
  refine ⟨htracks,hout,?_⟩
  refine outputs_sum (I := Engaged (detents mode)) (q := Knob.notch)
    (fun k n hk hn => turn_engaged hk hn) (fun k n hk hn => ?_) h.engaged hguard
  have hnear : |(turn (detents mode) k n.2).notch-k.notch| ≤ 1 := turn_near hk hn
  rw [lookAt, List.map_singleton, List.sum_singleton, turns_directionOf hnear]

theorem notches_apart {d : Detents} {j k : Knob} (hj : Engaged d j) (hk : Engaged d k)
    (hrj : d.AtRest j.angle) (hrk : d.AtRest k.angle) :
    d.size * (k.notch-j.notch) = k.angle-j.angle := by
  have h1 := atRest_angle hrj
  have h2 := atRest_angle hrk
  rw [engaged_rest hj hrj, Detents.angle] at h1
  rw [engaged_rest hk hrk, Detents.angle] at h2
  linarith

def knobAfter (mode : LatchMode) (θ : ℤ) (ms : List (UInt32 × ℤ)) : Knob :=
  (run (lookAt mode) (bootKnob mode θ) ms).1

/-- From boot at any angle, a dial that is read at every angle answers exactly the changes of
the notch, one detent each; from one detent to another it answers the detents between them. -/
theorem dial_exact (mode : LatchMode) (m : UInt32 × ℤ) (ms : List (UInt32 × ℤ))
    (hms : (m.2::ms.map Prod.snd).IsChain Near) :
    let sampled := run sample { mode := mode } ((m::ms).map readingAt)
    let knob := knobAfter mode m.2 ms
    sampled.2 = .none::(run (lookAt mode) (bootKnob mode m.2) ms).2 ∧
      (sampled.2.map turns).sum = knob.notch - (bootKnob mode m.2).notch ∧
      Engaged (detents mode) knob ∧
      sampled.1.oldState = contacts knob.angle ∧
      sampled.1.position - knob.angle = knobDir 3 (contacts m.2) - m.2 ∧
      ((detents mode).AtRest m.2 → (detents mode).AtRest knob.angle →
        (detents mode).size * (sampled.2.map turns).sum = knob.angle - m.2) := by
  intro sampled knob
  have hboot := boot_tracks mode m
  obtain ⟨htracks,hout,hsum⟩ := run_tracks hboot hms
  have hanswers : sampled.2 = .none::(run (lookAt mode) (bootKnob mode m.2) ms).2 := by
    rw [← hout]
    show (sample { mode := mode } (readingAt m)).2 ++ _ = _
    rw [(sample_boot mode m).2.2.2.2.2]
    rfl
  have hnet : (sampled.2.map turns).sum = knob.notch - (bootKnob mode m.2).notch := by
    rw [hanswers, List.map_cons, List.sum_cons, turns, zero_add]
    exact hsum
  refine ⟨hanswers,hnet,htracks.engaged,htracks.follows.state,?_,fun hfrom hto => ?_⟩
  · have hposition := htracks.follows.position
    rw [show sampled.1 = (run sample (booted mode m) (ms.map readingAt)).1 from rfl, hposition]
    show knob.angle + _ - knob.angle = _
    ring
  · rw [hnet]
    exact notches_apart hboot.engaged htracks.engaged hfrom hto

/-- A knob from one detent to the next, a bounce of its contacts and back again. -/
theorem detent_exact :
    ((2:ℤ)::([(0,3),(0,4),(0,3),(0,4),(0,5),(0,6),(0,5)] : List (UInt32 × ℤ)).map
      Prod.snd).IsChain Near ∧
      (run sample { mode := .FOUR0 } (((0,2)::[(0,3),(0,4),(0,3),(0,4),(0,5),(0,6),(0,5)]).map
        readingAt)).2 = [.none,.none,.none,.none,.none,.none,.up,.none] := by
  refine ⟨by decide,?_⟩
  rw [(dial_exact .FOUR0 (0,2) [(0,3),(0,4),(0,3),(0,4),(0,5),(0,6),(0,5)] (by decide)).1]
  rfl

def halfTurns : ℤ → List ℤ → ℕ
  | _, [] => 0
  | a, b::bs => (if (b-a) % 4 = 2 then 1 else 0) + halfTurns b bs

def lastAngle (a : ℤ) (as : List ℤ) : ℤ := as.getLastD a

theorem sample_missed {e : RotaryEncoder} {a : ℤ} (h : e.oldState = contacts a) (m : UInt32 × ℤ) :
    (sample e (readingAt m)).1.oldState = contacts m.2 ∧
      (sample e (readingAt m)).1.position = e.position + knobDir (contacts a) (contacts m.2) := by
  rw [sample, getDirection_cases, tick_cases, readingAt_state, h]
  split
  · next hsame =>
    rw [← hsame]
    have hzero := knobDir_contacts a a
    rw [sub_self] at hzero
    exact ⟨h,by rw [hzero]; simp⟩
  · split
    · exact ⟨rfl,rfl⟩
    · exact ⟨rfl,rfl⟩

theorem knobDir_missed (a b : ℤ) : |knobDir (contacts a) (contacts b)| ≤ 1 ∧
    (knobDir (contacts a) (contacts b) - (b-a)) % 4 = 2*(if (b-a) % 4 = 2 then 1 else 0) := by
  rw [knobDir_contacts, abs_le]
  split_ifs <;> omega

theorem run_missed {e : RotaryEncoder} {a : ℤ} (h : e.oldState = contacts a)
    (ms : List (UInt32 × ℤ)) :
    (run sample e (ms.map readingAt)).1.oldState = contacts (lastAngle a (ms.map Prod.snd)) ∧
      |(run sample e (ms.map readingAt)).1.position - e.position| ≤ ms.length ∧
      ((run sample e (ms.map readingAt)).1.position - e.position -
        (lastAngle a (ms.map Prod.snd) - a)) % 4 = 2*(halfTurns a (ms.map Prod.snd) % 2 : ℕ) := by
  induction ms generalizing e a with
  | nil => exact ⟨h,by simp,by simp [lastAngle, halfTurns]⟩
  | cons m ms ih =>
    obtain ⟨hstate,hposition⟩ := sample_missed h m
    obtain ⟨hlast,hcount,hmissed⟩ := ih hstate
    obtain ⟨hstep,hskip⟩ := knobDir_missed a m.2
    have hangle : lastAngle a ((m::ms).map Prod.snd) = lastAngle m.2 (ms.map Prod.snd) := by
      rw [lastAngle, lastAngle, List.map_cons, List.getLastD_cons]
    rw [hangle, List.map_cons, List.map_cons, run, halfTurns, List.length_cons]
    rw [hposition] at hcount hmissed
    dsimp only
    generalize lastAngle m.2 (ms.map Prod.snd) = last at hlast hmissed ⊢
    generalize (run sample (sample e (readingAt m)).1 (ms.map readingAt)).1 = f
      at hlast hcount hmissed ⊢
    generalize knobDir (contacts a) (contacts m.2) = step at hstep hskip hcount hmissed
    generalize halfTurns m.2 (ms.map Prod.snd) = turned at hmissed ⊢
    refine ⟨hlast,?_,?_⟩
    · rw [abs_le] at hcount hstep ⊢
      push_cast
      omega
    · split_ifs at hskip ⊢ <;> omega

/-- However rarely a dial is read, its count has the parity of the angle, grows by one a
reading at most, and misses a multiple of four steps exactly when the shaft was turned
by half a turn between two readings an even number of times. -/
theorem dial_missed (mode : LatchMode) (m : UInt32 × ℤ) (ms : List (UInt32 × ℤ)) :
    let e := (run sample { mode := mode } ((m::ms).map readingAt)).1
    let missed := e.position - knobDir 3 (contacts m.2) - (lastAngle m.2 (ms.map Prod.snd) - m.2)
    e.oldState = contacts (lastAngle m.2 (ms.map Prod.snd)) ∧
      |e.position| ≤ ms.length + 1 ∧ missed % 2 = 0 ∧
      (missed % 4 = 0 ↔ halfTurns m.2 (ms.map Prod.snd) % 2 = 0) := by
  intro e missed
  obtain ⟨-,hstate,hposition,-⟩ := sample_boot mode m
  obtain ⟨hlast,hcount,hmissed⟩ := run_missed hstate ms
  rw [hposition] at hcount hmissed
  have hfirst := (knobDir_missed 0 m.2).1
  rw [show contacts 0 = 3 from rfl] at hfirst
  refine ⟨hlast,?_,?_,?_⟩
  · rw [abs_le] at hcount hfirst ⊢
    show _ ≤ (run sample (booted mode m) (ms.map readingAt)).1.position ∧
      (run sample (booted mode m) (ms.map readingAt)).1.position ≤ _
    omega
  · have h := hmissed
    show ((run sample (booted mode m) (ms.map readingAt)).1.position - _ - _) % 2 = 0
    omega
  · show ((run sample (booted mode m) (ms.map readingAt)).1.position - _ - _) % 4 = 0 ↔ _
    omega

/-- The steps of a new position and the steps turned from there fit a `long` together. -/
def InLong (n θ : ℤ) (ns : List (UInt32 × ℤ)) : Prop :=
  ∀ a ∈ θ::ns.map Prod.snd, 4*|n| + |a-θ| + 4 ≤ 2^31

instance inLong_decidable (n θ : ℤ) (ns : List (UInt32 × ℤ)) : Decidable (InLong n θ ns) :=
  inferInstanceAs (Decidable (∀ a ∈ _, _))

theorem run_angle (mode : LatchMode) (k : Knob) (ns : List (UInt32 × ℤ)) :
    (run (lookAt mode) k ns).1.angle ∈ k.angle::ns.map Prod.snd := by
  induction ns generalizing k with
  | nil => exact List.mem_cons_self
  | cons m ns ih => exact List.mem_cons_of_mem k.angle (ih (turn (detents mode) k m.2))

theorem setPosition_tracks {e : RotaryEncoder} {θ n : ℤ} (h : e.oldState = contacts θ)
    (hn : 4*|n| + 4 ≤ 2^31) :
    ∃ zero k, k.angle = θ ∧ |zero+θ| ≤ 4*|n| + 3 ∧ Tracks e.mode zero (setPosition n e) k := by
  have habs := abs_le.mp (le_refl |n|)
  have hfour : (n*4).bmod (2^32) = n*4 := Int.bmod_eq_of_le (by omega) (by omega)
  have htwo : (n*2).bmod (2^32) = n*2 := Int.bmod_eq_of_le (by omega) (by omega)
  refine ⟨_,_,rfl,?_,tracks_of (θ := θ) rfl h rfl ?_⟩
  · rw [sub_add_cancel, abs_le, setPosition, hfour, htwo]
    cases e.mode <;> dsimp only <;> omega
  · rw [abs_lt, setPosition, hfour, htwo]
    cases e.mode <;> dsimp only [detents] <;> omega

/-- Whatever was missed before it, after `setPosition` a dial that is read at every angle is
exact again, and its count stays a `long`. -/
theorem dial_reset (mode : LatchMode) (m : UInt32 × ℤ) (ms ns : List (UInt32 × ℤ)) {n : ℤ}
    (hn : InLong n (lastAngle m.2 (ms.map Prod.snd)) ns)
    (hns : (lastAngle m.2 (ms.map Prod.snd)::ns.map Prod.snd).IsChain Near) :
    let e := setPosition n (run sample { mode := mode } ((m::ms).map readingAt)).1
    (∃ k, k.angle = lastAngle m.2 (ms.map Prod.snd) ∧ Engaged (detents mode) k ∧
      (run sample e (ns.map readingAt)).2 = (run (lookAt mode) k ns).2 ∧
      ((run sample e (ns.map readingAt)).2.map turns).sum =
        (run (lookAt mode) k ns).1.notch - k.notch ∧
      Engaged (detents mode) (run (lookAt mode) k ns).1) ∧
      |(run sample e (ns.map readingAt)).1.position| < 2^31 := by
  intro e
  have hmode : (run sample { mode := mode } ((m::ms).map readingAt)).1.mode = mode := by
    refine run_keeps (I := fun e : RotaryEncoder => e.mode = mode)
      (fun e r he (_ : True) => ?_) rfl (guarded_true _ _ _)
    rw [sample, getDirection_cases, tick_cases]
    split_ifs <;> exact he
  have hstate : (run sample { mode := mode } ((m::ms).map readingAt)).1.oldState =
      contacts (lastAngle m.2 (ms.map Prod.snd)) := (run_missed (sample_boot mode m).2.1 ms).1
  have hplace := hn _ List.mem_cons_self
  rw [sub_self, abs_zero, add_zero] at hplace
  obtain ⟨zero,k,hangle,hzero,htracks⟩ := setPosition_tracks hstate hplace
  rw [hmode] at htracks
  rw [← hangle] at hns
  obtain ⟨hlast,hout,hsum⟩ := run_tracks htracks hns
  refine ⟨⟨k,hangle,htracks.engaged,hout,?_,hlast.engaged⟩,?_⟩
  · rw [hout]
    exact hsum
  · have hend : (run (lookAt mode) k ns).1.angle ∈ k.angle::ns.map Prod.snd :=
      run_angle mode k ns
    rw [hangle] at hend
    have hroom := hn _ hend
    rw [hlast.follows.position]
    generalize (run (lookAt mode) k ns).1.angle = a at hroom
    have hsplit : a+zero = (a - lastAngle m.2 (ms.map Prod.snd)) +
      (zero + lastAngle m.2 (ms.map Prod.snd)) := by ring
    have htriangle := abs_add_le (a - lastAngle m.2 (ms.map Prod.snd))
      (zero + lastAngle m.2 (ms.map Prod.snd))
    rw [hsplit]
    omega

/-- A half turn that no reading saw, a new position, and a detent clockwise. -/
theorem half_turn_reset :
    (lastAngle 2 (([(0,4)] : List (UInt32 × ℤ)).map Prod.snd)::
      ([(0,5),(0,6)] : List (UInt32 × ℤ)).map Prod.snd).IsChain Near ∧
      ∃ k, k.angle = 4 ∧ Engaged (detents .FOUR0) k ∧
        (run sample (setPosition 3 (run sample { mode := .FOUR0 } ([(0,2),(0,4)].map readingAt)).1)
          ([(0,5),(0,6)].map readingAt)).2 = (run (lookAt .FOUR0) k [(0,5),(0,6)]).2 := by
  have hns : (lastAngle 2 (([(0,4)] : List (UInt32 × ℤ)).map Prod.snd)::
      ([(0,5),(0,6)] : List (UInt32 × ℤ)).map Prod.snd).IsChain Near := by decide
  have hn : InLong 3 (lastAngle 2 (([(0,4)] : List (UInt32 × ℤ)).map Prod.snd)) [(0,5),(0,6)] := by
    decide
  obtain ⟨⟨k,hangle,hk,hout,-⟩,-⟩ := dial_reset .FOUR0 (0,2) [(0,4)] [(0,5),(0,6)] hn hns
  exact ⟨hns,k,hangle,hk,hout⟩

end THue.RotaryDials
