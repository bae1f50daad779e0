import THue.DialCycle
import THue.RotaryDials

/-!
# The knob and the chosen bulb

The loops that choose a bulb read their dial once in an iteration. With the
dial's encoder put before the loop, the bulb at the counter depends on the
detent of the knob alone.
-/

set_option autoImplicit false

namespace THue.KnobSelection
open THue.Globals THue.FaultRun THue.OutputRuns THue.Encoder THue.DialPositions THue.DialCycle
open THue.DetentKnob THue.RotaryDials

variable {α : Type} {l : Chooser α} {n start : UInt8}

/-- What an iteration meets: the knob's angle when its dial is read, and the rest of its input. -/
structure Moment where
  millis : UInt32 := 0
  angle : ℤ
  iteration : Iteration := {}

def Moment.answered (m : Moment) (d : Direction) : Iteration :=
  { m.iteration with input := { m.iteration.input with direction := d } }

def dialledTurn (l : Chooser α) (s : RotaryEncoder × Dialling α) (m : Moment) :
    Except Fault (RotaryEncoder × Dialling α) := do
  let e := tick (readingAt (m.millis,m.angle)) s.1
  let w ← turn l s.2 (m.answered (getDirection e).2)
  pure ((getDirection e).1,w)

def looks (ms : List Moment) : List (UInt32 × ℤ) := ms.map fun m => (m.millis,m.angle)

structure Selected (l : Chooser α) (n start : UInt8) (zero : ℤ) (origin : ℤ)
    (s : RotaryEncoder × Dialling α) (k : Knob) : Prop where
  tracks : Tracks .FOUR0 zero s.1 k
  placed : Placed l n start s.2
  turned : s.2.detents.sum = k.notch-origin

theorem detent_directionOf {d : ℤ} (h : |d| ≤ 1) : (detent (directionOf d)).sum = d := by
  rw [abs_le] at h
  rw [directionOf]
  split_ifs <;> simp only [detent, List.sum_nil, List.sum_singleton] <;> omega

theorem turn_detents (l : Chooser α) (w : Dialling α) (m : Iteration) :
    Ends (turn l w m) (fun v => v.detents = w.detents ++ detent m.input.direction)
      (fun _ => True) :=
  ends_bind (ends_true _) fun _ _ => rfl

variable {lightAt : ℕ → Except Fault UInt8} {E : Fault → Prop}

theorem dialledTurn_selected {s : RotaryEncoder × Dialling α} {k : Knob} {m : Moment}
    {zero origin : ℤ}
    (hl : ∀ c m, Ends (l.iteration m.input c m.eink)
      (fun t => Counts l c m t ∧ Flashes l lightAt m t) E)
    (h : Selected l n start zero origin s k) (ha : Near k.angle m.angle)
    (hn : m.iteration.eink.house.currentRoom.lightCounter = n) :
    Ends (dialledTurn l s m) (fun t => Selected l n start zero origin t
      (DetentKnob.turn (detents .FOUR0) k m.angle)) E := by
  obtain ⟨htracks,hanswer⟩ := sample_tracks (m := (m.millis,m.angle)) h.tracks ha
  have hdirection : (getDirection (tick (readingAt (m.millis,m.angle)) s.1)).2 =
      directionOf ((DetentKnob.turn (detents .FOUR0) k m.angle).notch-k.notch) :=
    List.singleton_injective hanswer
  rw [dialledTurn, hdirection]
  refine ends_bind (ends_and (turn_placed hl h.placed (by exact hn)) (turn_detents _ _ _))
    fun w hw => ⟨htracks,hw.1,?_⟩
  have hturned := detent_directionOf (turn_near h.tracks.engaged ha)
  rw [hw.2, List.sum_append, h.turned]
  dsimp only [Moment.answered]
  rw [hturned]
  ring

theorem dialledRun_selected {s : RotaryEncoder × Dialling α} {k : Knob} {ms : List Moment}
    {zero origin : ℤ}
    (hl : ∀ c m, Ends (l.iteration m.input c m.eink)
      (fun t => Counts l c m t ∧ Flashes l lightAt m t) E)
    (h : Selected l n start zero origin s k) (ha : (k.angle::ms.map Moment.angle).IsChain Near)
    (hn : ∀ m ∈ ms, m.iteration.eink.house.currentRoom.lightCounter = n) :
    Ends (FaultRun.run (dialledTurn l) s ms) (fun t => Selected l n start zero origin t
      (OutputRuns.run (lookAt .FOUR0) k (looks ms)).1) E := by
  induction ms generalizing s k with
  | nil => exact h
  | cons m ms ih =>
    obtain ⟨hfirst,hrest⟩ := List.isChain_cons_cons.mp ha
    refine ends_bind (dialledTurn_selected hl h hfirst (hn m List.mem_cons_self)) fun t ht => ?_
    exact ih ht hrest fun m hm => hn m (List.mem_cons_of_mem _ hm)

def entered (m : UInt32 × ℤ) (c : α) : RotaryEncoder × Dialling α := (booted .FOUR0 m,{ loop := c })

theorem entered_selected (m : UInt32 × ℤ) (c : α) (hc : l.counter c ≤ n) :
    Selected l n (l.counter c) (knobDir 3 (contacts m.2) - m.2) (bootKnob .FOUR0 m.2).notch
      (entered m c) (bootKnob .FOUR0 m.2) := by
  refine ⟨boot_tracks .FOUR0 m,⟨?_,rfl,by simp [entered]⟩,(sub_self _).symm⟩
  simp only [entered, List.sum_nil, add_zero]
  exact (place_of_lt (by have := UInt8.le_iff_toNat_le.mp hc; omega)).symm

/-- In a room with `n` bulbs the bulb at the counter is given by the detent of the knob,
in the loop of the room page counted from the first bulb and in that of the home page
from the room. -/
theorem knob_selects (lightAt : ℕ → Except Fault UInt8) (m : UInt32 × ℤ) {n : UInt8}
    {ms : List Moment} (ha : (m.2::ms.map Moment.angle).IsChain Near)
    (hn : ∀ m ∈ ms, m.iteration.eink.house.currentRoom.lightCounter = n) :
    (∀ c : Flashing, c.counter = 0 →
      Ends (FaultRun.run (dialledTurn (inRoom lightAt)) (entered m c) ms) (fun s =>
          (s.2.loop.counter.toNat : ℤ) =
            ((knobAfter .FOUR0 m.2 (looks ms)).notch - (bootKnob .FOUR0 m.2).notch) % (n.toNat+1))
        (fun e => ∃ k, lightAt k = .error e)) ∧
    ∀ c : Choosing, c.counter = n →
      Ends (FaultRun.run (dialledTurn (atHome lightAt)) (entered m c) ms) (fun s =>
          (s.2.loop.counter.toNat : ℤ) = (n.toNat +
            ((knobAfter .FOUR0 m.2 (looks ms)).notch - (bootKnob .FOUR0 m.2).notch)) % (n.toNat+1))
        (fun _ => True) := by
  refine ⟨fun c hc => ?_,fun c hc => ?_⟩
  · have hstart := entered_selected (l := inRoom lightAt) m c (n := n)
      (show c.counter ≤ n from hc ▸ UInt8.zero_le)
    refine ends_imp (dialledRun_selected inRoom_counts hstart ha hn) fun s hs => ?_
    have hplace := congrArg (Nat.cast (R := ℤ)) hs.placed.counter
    rw [place_cast (by omega), hs.turned, show (inRoom lightAt).counter c = 0 from hc] at hplace
    rw [show s.2.loop.counter = (inRoom lightAt).counter s.2.loop from rfl, hplace, knobAfter]
    simp
  · have hstart := entered_selected (l := atHome lightAt) m c (n := n)
      (show c.counter ≤ n from hc ▸ UInt8.le_refl _)
    refine ends_imp (dialledRun_selected atHome_counts hstart ha hn) fun s hs => ?_
    have hplace := congrArg (Nat.cast (R := ℤ)) hs.placed.counter
    rw [place_cast (by omega), hs.turned, show (atHome lightAt).counter c = n from hc] at hplace
    rw [show s.2.loop.counter = (atHome lightAt).counter s.2.loop from rfl, hplace, knobAfter]
    push_cast
    rfl

/-- A detent clockwise in a room with three bulbs. -/
theorem one_detent_selects :
    ((2:ℤ)::(([3,4,5,6].map fun a => { angle := a, iteration := { eink := threeBulbs } } :
        List Moment)).map Moment.angle).IsChain Near ∧
      Ends (FaultRun.run (dialledTurn (inRoom fun k => .ok (UInt8.ofNat k)))
        (entered (0,2) { counter := 0, currentLightId := 0 })
        ([3,4,5,6].map fun a => { angle := a, iteration := { eink := threeBulbs } }))
        (fun s => (s.2.loop.counter.toNat : ℤ) = 1)
        (fun e => ∃ k : ℕ, (.ok (UInt8.ofNat k) : Except Fault UInt8) = .error e) := by
  have ha : ((2:ℤ)::(([3,4,5,6].map fun a => { angle := a, iteration := { eink := threeBulbs } } :
      List Moment)).map Moment.angle).IsChain Near := by decide
  exact ⟨ha,(knob_selects (fun k => .ok (UInt8.ofNat k)) (0,2) (n := 3) ha (by simp [threeBulbs])).1
    { counter := 0, currentLightId := 0 } rfl⟩

end THue.KnobSelection
