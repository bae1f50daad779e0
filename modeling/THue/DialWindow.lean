import THue.DialCycle
import THue.LogThrottle
import THue.PageDrawing

/-!
# The window of the dial press

For ten seconds after a turn a press opens the chosen bulb. A flag and the
clock reading of the last turn stand for the window; both are compared here
with the iterations of the loop, in true time.
-/

set_option autoImplicit false

namespace THue.DialWindow
open THue.Globals THue.CheckedArray THue.FaultRun THue.Bridge THue.Pages THue.Encoder
open THue.DialTargets THue.DialCycle THue.WrappingClock
open THue.LogThrottle (millis)

/-- An iteration at a true time: the dials, and the state the display task left. -/
structure Sample where
  time : ℕ
  input : Input := {}
  eink : Eink := {}

def Sample.clocked (m : Sample) : Input := { m.input with millis := millis m.time }

/-- The variables of the loop and its earlier iterations, the latest one first. -/
structure Windowed where
  loop : Choosing
  past : List Sample := []

def next (lightAt : ℕ → Except Fault UInt8) (w : Windowed) (m : Sample) :
    Except Fault Windowed := do
  let t ← chooseAndAlterLightInRoomAt lightAt m.clocked w.loop m.eink
  pure { loop := t.loop, past := m::w.past }

def Turned (m : Sample) : Prop := m.input.direction ≠ .none

/-- The last iteration that saw a turn, and the iterations after it. -/
structure LastTurn (past newer : List Sample) (t : Sample) : Prop where
  split : ∃ older, past = newer ++ t::older
  turned : Turned t
  still : ∀ j ∈ newer, ¬Turned j

/-- At most ten seconds after the last turn, with the UI level never 1 since. -/
def Open (past : List Sample) (m : Sample) : Prop :=
  ∃ newer t, LastTurn past newer t ∧ m.time - t.time ≤ 10000 ∧
    ∀ j ∈ m::newer, j.eink.uiLevel ≠ 1

/-- The press of an iteration opens the light. -/
def Presses (w : Windowed) (m : Sample) : Prop :=
  m.input.pressed = true ∧ w.loop.counter ≠ m.eink.house.currentRoom.lightCounter ∧ Open w.past m

/-- The call of `drawLight` is guarded by the window, and the page it draws is
on screen after the iteration. -/
def Exact (lightAt : ℕ → Except Fault UInt8) (w : Windowed) (m : Sample) : Prop :=
  (OpensLight m.clocked (waitTurn m.clocked.millis m.eink.uiLevel w.loop) m.eink ↔ Presses w m) ∧
    Ends (chooseAndAlterLightInRoomAt lightAt m.clocked w.loop m.eink)
      (fun t => t.eink.nav.currentScreenType = .light ↔ Presses w m) (fun _ => True)

/-- The loop runs, time does not run backwards, and the clock does not come
round between two iterations nor since the last turn. -/
def Timely (w : Windowed) (m : Sample) : Prop :=
  Chooses m.eink ∧ (∀ j ∈ w.past.head?, j.time ≤ m.time ∧ m.time - j.time < 2^32) ∧
    ∀ newer t, LastTurn w.past newer t → m.time - t.time < 2^32

def Alive (past : List Sample) : Prop :=
  ∃ newer t, LastTurn past newer t ∧
    ∀ j ∈ newer, j.eink.uiLevel ≠ 1 ∧ j.time - t.time ≤ 10000

structure Held (w : Windowed) : Prop where
  flag : w.loop.dialTurned = true ↔ Alive w.past
  stamp : w.loop.dialTurned = true → ∀ newer t, LastTurn w.past newer t →
    w.loop.elapsedMillis = millis t.time
  ordered : w.past.Pairwise fun j k => k.time ≤ j.time

/-- What an iteration leaves: the flag and the timestamp, and the light page where it was opened. -/
structure Left (i : Input) (c : Choosing) (s : Eink) (t : Turn Choosing) : Prop where
  turned : i.direction ≠ .none → t.loop.dialTurned = true ∧ t.loop.elapsedMillis = i.millis
  still : i.direction = .none →
    t.loop.dialTurned = (waitTurn i.millis s.uiLevel c).dialTurned ∧
      t.loop.elapsedMillis = (waitTurn i.millis s.uiLevel c).elapsedMillis
  page : Chooses s → (t.eink.nav.currentScreenType = .light ↔
    OpensLight i (waitTurn i.millis s.uiLevel c) s)

theorem drawLight_light (a : Answers) (id : ℤ) (s : Eink) :
    Ends (drawLight a id s) (fun t => t.nav.currentScreenType = .light) (fun _ => True) :=
  ends_mono (PageDrawing.drawLight_shown a id s) (fun _ h => h.type) fun _ _ => trivial

theorem openChosen_light (i : Input) (c : Choosing) (s : Eink) :
    Ends (openChosen i c s)
      (fun o => Chooses s → (o.nav.currentScreenType = .light ↔ OpensLight i c s))
      (fun _ => True) := by
  rw [openChosen]
  split
  · next ho =>
    exact ends_imp (drawLight_light _ _ _) fun _ h _ => ⟨fun _ => ho,fun _ => h⟩
  · next ho =>
    intro hc
    refine ⟨fun h => ?_,fun h => absurd h ho⟩
    obtain hc | hc := hc <;> rw [hc] at h <;> cases h

theorem chooseBulbAt_left (lightAt : ℕ → Except Fault UInt8) (i : Input) (c : Choosing) (s : Eink) :
    Ends (chooseBulbAt lightAt i c s) (fun t => t.eink.nav = s.nav ∧
      (i.direction ≠ .none → t.loop.dialTurned = true ∧ t.loop.elapsedMillis = i.millis) ∧
      (i.direction = .none → t.loop = c)) (fun _ => True) := by
  rw [chooseBulbAt]
  split
  · next hd => exact ⟨rfl,fun h => absurd hd h,fun _ => rfl⟩
  · next hd =>
    refine ends_bind (ends_true _) fun id _ => ?_
    split
    · exact ⟨rfl,fun _ => ⟨rfl,rfl⟩,fun h => absurd h hd⟩
    · exact ends_bind (setCurrentLight_dialled id s) fun t ht =>
        ⟨ht.nav,fun _ => ⟨rfl,rfl⟩,fun h => absurd h hd⟩

theorem iteration_left (lightAt : ℕ → Except Fault UInt8) (i : Input) (c : Choosing) (s : Eink) :
    Ends (chooseAndAlterLightInRoomAt lightAt i c s) (Left i c s) (fun _ => True) := by
  refine ends_bind (openChosen_light i _ s) fun o ho => ?_
  obtain ⟨⟨on,hloop⟩,hnav,-⟩ := chosen_prepared i (waitTurn i.millis s.uiLevel c) o
  dsimp only
  generalize (switchChosen i _ o).andThen (brightenChosen i) = t at *
  refine ends_bind (chooseBulbAt_left lightAt i t.loop t.eink) fun u ⟨hunav,hturn,hstill⟩ => ?_
  refine ⟨hturn,fun hd => ?_,fun hc => ?_⟩
  · show u.loop.dialTurned = _ ∧ u.loop.elapsedMillis = _
    rw [hstill hd, hloop]
    exact ⟨rfl,rfl⟩
  · show u.eink.nav.currentScreenType = .light ↔ _
    rw [hunav, hnav]
    exact ho hc

def Early (w : Windowed) (m : Sample) : Prop :=
  Chooses m.eink ∧ (∀ j ∈ w.past.head?, j.time ≤ m.time) ∧ m.time < 2^32

instance early_decidable (w : Windowed) (m : Sample) : Decidable (Early w m) :=
  inferInstanceAs (Decidable (_ ∧ _ ∧ _))

def home : Eink :=
  { house := { currentRoom := { lightCounter := 3 } }, nav := { currentScreenType := .home } }

end THue.DialWindow
