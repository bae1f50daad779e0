import THue.TaskStatements
import THue.FrameLights

/-!
# Which behavior a run belongs to

Nothing but `lastBehaviorId` tells the behavior task which behavior it runs,
and the message keeps its slots from run to run. The frames of a run started
for `k` show the lights and colours of `k` as long as the page of `k` is the
last behavior page opened wherever the task reads one, and as long as an alarm
sends nothing before its first colour loop, or finds its own slots there.
-/

set_option autoImplicit false

namespace THue.RunBinding
open THue.Globals THue.Firebase THue.HueStream THue.Entertainment THue.BehaviorTask
open THue.TaskStatements THue.FrameLights THue.FaultRun

/-- The colour of an entry in the 16-bit channels of a frame. -/
def channels (c : RGBCommand) : ℕ × ℕ × ℕ := (257*c.r.toNat,257*c.g.toNat,257*c.b.toNat)

/-- Slot `l` addresses light `l` of the behavior, in the colour of one of its
entries. A party has no entries and draws its colours at random. -/
def LightOf (b : Behavior) (l : ℕ) (h : HueLight) : Prop :=
  (∃ hl : l < 20, h.id = (b.lightIds ⟨l,hl⟩).toNat) ∧
    (b.behaviorId = transitionBehavior ∨ ∃ i, (h.red,h.green,h.blue) = channels (b.entries i))

/-- The frame decodes to the lights of the behavior. -/
def OwnFrame (b : Behavior) (m : Message) : Prop :=
  ∃ ls ∈ decode m.entertainment_msg, ls.length = b.lightCounter.toNat ∧
    ∀ l : Fin ls.length, LightOf b l.val (ls.get l)

instance lightOf_decidable (b : Behavior) (l : ℕ) (h : HueLight) : Decidable (LightOf b l h) :=
  inferInstanceAs (Decidable (_ ∧ _))

instance ownFrame_decidable (b : Behavior) (m : Message) : Decidable (OwnFrame b m) :=
  inferInstanceAs (Decidable (∃ ls ∈ decode m.entertainment_msg, _))

/-- The first `n` slots show lights of the behavior. -/
def Filled (b : Behavior) (m : Message) (n : ℕ) : Prop :=
  ∀ l < n, ∃ c : SetCall, LightOf b l c.light ∧ slotOf m l = c.bytes

structure Framed (b : Behavior) (m : Message) : Prop where
  sized : Sized m
  head : headerOf m = header
  lights : m.entertainment_num_lights = b.lightCounter

/-- The turns that may fall into a run: pages, selections and the other tasks,
but no further START, STOP or refresh. -/
def Navigates : Turn → Prop
  | .start | .stop | .refresh => False
  | _ => True

def Between := { m : Turn // Navigates m }

/-- The tasks, whether START has set its last flag, and the shared state in
which the run that follows called `initEntertainmentMode`. -/
structure Watch where
  tasks : Tasks
  started : Bool := false
  opened : Option Shared := none

def inits (s : Tasks) : Turn → Bool
  | .behavior _ => s.behavior = .run .init
  | _ => false

/-- The message as `initEntertainmentMode` leaves it: sized, with the slots it had. -/
def begun (n : UInt8) (m : Message) : Message :=
  ⟨SlottedBuffer.overwrite (resize m.entertainment_msg (16+n.toNat*9)) 0 header,n⟩

/-- The frame is sized on the page of `k`, and an alarm that waits finds its
own lights in the slots. -/
def OpensOwn (k : Fin 20) (s : Shared) : Prop :=
  s.play.lastBehaviorId = k ∧ ((running s).behaviorId = timeBehavior →
    Waitless (running s) ∨ OwnFrame (running s) (begun (running s).lightCounter s.message))

/-- The page of `k` is the last behavior page opened where the run reads it. -/
def ReadsOwn (k : Fin 20) (s : Shared) : RunPc → Prop
  | .run .dispatch | .run (.trainColor ..) | .run (.alarmColor ..) | .run (.partyColor _) =>
      s.play.lastBehaviorId = k
  | .run (.alarmWait _) => Waitless (s.play.behaviors k) → s.play.lastBehaviorId = k
  | .run .close => Active s.play s.play.lastBehaviorId → s.play.lastBehaviorId = k
  | .run .closeAgain => Active s.play s.play.lastBehaviorId ∨ Active s.play k →
      s.play.lastBehaviorId = k
  | _ => True

/-- A run is opened and read on the page of `k`, and no light of `k` is
selected or deselected until it ends. -/
def OwnPage (k : Fin 20) (w : Watch) (m : Between) : Prop :=
  match m.val with
  | .behavior _ =>
      (w.opened = none → w.started = true → w.tasks.behavior = .run .init →
        OpensOwn k w.tasks.shared) ∧
      (w.opened.isSome = true → ReadsOwn k w.tasks.shared w.tasks.behavior)
  | .select .. => w.opened.isSome = true → w.tasks.shared.play.lastBehaviorId ≠ k
  | _ => True

instance waitless_decidable (b : Behavior) : Decidable (Waitless b) :=
  inferInstanceAs (Decidable (_ = _))

instance opensOwn_decidable (k : Fin 20) (s : Shared) : Decidable (OpensOwn k s) :=
  inferInstanceAs (Decidable (_ ∧ _))

instance readsOwn_decidable (k : Fin 20) (s : Shared) : ∀ pc, Decidable (ReadsOwn k s pc)
  | .run .dispatch | .run (.trainColor ..) | .run (.alarmColor ..) | .run (.partyColor _) =>
      inferInstanceAs (Decidable (_ = _))
  | .run (.alarmWait _) | .run .close | .run .closeAgain => inferInstanceAs (Decidable (_ → _))
  | .run .loop | .run .init | .run .connect | .run (.train _) | .run (.trainUpdate ..)
  | .run (.trainWait ..) | .run (.trainResend ..) | .run (.alarmResend _) | .run (.alarm _)
  | .run (.alarmUpdate _) | .run .partyStart | .run .party | .run .partyUpdate
  | .run .partySleep | .run .clear | .run .clearAgain | .connecting _ | .writing ..
  | .stopping .. => isTrue trivial

instance ownPage_decidable (k : Fin 20) (w : Watch) : ∀ m, Decidable (OwnPage k w m)
  | ⟨.behavior _,_⟩ => inferInstanceAs (Decidable (_ ∧ _))
  | ⟨.select ..,_⟩ => inferInstanceAs (Decidable (_ → _))
  | ⟨.visit ..,_⟩ | ⟨.touch _,_⟩ | ⟨.firebase,_⟩ | ⟨.start,_⟩ | ⟨.stop,_⟩ | ⟨.refresh,_⟩ =>
      isTrue trivial

/-- What the message must show where the run stands. -/
def Shows (b : Behavior) (m : Message) : BehaviorPc → Prop
  | .trainColor _ l _ | .alarmColor _ l => Filled b m l
  | .partyColor l => b.behaviorId = transitionBehavior ∧ Filled b m l
  | .trainUpdate .. | .trainWait .. | .trainResend .. | .alarmResend _ | .alarmUpdate _ =>
      OwnFrame b m
  | .partyUpdate => b.behaviorId = transitionBehavior ∧ OwnFrame b m
  | .partyStart | .party | .partySleep => b.behaviorId = transitionBehavior
  | .connect | .dispatch => b.behaviorId = timeBehavior → Waitless b ∨ OwnFrame b m
  | .alarmWait _ => Waitless b ∨ OwnFrame b m
  | .loop | .init | .train _ | .alarm _ | .close | .clear | .closeAgain | .clearAgain => True

def Needs (b : Behavior) (m : Message) : RunPc → Prop
  | .run pc => Shows b m pc
  | .connecting _ => b.behaviorId = timeBehavior → Waitless b ∨ OwnFrame b m
  | .writing _ after => OwnFrame b m ∧ Shows b m after
  | .stopping .. => True

structure Underway (k : Fin 20) (s : Shared) (pc : RunPc) (u : Shared) : Prop where
  frames : ∀ f ∈ u.frames.drop s.frames.length, OwnFrame (s.play.behaviors k) f.message
  longer : s.frames.length ≤ u.frames.length
  others : ∀ j, j ≠ k → (Active u.play j ↔ Active s.play j)
  same : ∃ a, u.play.behaviors k = { s.play.behaviors k with activated := a }
  framed : Framed (s.play.behaviors k) u.message
  needs : Needs (s.play.behaviors k) u.message pc
  closing : ∀ id p after, pc = .stopping id p after → id = k ∧
    (after = .clear ∨ after = .clearAgain) ∧ (p ≠ .lower → ¬Active u.play k)
  ended : pc ∈ [.run .loop,.run .clearAgain] → ¬Active u.play k
  stays : pc ≠ .run .init ∧ (pc = .run .loop → u.play.startBehaviorNow = false)
  returns : ∀ total after, pc = .writing total after → after ∉ [.loop,.init,.clearAgain]

section Turns
variable {k : Fin 20} {s u v : Shared} {pc pc' : RunPc}

section Inside
variable {o : Answer} {pc q : BehaviorPc}

end Inside

end Turns

def Starting (k : Fin 20) (t : TouchAt) : Prop :=
  t = .base (.startPush k) ∨ t = .base (.startArm k) ∨ t = .flag k ∨ t = .go k

structure Held (k : Fin 20) (w : Watch) : Prop where
  touch : w.tasks.touch = .base .idle ∨ Starting k w.tasks.touch ∧ w.started = false
  opened : ∀ s ∈ w.opened, w.started = true ∧ Underway k s w.tasks.behavior w.tasks.shared

def lit : Tasks where
  shared := { play := { initBehaviors {} {} with
    behaviors := fun k => { (initBehaviors {} {}).behaviors k with
      lightIds := fun _ => UInt8.ofNat (k.val+5), lightCounter := 1 } } }

def sent : Between := ⟨.behavior { ret := 25 },trivial⟩
def opened (k : Fin 20) : Between := ⟨.visit 0 { opens := some k },trivial⟩

end THue.RunBinding
