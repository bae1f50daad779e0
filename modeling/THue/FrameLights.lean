import THue.BehaviorTask
import Mathlib.Data.List.Nodup

/-!
# The lights a frame addresses

A frame is sized once, when its run begins, and keeps whatever the buffer held
before until a colour loop has written it. It addresses the selected lights as
long as the run keeps its first lights selected, and as long as the frames an
alarm sends before its first colour loop find a buffer that fits.
-/

set_option autoImplicit false

namespace THue.FrameLights
open THue.Globals THue.Firebase THue.HueStream THue.Entertainment THue.BehaviorTask THue.FaultRun
open THue.SlottedBuffer THue.CheckedArray

def slotId (m : Message) (l : ℕ) : ℕ :=
  match slotOf m l with
  | _::i1::i0::_ => bigEndian i1 i0
  | _ => 0

def slotIds (m : Message) : List ℕ :=
  (List.range m.entertainment_num_lights.toNat).map (slotId m)

/-- No identifier twice, and none that is not selected. -/
def Addressed (f : Frame) : Prop :=
  (slotIds f.message).Nodup ∧ ∀ i ∈ slotIds f.message, i ∈ f.selected.map UInt8.toNat

def Fits (m : Message) (b : Behavior) : Prop :=
  (slotIds m).Nodup ∧
    ∀ i ∈ slotIds m, i ∈ (front b.lightIds m.entertainment_num_lights.toNat).map UInt8.toNat

def leftover (n : UInt8) (m : Message) : Message :=
  ⟨resize m.entertainment_msg (16+n.toNat*9),n⟩

/-- Between the sizing of the frame and the closing STOPs. -/
def Streaming : BehaviorPc → Prop
  | .loop | .init | .close | .clear | .closeAgain | .clearAgain => False
  | _ => True

/-- A frame may still be sent. -/
def Framing (p : Play) (pc : BehaviorPc) : Prop := Streaming pc ∧ ¬Resting p pc

def Sending : BehaviorPc → Prop
  | .trainUpdate .. | .trainWait .. | .trainResend .. | .alarmResend _ | .alarmUpdate _
  | .partyUpdate => True
  | _ => False

def Waiting (b : Behavior) : BehaviorPc → Prop
  | .connect | .dispatch => b.behaviorId = timeBehavior
  | .alarmWait _ => True
  | _ => False

def Waitless (b : Behavior) : Prop := toUInt32 (b.delay*10) = 0

/-- A run begins with distinct lights, and an alarm that waits begins with
leftover slots that fit; until the last frame no light is deselected but one
that was added after the start, and the behavior is neither left nor reset. -/
def Settled (s : System) : Move → Prop
  | .behavior _ => s.behavior = .init →
      (running s.shared).selection.Nodup ∧
      ((running s.shared).behaviorId = timeBehavior → Waitless (running s.shared) ∨
        Fits (leftover (running s.shared).lightCounter s.shared.message) (running s.shared))
  | .select _ lightId isSelected _ => Framing s.shared.play s.behavior → isSelected = true →
      s.shared.message.entertainment_num_lights < (running s.shared).lightCounter ∧
      ∀ x ∈ front (running s.shared).lightIds s.shared.message.entertainment_num_lights.toNat,
        (x.toNat:ℤ) ≠ lightId
  | .touch _ => s.touch = .fetchInit → ¬Streaming s.behavior
  | .visit _ v => Opens v s → ¬Streaming s.behavior
  | _ => True

instance streaming_decidable : ∀ pc, Decidable (Streaming pc)
  | .loop | .init | .close | .clear | .closeAgain | .clearAgain => isFalse id
  | .connect | .dispatch | .train _ | .trainColor .. | .trainUpdate .. | .trainWait ..
  | .trainResend .. | .alarmWait _ | .alarmResend _ | .alarm _ | .alarmColor .. | .alarmUpdate _
  | .partyStart | .party | .partyColor _ | .partyUpdate | .partySleep => isTrue trivial

instance fits_decidable (m : Message) (b : Behavior) : Decidable (Fits m b) :=
  inferInstanceAs (Decidable (_ ∧ _))

instance settled_decidable (s : System) : ∀ m, Decidable (Settled s m)
  | .behavior _ =>
      have : Decidable (Waitless (running s.shared)) := inferInstanceAs (Decidable (_ = _))
      inferInstanceAs (Decidable (_ → _))
  | .select .. =>
      have : Decidable (Framing s.shared.play s.behavior) := inferInstanceAs (Decidable (_ ∧ _))
      inferInstanceAs (Decidable (_ → _))
  | .touch _ => inferInstanceAs (Decidable (_ → _))
  | .visit .. => inferInstanceAs (Decidable (_ → _))
  | .start | .stop _ | .refresh | .firebase => isTrue trivial

structure Laid (pc : BehaviorPc) (m : Message) (b : Behavior) : Prop where
  sized : Sized m
  room : m.entertainment_num_lights.toNat ≤ b.lightCounter.toNat
  distinct : (front b.lightIds m.entertainment_num_lights.toNat).Nodup
  coloured : ∀ l, ColourAt pc l → l ≤ 20 ∧ ∀ j (hj : j < 20), j < l →
    j < m.entertainment_num_lights.toNat → slotId m j = (b.lightIds ⟨j,hj⟩).toNat
  sending : Sending pc → Fits m b
  waiting : Waiting b pc → Waitless b ∨ Fits m b

structure Steady (pc : BehaviorPc) (s : Shared) : Prop where
  frames : ∀ f ∈ s.frames, Addressed f
  laid : Framing s.play pc → Laid pc s.message (running s)

section Colours
variable {pc pc' : BehaviorPc} {m : Message} {b c : Behavior} {l : ℕ}

end Colours

section Steps
variable {pc pc' : BehaviorPc} {s t : Shared} {o : Oracle}

end Steps

def started (k : Fin 20) : List Move :=
  [.refresh,.touch {},.touch {},.touch {},.touch {},.touch {},.touch { clock := 1001 },
   .visit 2100 { opens := some k },.select 3200 5 false (selectAction false "Loft"),
   .select 4300 6 false (selectAction false "Loft"),.start,.touch {},.touch {},
   .behavior {},.behavior {},.behavior {},.behavior {}]

end THue.FrameLights
