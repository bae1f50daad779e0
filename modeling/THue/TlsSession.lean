import THue.TaskStatements

/-!
# The TLS session of a behavior run

A session opens with `initEntertainmentMode` and is closed by the STOP that
finds the behavior activated. STOP acts from the touch task at any time; it is
harmless only where the run goes to its end without another frame, and a START
is harmless only outside a session or while its behavior is still activated.
-/

set_option autoImplicit false

namespace THue.TlsSession
open THue.Globals THue.Firebase THue.HueStream THue.Entertainment THue.BehaviorTask
open THue.TaskStatements THue.FaultRun

/-- The context a TLS call may meet. -/
def Fits : TlsCall × TlsContext → Prop
  | (.init,c) => c ≠ .live
  | (.connect,c) | (.write,c) | (.free,c) => c = .live

def InSession : RunPc → Prop
  | .run .loop | .run .init | .run .clear | .run .clearAgain => False
  | _ => True

/-- From here the run reaches its end without another call of `connect` or `update`. -/
def Rests (p : Play) : RunPc → Prop
  | .run pc => Resting p pc
  | _ => False

def Closing : RunPc → Prop
  | .stopping .. => True
  | _ => False

/-- A STOP finds its behavior activated only in a session that no other STOP
is closing, and comes to `disconnect` when the run makes no further call. A
START sets its flags outside a session or while its behavior is activated.
Another behavior's page and a refresh come when nothing runs and nothing is
activated. -/
def Timely (s : Tasks) : Turn → Prop
  | .stop => s.touch = .base .idle → Active s.shared.play s.shared.play.lastBehaviorId →
      InSession s.behavior ∧ ¬Closing s.behavior
  | .behavior _ => s.behavior ∈ [.run .close,.run .closeAgain] →
      Active s.shared.play s.shared.play.lastBehaviorId → ∀ k, s.touch ≠ .stopping k .lower
  | .touch _ =>
      (∀ k, s.touch = .stopping k .free → InSession s.behavior →
        Rests s.shared.play s.behavior) ∧
      (∀ k, s.touch = .flag k →
        Active s.shared.play k ∨ s.behavior ∈ [.run .loop,.run .init,.run .clearAgain]) ∧
      (∀ k, s.touch = .go k → s.behavior = .run .loop → Active s.shared.play k) ∧
      (s.touch = .base .fetchInit → s.behavior = .run .loop ∧ ∀ k, ¬Active s.shared.play k)
  | .visit _ v => (∃ k ∈ v.opens, k ≠ s.shared.play.lastBehaviorId) →
      s.behavior = .run .loop ∧ ∀ k, ¬Active s.shared.play k
  | _ => True

instance inSession_decidable : ∀ pc, Decidable (InSession pc)
  | .run .loop | .run .init | .run .clear | .run .clearAgain => isFalse id
  | .connecting _ | .writing .. | .stopping .. => isTrue trivial
  | .run .connect | .run .dispatch | .run (.train _) | .run (.trainColor ..)
  | .run (.trainUpdate ..) | .run (.trainWait ..) | .run (.trainResend ..) | .run (.alarmWait _)
  | .run (.alarmResend _) | .run (.alarm _) | .run (.alarmColor ..) | .run (.alarmUpdate _)
  | .run .partyStart | .run .party | .run (.partyColor _) | .run .partyUpdate
  | .run .partySleep | .run .close | .run .closeAgain => isTrue trivial

instance rests_decidable (p : Play) : ∀ pc, Decidable (Rests p pc)
  | .run pc => inferInstanceAs (Decidable (Resting p pc))
  | .connecting _ | .writing .. | .stopping .. => isFalse id

instance closing_decidable : ∀ pc, Decidable (Closing pc)
  | .stopping .. => isTrue trivial
  | .run _ | .connecting _ | .writing .. => isFalse id

instance timely_decidable (s : Tasks) : ∀ m, Decidable (Timely s m)
  | .stop | .behavior _ => inferInstanceAs (Decidable (_ → _ → _))
  | .touch _ =>
      have : Decidable (∀ k, s.touch = .stopping k .free → InSession s.behavior →
          Rests s.shared.play s.behavior) :=
        inferInstanceAs (Decidable (∀ _ : Fin 20, _))
      inferInstanceAs (Decidable (_ ∧ _))
  | .visit .. => inferInstanceAs (Decidable (_ → _))
  | .select .. | .start | .refresh | .firebase => isTrue trivial

/-- A STOP that has lowered the flag and not yet freed the context. -/
def Pending (touch : TouchAt) (pc : RunPc) : Prop :=
  (∃ k p, touch = .stopping k p ∧ p ≠ .lower) ∨
    ∃ id p after, pc = .stopping id p after ∧ p ≠ .lower

/-- A STOP that has found the flag set and not yet lowered it. -/
def Tested (touch : TouchAt) (pc : RunPc) : Prop :=
  (∃ k, touch = .stopping k .lower) ∨ ∃ id after, pc = .stopping id .lower after

/-- The context is live while a session's behavior is activated and while a
STOP that lowered the flag is under way. -/
structure Kept (touch : TouchAt) (pc : RunPc) (s : Shared) : Prop where
  met : ∀ x ∈ s.tlsCalls, Fits x
  balance : made .init s = made .free s + if s.tls_context = .live then 1 else 0
  only : ∀ j, Active s.play j → j = s.play.lastBehaviorId
  live_iff : s.tls_context = .live ↔
    (Active s.play s.play.lastBehaviorId ∧ InSession pc) ∨ Pending touch pc
  quiet : Pending touch pc → ¬Active s.play s.play.lastBehaviorId
  tested : Tested touch pc → Active s.play s.play.lastBehaviorId ∧ InSession pc
  alone : (∃ k p, touch = .stopping k p) → ¬Closing pc
  owner : ∀ id p after, pc = .stopping id p after → id = s.play.lastBehaviorId ∧
    (after = .clear ∨ after = .clearAgain)
  resting : InSession pc → ¬Active s.play s.play.lastBehaviorId → ¬Pending touch pc →
    Rests s.play pc
  armed : pc = .run .init ∨ pc = .run .loop ∧ s.play.startBehaviorNow = true →
    Active s.play s.play.lastBehaviorId
  cleared : pc = .run .clear → ¬Active s.play s.play.lastBehaviorId
  returns : ∀ total after, pc = .writing total after → InSession (.run after)

/-- The shared states differ in nothing but calls of `connect` and `update` on
a live context, as far as the session is concerned. -/
structure Alike (s t : Shared) : Prop where
  met : (∀ x ∈ s.tlsCalls, Fits x) → ∀ x ∈ t.tlsCalls, Fits x
  inits : made .init t = made .init s
  frees : made .free t = made .free s
  context : t.tls_context = s.tls_context
  last : t.play.lastBehaviorId = s.play.lastBehaviorId
  active : ∀ j, Active t.play j ↔ Active s.play j

section Steps
variable {touch touch' : TouchAt} {pc pc' : RunPc} {s t : Shared}

section Inside
variable {o : Answer} {pc q : BehaviorPc}

end Inside

end Steps

/-- A refresh, a light for the behavior on screen, its START, and its run up to
the sixth call of `connect`. -/
def started (k : Fin 20) : List Turn :=
  [.refresh,.touch {},.touch {},.touch {},.touch {},.touch {},.touch { clock := 1001 },
   .visit 2100 { opens := some k },.select 3200 5 false (selectAction false "Loft"),.start,
   .touch {},.touch {},.touch {},.touch {}] ++ List.replicate 9 (.behavior {})

end THue.TlsSession
