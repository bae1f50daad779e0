import THue.TaskStatements

/-!
# The lifetime of the Firebase handle

`firebaseEnd` frees the handle when a behavior is started and inside a
refresh; `begin` makes a new one when a behavior is stopped and later in that
refresh. The handle can therefore be null only while a behavior is activated
or a START, a STOP or a refresh stands between the two calls.
-/

set_option autoImplicit false

namespace THue.HandleLifetime
open THue.Globals THue.Firebase THue.Entertainment THue.BehaviorTask THue.TaskStatements
open THue.FaultRun

/-- No dereference so far met a null handle. -/
def NeverNull (s : Tasks) : Prop := Handle.null ∉ s.shared.log.derefs

/-- A STOP whose test was passed has not come past its `begin`. -/
def BeforeBegin : StopPc → Prop
  | .lower | .unstart | .unfest | .renew => True
  | .log | .free => False

/-- The touch task stands between `firebaseEnd` and `activated = true` of a
START, before `begin` of a STOP, or between the two calls of a refresh. -/
def TouchHolds : TouchAt → Prop
  | .flag _ | .base .fetchBegin => True
  | .stopping _ p => BeforeBegin p
  | _ => False

def RunHolds : RunPc → Prop
  | .stopping _ p _ => BeforeBegin p
  | _ => False

def Freed (s : Tasks) : Prop :=
  (∃ k, Active s.shared.play k) ∨ TouchHolds s.touch ∨ RunHolds s.behavior

def TouchUses : TouchAt → Prop
  | .base (.startPush _) | .base (.startArm _) | .base .fetchIds | .base .fetchEnd
  | .base .fetchLevel => True
  | _ => False

def Uses (s : Tasks) : Turn → Prop
  | .touch _ => TouchUses s.touch
  | .firebase => ∃ k, s.firebase = .push k
  | _ => False

/-- No push, START or refresh reaches the handle while it may be freed. -/
def Undisturbed (s : Tasks) (m : Turn) : Prop := Uses s m → ¬Freed s

/-- The tests of STOP that find the behavior activated come while no other
STOP stands before its `begin`. -/
def Alone (s : Tasks) : Turn → Prop
  | .stop => s.touch = .base .idle → Active s.shared.play s.shared.play.lastBehaviorId →
      ¬RunHolds s.behavior
  | .behavior _ => s.behavior ∈ [.run .close,.run .closeAgain] →
      Active s.shared.play s.shared.play.lastBehaviorId → ¬TouchHolds s.touch
  | _ => True

instance beforeBegin_decidable : ∀ p, Decidable (BeforeBegin p)
  | .lower | .unstart | .unfest | .renew => isTrue trivial
  | .log | .free => isFalse id

instance touchHolds_decidable : ∀ t, Decidable (TouchHolds t)
  | .flag _ | .base .fetchBegin => isTrue trivial
  | .stopping _ p => inferInstanceAs (Decidable (BeforeBegin p))
  | .go _ | .base .idle | .base (.startPush _) | .base (.startArm _) | .base .fetchIds
  | .base .fetchEnd | .base .fetchInit | .base .fetchLevel | .base .fetchHome => isFalse id

instance runHolds_decidable : ∀ pc, Decidable (RunHolds pc)
  | .stopping _ p _ => inferInstanceAs (Decidable (BeforeBegin p))
  | .run _ | .connecting _ | .writing .. => isFalse id

instance freed_decidable (s : Tasks) : Decidable (Freed s) :=
  inferInstanceAs (Decidable (_ ∨ _ ∨ _))

instance touchUses_decidable : ∀ t, Decidable (TouchUses t)
  | .base (.startPush _) | .base (.startArm _) | .base .fetchIds | .base .fetchEnd
  | .base .fetchLevel => isTrue trivial
  | .base .idle | .base .fetchBegin | .base .fetchInit | .base .fetchHome | .flag _ | .go _
  | .stopping .. => isFalse id

instance uses_decidable (s : Tasks) : ∀ m, Decidable (Uses s m)
  | .touch _ => inferInstanceAs (Decidable (TouchUses s.touch))
  | .firebase =>
      match h : s.firebase with
      | .push k => isTrue ⟨k,h⟩
      | .test _ | .reset _ => isFalse (by rintro ⟨k,hk⟩; rw [h] at hk; cases hk)
  | .visit .. | .select .. | .start | .stop | .refresh | .behavior _ => isFalse id

instance undisturbed_decidable (s : Tasks) (m : Turn) : Decidable (Undisturbed s m) :=
  inferInstanceAs (Decidable (_ → _))

instance alone_decidable (s : Tasks) : ∀ m, Decidable (Alone s m)
  | .stop | .behavior _ => inferInstanceAs (Decidable (_ → _ → _))
  | .visit .. | .select .. | .start | .refresh | .touch _ | .firebase => isTrue trivial

/-- The turn dereferences a live handle, if any, and leaves it as it is. -/
structure Spared (s t : Log) : Prop where
  fbdo : t.fbdo = s.fbdo
  derefs : ∀ x ∈ t.derefs, x ∈ s.derefs ∨ x = .live

structure Sound (s : Tasks) : Prop where
  clean : NeverNull s
  null_freed : s.shared.log.fbdo = .null → Freed s
  fetching : s.touch = .base .fetchInit → s.shared.log.fbdo = .live

/-- What the handle being null means while no two STOPs overlap. -/
structure Exact (s : Tasks) : Prop where
  clean : NeverNull s
  null_iff : s.shared.log.fbdo = .null ↔ Freed s
  single : ∀ j k, Active s.shared.play j → Active s.shared.play k → j = k
  stopped : ∀ id p, s.touch = .stopping id p ∨ (∃ after, s.behavior = .stopping id p after) →
    BeforeBegin p → ∀ j, Active s.shared.play j → p = .lower ∧ j = id
  apart : TouchHolds s.touch → ¬RunHolds s.behavior
  quiet : (∃ k, s.touch = .flag k) ∨ s.touch = .base .fetchBegin ∨ s.touch = .base .fetchInit →
    ∀ j, ¬Active s.shared.play j

end THue.HandleLifetime
