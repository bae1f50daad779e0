import THue.BehaviorTask

/-!
# The tasks one statement at a time

In `BehaviorTask` a touch of STOP, the end of a START, a closing STOP,
`connect` and `update` are single steps. Here they are taken apart: another
task may run between any two of their statements. Undisturbed, the statements
make up the single step.
-/

set_option autoImplicit false

namespace THue.TaskStatements
open THue.Globals THue.Firebase THue.HueStream THue.Entertainment THue.BehaviorTask
open THue.FaultRun

inductive StopPc where
  | lower
  | unstart
  | unfest
  | renew
  | log
  | free
  deriving DecidableEq, Repr

def StopPc.next : StopPc → Option StopPc
  | .lower => some .unstart
  | .unstart => some .unfest
  | .unfest => some .renew
  | .renew => some .log
  | .log => some .free
  | .free => none

def lowerFlag (id : Fin 20) (s : Shared) : Shared :=
  setBehavior id { s.play.behaviors id with activated := false } s

def raiseFlag (id : Fin 20) (s : Shared) : Shared :=
  setBehavior id { s.play.behaviors id with activated := true } s

def stopStatement (now : UInt32) (id : Fin 20) : StopPc → Shared → Shared
  | .lower, s => lowerFlag id s
  | .unstart, s => { s with play := { s.play with startBehaviorNow := false } }
  | .unfest, s => { s with play := { s.play with fest := false } }
  | .renew, s => { s with log := begin s.log }
  | .log, s => { s with log :=
      firebaseAppendUserAction now (behaviorOff (s.play.behaviors id).name) s.log }
  | .free, s => disconnect s

/-- The mbedtls calls of `connect`; `notify` is the `mbedtls_ssl_close_notify` of a failure. -/
inductive ConnectPc where
  | net
  | defaults
  | setup
  | hostname
  | psk
  | handshake
  | notify
  deriving DecidableEq, Repr

/-- The position of the behavior task: one of `startBehavior` itself, or one
inside a function it called, with the position it returns to. -/
inductive RunPc where
  | run (pc : BehaviorPc)
  | connecting (c : ConnectPc)
  | writing (total : ℕ) (after : BehaviorPc)
  | stopping (id : Fin 20) (p : StopPc) (after : BehaviorPc)
  deriving DecidableEq, Repr

def MBEDTLS_ERR_SSL_WANT_READ : ℤ := -0x6900
def MBEDTLS_ERR_SSL_WANT_WRITE : ℤ := -0x6880

def connectNext (ret : ℤ) : ConnectPc → RunPc
  | .net => .connecting (if ret ≠ 0 then .notify else .defaults)
  | .defaults => .connecting (if ret ≠ 0 then .notify else .setup)
  | .setup => .connecting (if ret ≠ 0 then .notify else .hostname)
  | .hostname => .connecting (if ret ≠ 0 then .notify else .psk)
  | .psk => .connecting (if ret ≠ 0 then .notify else .handshake)
  | .handshake =>
      if ret = MBEDTLS_ERR_SSL_WANT_READ ∨ ret = MBEDTLS_ERR_SSL_WANT_WRITE then
        .connecting .handshake
      else if ret ≠ 0 then .connecting .notify
      else .run .dispatch
  | .notify => .run .closeAgain

/-- The test of `toggleBehavior(lastBehaviorId, 5)`; the argument is read once. -/
def stopTest (after : BehaviorPc) (s : Shared) : RunPc :=
  if (running s).activated then .stopping s.play.lastBehaviorId .lower after else .run after

def enter (s : Shared) : BehaviorPc → Option RunPc
  | .connect => some (.connecting .net)
  | .trainUpdate i now | .trainResend i now => some (.writing 0 (.trainWait i now))
  | .alarmResend now => some (.writing 0 (.alarmWait now))
  | .alarmUpdate i => some (.writing 0 (.alarm (i+1)))
  | .partyUpdate => some (.writing 0 .partySleep)
  | .close => some (stopTest .clear s)
  | .closeAgain => some (stopTest .clearAgain s)
  | _ => none

structure Answer extends Oracle where
  ret : ℤ := 0
  deriving DecidableEq, Repr

def runTurn (o : Answer) : RunPc → Shared → Except Fault (RunPc × Shared)
  | .run pc, s =>
      match enter s pc with
      | some q => .ok (q,s)
      | none => do
          let (q,s) ← behaviorStep o.toOracle pc s
          pure (.run q,s)
  | .connecting c, s => .ok (connectNext o.ret c,tlsCall .connect s)
  | .writing total after, s =>
      -- one `mbedtls_ssl_write` of the loop in `update`
      if total < s.message.entertainment_msg.length then
        .ok (if o.ret < 0 then .run after else .writing (total+o.ret.toNat) after,update s)
      else .ok (.run after,s)
  | .stopping id p after, s =>
      .ok (p.next.elim (.run after) (.stopping id · after),stopStatement o.clock id p s)

/-- The position of the touch task. `base (.startArm k)` stands before the
`firebaseEnd` of a START, `flag k` and `go k` before its two flags. -/
inductive TouchAt where
  | base (pc : TouchPc)
  | flag (k : Fin 20)
  | go (k : Fin 20)
  | stopping (k : Fin 20) (p : StopPc)
  deriving DecidableEq, Repr

def touchTurn (w : FetchInput) : TouchAt → Shared → TouchAt × Shared
  | .base (.startArm k), s => (.flag k,{ s with log := firebaseEnd s.log })
  | .base pc, s => (.base (touchStep w pc s).1,(touchStep w pc s).2)
  | .flag k, s => (.go k,raiseFlag k s)
  | .go _, s => (.base .idle,activateBehavior s)
  | .stopping k p, s => (p.next.elim (.base .idle) (.stopping k),stopStatement w.clock k p s)

structure Tasks where
  shared : Shared := {}
  touch : TouchAt := .base .idle
  firebase : TaskPc := .test .message
  behavior : RunPc := .run .loop

inductive Turn where
  | visit (now : UInt32) (v : Visit)
  | select (now : UInt32) (lightId : ℤ) (isSelected : Bool) (action : Action)
  | start
  | stop
  | refresh
  | touch (w : FetchInput)
  | firebase
  | behavior (o : Answer)

/-- START and STOP are begun by their tests; a touch that finds its task busy is not delivered. -/
def turn (s : Tasks) : Turn → Except Fault Tasks
  | .visit now v =>
      .ok (if s.touch = .base .idle then { s with shared := v.exec now s.shared } else s)
  | .select now lightId isSelected a =>
      if s.touch = .base .idle then do
        let t ← editSelection lightId isSelected s.shared
        pure { s with shared := { t with log := firebaseAppendUserAction now a t.log } }
      else .ok s
  | .start =>
      .ok (if s.touch = .base .idle ∧ (running s.shared).lightCounter ≠ 0 then
        { s with
          shared := { s.shared with
            log := runTaskFields "touchScreenInteraction" "behaviorOn" "toggleBehavior"
              (running s.shared).name s.shared.log }
          touch := .base (.startPush s.shared.play.lastBehaviorId) }
      else s)
  | .stop =>
      .ok (if s.touch = .base .idle ∧ (running s.shared).activated then
        { s with touch := .stopping s.shared.play.lastBehaviorId .lower } else s)
  | .refresh =>
      .ok (if s.touch = .base .idle then { s with touch := .base .fetchIds } else s)
  | .touch w =>
      .ok { s with touch := (touchTurn w s.touch s.shared).1,
                   shared := (touchTurn w s.touch s.shared).2 }
  | .firebase =>
      .ok { s with firebase := (firebaseTask s.firebase s.shared.log).1,
                   shared := { s.shared with
                     log := (firebaseTask s.firebase s.shared.log).2 } }
  | .behavior o => do
      let (pc,shared) ← runTurn o s.behavior s.shared
      pure { s with behavior := pc, shared := shared }

section Statements
variable (now : UInt32) (id j : Fin 20) (p : StopPc) (s : Shared)

@[simp] theorem active_lower : Active (lowerFlag id s).play j ↔ j ≠ id ∧ Active s.play j := by
  by_cases h : j = id
  · subst h
    simp [Active, lowerFlag, setBehavior]
  · simp [Active, lowerFlag, setBehavior, h]

end Statements

/-- A turn outside the closing STOPs; it may be the test of one. -/
structure Plain (pc pc' : RunPc) (s t : Shared) : Prop where
  log : t.log = s.log
  behaviors : t.play.behaviors = s.play.behaviors
  last : t.play.lastBehaviorId = s.play.lastBehaviorId
  outside : ∀ id p after, pc ≠ .stopping id p after
  tested : ∀ id p after, pc' = .stopping id p after → p = .lower ∧
    id = s.play.lastBehaviorId ∧ Active s.play id ∧ (pc = .run .close ∨ pc = .run .closeAgain)

theorem stop_undisturbed (w : FetchInput) (s : Tasks) (h : s.touch = .base .idle) :
    ∃ n, run turn s (.stop :: List.replicate n (.touch w)) =
      .ok { s with shared := toggleOff w.clock s.shared.play.lastBehaviorId s.shared } := by
  obtain ⟨shared,touch,firebase,behavior⟩ := s
  cases h
  by_cases ha : (running shared).activated = true
  · refine ⟨6,?_⟩
    have ha' : (shared.play.behaviors shared.play.lastBehaviorId).activated = true := ha
    simp only [run, turn, ha, and_self, if_true, List.replicate, toggleOff, ha']
    rfl
  · refine ⟨0,?_⟩
    rw [toggleOff_off _ _ _ ha]
    simp [run, turn, ha]
    rfl

theorem enter_close (s : Shared) : enter s .close = some (stopTest .clear s) := rfl

theorem enter_closeAgain (s : Shared) : enter s .closeAgain = some (stopTest .clearAgain s) := rfl

theorem close_undisturbed (o : Answer) (s : Tasks) (again : Bool)
    (h : s.behavior = .run (if again then .closeAgain else .close)) :
    ∃ n, run turn s (List.replicate n (.behavior o)) =
      .ok { s with
        behavior := .run (if again then .clearAgain else .clear)
        shared := toggleOff o.clock s.shared.play.lastBehaviorId s.shared } := by
  obtain ⟨shared,touch,firebase,behavior⟩ := s
  cases h
  by_cases ha : (running shared).activated = true
  · refine ⟨7,?_⟩
    have ha' : (shared.play.behaviors shared.play.lastBehaviorId).activated = true := ha
    cases again <;>
      simp only [Bool.false_eq_true, if_false, if_true, List.replicate, run, turn, runTurn,
        enter_close, enter_closeAgain, stopTest, ha, toggleOff, ha'] <;> rfl
  · refine ⟨1,?_⟩
    rw [toggleOff_off _ _ _ ha]
    cases again <;>
      simp only [Bool.false_eq_true, if_false, if_true, List.replicate, run, turn, runTurn,
        enter_close, enter_closeAgain, stopTest, ha] <;> rfl

theorem arm_undisturbed (w : FetchInput) (s : Tasks) (k : Fin 20)
    (h : s.touch = .base (.startArm k)) :
    run turn s (List.replicate 3 (.touch w)) =
      .ok { s with touch := .base .idle, shared := armBehavior k s.shared } := by
  obtain ⟨shared,touch,firebase,behavior⟩ := s
  cases h
  rfl

end THue.TaskStatements
