import THue.FaultRun
import Mathlib.Data.List.Perm.Basic
import Mathlib.Data.Int.Notation

/-!
# The user action log

The producers write the `temp*` globals and raise one of three flags; the
consumer `firebaseTask` builds the JSON from the same globals, pushes it and
lowers the flag. The record keeps, beside the globals, which actions were
accepted and pushed and what `fbdo` was at each dereference.
-/

set_option autoImplicit false

namespace THue.Firebase

inductive Handle where
  | null
  | live
  deriving DecidableEq, Repr

inductive Kind where
  | message
  | withWhat
  | withWhatAndValue
  deriving DecidableEq, Repr

inductive Action where
  | message (interaction action context : String)
  | withWhat (interaction action context what : String)
  | withWhatAndValue (interaction action context what : String) (value : ℤ)
  deriving DecidableEq, Repr

def Action.kind : Action → Kind
  | .message .. => .message
  | .withWhat .. => .withWhat
  | .withWhatAndValue .. => .withWhatAndValue

structure Log where
  tempInteraction : String := ""
  tempAction : String := ""
  tempContext : String := ""
  tempWhat : String := ""
  tempValue : ℤ := 0
  sendMessage : Bool := false
  sendMessageWithWhat : Bool := false
  sendMessageWithWhatAndValue : Bool := false
  timeSinceLastLog : UInt32 := 0
  fbdo : Handle := .live
  accepted : List Action := []
  pushed : List Action := []
  derefs : List Handle := []
  deriving DecidableEq

def drawHomeAction : Action := .message "touchScreenInteraction" "navigate" "drawHome"

def flag (s : Log) : Kind → Bool
  | .message => s.sendMessage
  | .withWhat => s.sendMessageWithWhat
  | .withWhatAndValue => s.sendMessageWithWhatAndValue

def setFlag (s : Log) (b : Bool) : Kind → Log
  | .message => { s with sendMessage := b }
  | .withWhat => { s with sendMessageWithWhat := b }
  | .withWhatAndValue => { s with sendMessageWithWhatAndValue := b }

def writeFields (s : Log) : Action → Log
  | .message i a c => { s with tempInteraction := i, tempAction := a, tempContext := c }
  | .withWhat i a c w =>
      { s with tempInteraction := i, tempAction := a, tempContext := c, tempWhat := w }
  | .withWhatAndValue i a c w v =>
      { s with tempInteraction := i, tempAction := a, tempContext := c, tempWhat := w,
               tempValue := v }

def build (s : Log) : Kind → Action
  | .message => .message s.tempInteraction s.tempAction s.tempContext
  | .withWhat => .withWhat s.tempInteraction s.tempAction s.tempContext s.tempWhat
  | .withWhatAndValue =>
      .withWhatAndValue s.tempInteraction s.tempAction s.tempContext s.tempWhat s.tempValue

/-- The throttle: 32-bit arithmetic on the timestamp. -/
def passes (now : UInt32) (s : Log) : Bool := now > s.timeSinceLastLog + 1000

def firebaseAppendUserAction (now : UInt32) (a : Action) (s : Log) : Log :=
  if passes now s then
    setFlag (writeFields { s with timeSinceLastLog := now, accepted := s.accepted ++ [a] } a)
      true a.kind
  else s

def deref (s : Log) : Log := { s with derefs := s.derefs ++ [s.fbdo] }

/-- `Firebase.pushJSON(*fbdo, path, json)` of the three task functions. -/
def pushJSON (k : Kind) (s : Log) : Log :=
  deref { s with pushed := s.pushed ++ [build s k] }

def taskFireBaseAppendUserAction (s : Log) : Log := pushJSON .message s

def taskFireBaseAppendUserActionWithWhat (s : Log) : Log := pushJSON .withWhat s

def taskFireBaseAppendUserActionWithWhatAndValue (s : Log) : Log := pushJSON .withWhatAndValue s

def taskOf : Kind → Log → Log
  | .message => taskFireBaseAppendUserAction
  | .withWhat => taskFireBaseAppendUserActionWithWhat
  | .withWhatAndValue => taskFireBaseAppendUserActionWithWhatAndValue

@[simp] theorem taskOf_eq (k : Kind) (s : Log) : taskOf k s = pushJSON k s := by
  cases k <;> rfl

/-- The producer part of `runTaskFireBaseAppendUserActionWithWhat`: no
throttle and no flag. The push that follows is `taskFireBaseAppendUserActionWithWhat`. -/
def runTaskFields (interaction action context what : String) (s : Log) : Log :=
  writeFields
    { s with accepted := s.accepted ++ [.withWhat interaction action context what] }
    (.withWhat interaction action context what)

def begin (s : Log) : Log := { s with fbdo := .live }

/-- `endStream(*fbdo)` and `removeStreamCallback(*fbdo)` before the delete. -/
def firebaseEnd (s : Log) : Log := { deref (deref s) with fbdo := .null }

/-- Where `firebaseTask` stands for each flag: test, push, reset. -/
inductive TaskPc where
  | test (k : Kind)
  | push (k : Kind)
  | reset (k : Kind)
  deriving DecidableEq, Repr

def Kind.next : Kind → Kind
  | .message => .withWhat
  | .withWhat => .withWhatAndValue
  | .withWhatAndValue => .message

def firebaseTask : TaskPc → Log → TaskPc × Log
  | .test k, s => if flag s k then (.push k,s) else (.test k.next,s)
  | .push k, s => (.reset k,taskOf k s)
  | .reset k, s => (.test k.next,setFlag s false k)

theorem firebaseTask_push (k : Kind) (s : Log) :
    firebaseTask (.push k) s = (.reset k,pushJSON k s) := by
  rw [firebaseTask, taskOf_eq]

section Fields
variable (s : Log) (b : Bool) (j k : Kind) (a : Action) (now : UInt32)

@[simp] theorem flag_setFlag : flag (setFlag s b k) j = if j = k then b else flag s j := by
  cases j <;> cases k <;> rfl

@[simp] theorem flag_writeFields : flag (writeFields s a) j = flag s j := by
  cases j <;> cases a <;> rfl

@[simp] theorem flag_pushJSON : flag (pushJSON k s) j = flag s j := by cases j <;> rfl

@[simp] theorem build_setFlag : build (setFlag s b k) j = build s j := by
  cases j <;> cases k <;> rfl

@[simp] theorem build_pushJSON : build (pushJSON k s) j = build s j := by cases j <;> rfl

@[simp] theorem build_writeFields : build (writeFields s a) a.kind = a := by cases a <;> rfl

@[simp] theorem accepted_setFlag : (setFlag s b k).accepted = s.accepted := by cases k <;> rfl
@[simp] theorem accepted_writeFields : (writeFields s a).accepted = s.accepted := by cases a <;> rfl
@[simp] theorem accepted_pushJSON : (pushJSON k s).accepted = s.accepted := rfl
@[simp] theorem pushed_setFlag : (setFlag s b k).pushed = s.pushed := by cases k <;> rfl
@[simp] theorem pushed_writeFields : (writeFields s a).pushed = s.pushed := by cases a <;> rfl
@[simp] theorem pushed_pushJSON : (pushJSON k s).pushed = s.pushed ++ [build s k] := rfl
@[simp] theorem fbdo_setFlag : (setFlag s b k).fbdo = s.fbdo := by cases k <;> rfl
@[simp] theorem fbdo_writeFields : (writeFields s a).fbdo = s.fbdo := by cases a <;> rfl
@[simp] theorem fbdo_pushJSON : (pushJSON k s).fbdo = s.fbdo := rfl
@[simp] theorem derefs_setFlag : (setFlag s b k).derefs = s.derefs := by cases k <;> rfl
@[simp] theorem derefs_writeFields : (writeFields s a).derefs = s.derefs := by cases a <;> rfl
theorem append_cases :
    firebaseAppendUserAction now a s = s ∨
      (passes now s = true ∧ firebaseAppendUserAction now a s = setFlag (writeFields
        { s with timeSinceLastLog := now, accepted := s.accepted ++ [a] } a) true a.kind) := by
  by_cases h : passes now s = true
  · exact Or.inr ⟨h,if_pos h⟩
  · exact Or.inl (if_neg h)

@[simp] theorem derefs_append : (firebaseAppendUserAction now a s).derefs = s.derefs := by
  obtain h | ⟨_,h⟩ := append_cases s a now <;> simp [h]

end Fields

end THue.Firebase
