import THue.Entertainment

/-!
# The tasks around a behavior run

The touch task, `firebaseTask` and the behavior task `startBehavior` share the
globals of the previous module. Each move is one atomic step of one task; the
behavior task stops between any two statements of its loops. A touch that
finds its task busy is not delivered and leaves the state as it is.
-/

set_option autoImplicit false

namespace THue.BehaviorTask
open THue.Globals THue.Firebase THue.HueStream THue.Entertainment THue.CheckedArray
open THue.FaultRun

/-- The position of the behavior task; `now` is the local of its waiting loops. -/
inductive BehaviorPc where
  | loop
  | init
  | connect
  | dispatch
  | train (i : ℕ)
  | trainColor (i l : ℕ) (now : UInt32)
  | trainUpdate (i : ℕ) (now : UInt32)
  | trainWait (i : ℕ) (now : UInt32)
  | trainResend (i : ℕ) (now : UInt32)
  | alarmWait (now : UInt32)
  | alarmResend (now : UInt32)
  | alarm (i : ℕ)
  | alarmColor (i l : ℕ)
  | alarmUpdate (i : ℕ)
  | partyStart
  | party
  | partyColor (l : ℕ)
  | partyUpdate
  | partySleep
  | close
  | clear
  | closeAgain
  | clearAgain
  deriving DecidableEq, Repr

structure Oracle where
  clock : UInt32 := 0
  codes : ConnectCodes := {}
  random : RGBCommand := {}
  deriving DecidableEq, Repr

/-- The call `setColorRGB(l, behaviors[lastBehaviorId].lightIds[l], ...)`. -/
def lightCall (l : ℕ) (c : RGBCommand) (b : Behavior) : Except Fault SetCall := do
  let id ← read b.lightIds l (.outside .behaviorLightIds l)
  pure ⟨UInt8.ofNat l,id,c.r,c.g,c.b⟩

def paintEntry (i l : ℕ) (s : Shared) : Except Fault Shared := do
  let e ← read (running s).entries i (.outside .entries i)
  let c ← lightCall l e (running s)
  paint c s

def paintRandom (l : ℕ) (c : RGBCommand) (s : Shared) : Except Fault Shared := do
  let c ← lightCall l c (running s)
  paint c s

/-- `millis() - now < behaviors[lastBehaviorId].delay * 10` in `unsigned long`. -/
def waits (clock now : UInt32) (b : Behavior) : Bool := clock - now < toUInt32 (b.delay*10)

def behaviorStep (o : Oracle) : BehaviorPc → Shared → Except Fault (BehaviorPc × Shared)
  | .loop, s => .ok (if s.play.startBehaviorNow then .init else .loop,s)
  | .init, s => do
      let s ← initEntertainmentMode (running s).lightCounter s
      pure (.connect,s)
  | .connect, s =>
      .ok (if (connect o.codes s).1 then .dispatch else .closeAgain,(connect o.codes s).2)
  | .dispatch, s =>
      .ok (if (running s).behaviorId = repeatedBehavior then .train 0
        else if (running s).behaviorId = timeBehavior then .alarmWait o.clock
        else if (running s).behaviorId = transitionBehavior then .partyStart
        else .close,s)
  | .train i, s =>
      .ok (if i < (running s).entriesCount.toNat then .trainColor i 0 o.clock else .close,s)
  | .trainColor i l now, s =>
      if l < (running s).lightCounter.toNat then do
        let s ← paintEntry i l s
        pure (.trainColor i (l+1) now,s)
      else .ok (.trainUpdate i now,s)
  | .trainUpdate i now, s => .ok (.trainWait i now,update s)
  | .trainWait i now, s =>
      .ok (if waits o.clock now (running s) then .trainResend i now else .train (i+1),s)
  | .trainResend i now, s => .ok (.trainWait i now,update s)
  | .alarmWait now, s =>
      .ok (if waits o.clock now (running s) then .alarmResend now else .alarm 0,s)
  | .alarmResend now, s => .ok (.alarmWait now,update s)
  | .alarm i, s =>
      .ok (if i < (running s).entriesCount.toNat then .alarmColor i 0 else .close,s)
  | .alarmColor i l, s =>
      if l < (running s).lightCounter.toNat then do
        let s ← paintEntry i l s
        pure (.alarmColor i (l+1),s)
      else .ok (.alarmUpdate i,s)
  | .alarmUpdate i, s => .ok (.alarm (i+1),update s)
  | .partyStart, s => .ok (.party,{ s with play := { s.play with fest := true } })
  | .party, s => .ok (if s.play.fest then .partyColor 0 else .close,s)
  | .partyColor l, s =>
      if l < (running s).lightCounter.toNat then do
        let s ← paintRandom l o.random s
        pure (.partyColor (l+1),s)
      else .ok (.partyUpdate,s)
  | .partyUpdate, s => .ok (.partySleep,update s)
  | .partySleep, s => .ok (.party,s)
  | .close, s => .ok (.clear,toggleOff o.clock s.play.lastBehaviorId s)
  | .clear, s =>
      .ok (.closeAgain,{ s with play := { s.play with startBehaviorNow := false } })
  | .closeAgain, s => .ok (.clearAgain,toggleOff o.clock s.play.lastBehaviorId s)
  | .clearAgain, s => .ok (.loop,{ s with play := { s.play with startBehaviorNow := false } })

/-- What a page function does to the shared globals: it may log an action and
may make a behavior the last one opened. -/
structure Visit where
  opens : Option (Fin 20) := none
  action : Option Action := none

def logOptional (now : UInt32) : Option Action → Log → Log
  | none, s => s
  | some a, s => firebaseAppendUserAction now a s

def openBehavior (k : Fin 20) (p : Play) : Play :=
  { p with lastBehavior := p.behaviors k, lastBehaviorId := k }

def Visit.exec (now : UInt32) (v : Visit) (s : Shared) : Shared :=
  { s with play := v.opens.elim s.play (fun k => openBehavior k s.play),
           log := logOptional now v.action s.log }

inductive TouchPc where
  | idle
  | startPush (k : Fin 20)
  | startArm (k : Fin 20)
  | fetchIds
  | fetchEnd
  | fetchBegin
  | fetchInit
  | fetchLevel
  | fetchHome
  deriving DecidableEq, Repr

/-- `getNewIds`: `getUserId`, then `getClientKey` or the two setters. -/
def getNewIds (known : Bool) (s : Log) : Log :=
  if known then deref (deref s) else deref (deref (deref s))

structure FetchInput where
  clock : UInt32 := 0
  known : Bool := true
  unset : Behavior := {}

def touchStep (w : FetchInput) : TouchPc → Shared → TouchPc × Shared
  | .idle, s => (.idle,s)
  | .startPush k, s =>
      (.startArm k,{ s with log := taskFireBaseAppendUserActionWithWhat s.log })
  | .startArm k, s => (.idle,armBehavior k s)
  | .fetchIds, s => (.fetchEnd,{ s with log := getNewIds w.known s.log })
  | .fetchEnd, s => (.fetchBegin,{ s with log := firebaseEnd s.log })
  | .fetchBegin, s => (.fetchInit,{ s with log := begin s.log })
  | .fetchInit, s => (.fetchLevel,{ s with play := initBehaviors w.unset s.play })
  | .fetchLevel, s => (.fetchHome,{ s with log := deref s.log })
  | .fetchHome, s =>
      (.idle,{ s with log := firebaseAppendUserAction w.clock drawHomeAction s.log })

structure System where
  shared : Shared := {}
  touch : TouchPc := .idle
  firebase : TaskPc := .test .message
  behavior : BehaviorPc := .loop

inductive Move where
  | visit (now : UInt32) (v : Visit)
  | select (now : UInt32) (lightId : ℤ) (isSelected : Bool) (action : Action)
  | start
  | stop (now : UInt32)
  | refresh
  | touch (w : FetchInput)
  | firebase
  | behavior (o : Oracle)

/-- START and STOP are offered by a behavior's page, so they name the last
behavior opened. START is accepted when it has lights; its fields are written
at once, the push and the rest are further steps of the touch task. -/
def startTouched (s : System) : System :=
  if (running s.shared).lightCounter ≠ 0 then
    { s with
      shared := { s.shared with
        log := runTaskFields "touchScreenInteraction" "behaviorOn" "toggleBehavior"
          (running s.shared).name s.shared.log }
      touch := .startPush s.shared.play.lastBehaviorId }
  else s

def step (s : System) : Move → Except Fault System
  | .visit now v =>
      .ok (if s.touch = .idle then { s with shared := v.exec now s.shared } else s)
  | .select now lightId isSelected a =>
      if s.touch = .idle then do
        let t ← editSelection lightId isSelected s.shared
        pure { s with shared := { t with log := firebaseAppendUserAction now a t.log } }
      else .ok s
  | .start => .ok (if s.touch = .idle then startTouched s else s)
  | .stop now =>
      .ok (if s.touch = .idle then
        { s with shared := toggleOff now s.shared.play.lastBehaviorId s.shared } else s)
  | .refresh => .ok (if s.touch = .idle then { s with touch := .fetchIds } else s)
  | .touch w =>
      .ok { s with touch := (touchStep w s.touch s.shared).1,
                   shared := (touchStep w s.touch s.shared).2 }
  | .firebase =>
      .ok { s with firebase := (firebaseTask s.firebase s.shared.log).1,
                   shared := { s.shared with
                     log := (firebaseTask s.firebase s.shared.log).2 } }
  | .behavior o => do
      let (pc,shared) ← behaviorStep o s.behavior s.shared
      pure { s with behavior := pc, shared := shared }

/-- From here the run reaches its end without `connect` or `update`. -/
def Resting (p : Play) : BehaviorPc → Prop
  | .dispatch => (p.behaviors p.lastBehaviorId).behaviorId ∉
      [repeatedBehavior,timeBehavior,transitionBehavior]
  | .train i | .alarm i => (p.behaviors p.lastBehaviorId).entriesCount.toNat ≤ i
  | .party | .partySleep => p.fest = false
  | .close | .closeAgain => True
  | _ => False

def Opens (v : Visit) (s : System) : Prop := ∃ k ∈ v.opens, k ≠ s.shared.play.lastBehaviorId

instance resting_decidable (p : Play) : ∀ pc, Decidable (Resting p pc)
  | .dispatch => inferInstanceAs (Decidable (_ ∉ _))
  | .train _ | .alarm _ => inferInstanceAs (Decidable (_ ≤ _))
  | .party | .partySleep => inferInstanceAs (Decidable (_ = _))
  | .close | .closeAgain => isTrue trivial
  | .loop | .init | .connect | .trainColor .. | .trainUpdate .. | .trainWait .. | .trainResend ..
  | .alarmWait _ | .alarmResend _ | .alarmColor .. | .alarmUpdate _ | .partyStart
  | .partyColor _ | .partyUpdate | .clear | .clearAgain => isFalse id

instance opens_decidable (v : Visit) (s : System) : Decidable (Opens v s) :=
  inferInstanceAs (Decidable (∃ k ∈ v.opens, k ≠ s.shared.play.lastBehaviorId))

/-- One colour write of light `l`: the call names slot `l` and the light the
running behavior has there. -/
def Painted (l : ℕ) (s t : Shared) : Prop :=
  ∃ (h : l < 20) (c : SetCall) (m : Message), c.light_index = UInt8.ofNat l ∧
    c.lightId = (running s).lightIds ⟨l,h⟩ ∧ c.exec s.message = .ok m ∧
    t = { s with message := m, paints := s.paints ++ [⟨s.play.lastBehaviorId,c⟩] }

theorem lightCall_painted {l : ℕ} {c : RGBCommand} {s t : Shared}
    (h : lightCall l c (running s) >>= (fun a => paint a s) = .ok t) : Painted l s t := by
  obtain ⟨a,ha,h⟩ := bind_ok.mp h
  obtain ⟨id,hid,ha⟩ := bind_ok.mp ha
  cases ha
  obtain ⟨m,hm,h⟩ := bind_ok.mp h
  cases h
  obtain ⟨k,hk,he,rfl⟩ := read_ok.mp hid
  obtain rfl : l = k := by exact_mod_cast he
  exact ⟨hk,_,m,rfl,rfl,hm,rfl⟩

theorem paintEntry_painted {i l : ℕ} {s t : Shared} (h : paintEntry i l s = .ok t) :
    Painted l s t := by
  obtain ⟨e,-,h⟩ := bind_ok.mp h
  exact lightCall_painted h

theorem paintRandom_painted {l : ℕ} {c : RGBCommand} {s t : Shared}
    (h : paintRandom l c s = .ok t) : Painted l s t := lightCall_painted h

theorem colour_loop_cases {n l : ℕ} {x : Except Fault Shared} {s t : Shared}
    {pc again leave : BehaviorPc}
    (h : (if l < n then x >>= fun s => pure (again,s) else .ok (leave,s)) = .ok (pc,t))
    (hx : x = .ok t → Painted l s t) :
    (l < n ∧ pc = again ∧ Painted l s t) ∨ (n ≤ l ∧ pc = leave ∧ t = s) := by
  split at h
  · rename_i hl
    obtain ⟨u,hu,h⟩ := bind_ok.mp h
    cases h
    exact Or.inl ⟨hl,rfl,hx hu⟩
  · cases h
    exact Or.inr ⟨by omega,rfl,rfl⟩

def ColourAt : BehaviorPc → ℕ → Prop
  | .trainColor _ l _, m | .alarmColor _ l, m | .partyColor l, m => l = m
  | _, _ => False

def Sends : BehaviorPc → Prop
  | .trainUpdate .. | .trainResend .. | .alarmResend _ | .alarmUpdate _ | .partyUpdate => True
  | _ => False

/-- What a step leaves alone that neither opens a session, nor writes a
colour, nor ends the run. -/
structure Passing (s t : Shared) : Prop where
  log : t.log = s.log
  behaviors : t.play.behaviors = s.play.behaviors
  last : t.play.lastBehaviorId = s.play.lastBehaviorId
  paints : t.paints = s.paints
  message : t.message = s.message
  start : t.play.startBehaviorNow = true → s.play.startBehaviorNow = true
  inits : made .init t = made .init s

theorem passing_refl (s : Shared) : Passing s s := ⟨rfl,rfl,rfl,rfl,rfl,id,rfl⟩

theorem passing_update (s : Shared) : Passing s (update s) :=
  ⟨rfl,rfl,rfl,rfl,rfl,id,made_tlsCall .init .write s⟩

theorem behavior_step_cases {o : Oracle} {pc pc' : BehaviorPc} {s t : Shared}
    (h : behaviorStep o pc s = .ok (pc',t)) :
    ((pc = .close ∨ pc = .closeAgain) ∧ t = toggleOff o.clock s.play.lastBehaviorId s) ∨
      (∃ l, ColourAt pc l ∧ l < (running s).lightCounter.toNat ∧ Painted l s t) ∨
      (pc = .init ∧ initEntertainmentMode (running s).lightCounter s = .ok t) ∨ Passing s t := by
  cases pc with
  | close => cases h; exact Or.inl ⟨Or.inl rfl,rfl⟩
  | closeAgain => cases h; exact Or.inl ⟨Or.inr rfl,rfl⟩
  | init =>
    obtain ⟨u,hu,h⟩ := bind_ok.mp h
    cases h
    exact Or.inr (Or.inr (Or.inl ⟨rfl,hu⟩))
  | trainColor i l now =>
    obtain ⟨hl,-,hp⟩ | ⟨-,-,rfl⟩ := colour_loop_cases h paintEntry_painted
    · exact Or.inr (Or.inl ⟨l,rfl,hl,hp⟩)
    · exact Or.inr (Or.inr (Or.inr (passing_refl _)))
  | alarmColor i l =>
    obtain ⟨hl,-,hp⟩ | ⟨-,-,rfl⟩ := colour_loop_cases h paintEntry_painted
    · exact Or.inr (Or.inl ⟨l,rfl,hl,hp⟩)
    · exact Or.inr (Or.inr (Or.inr (passing_refl _)))
  | partyColor l =>
    obtain ⟨hl,-,hp⟩ | ⟨-,-,rfl⟩ := colour_loop_cases h paintRandom_painted
    · exact Or.inr (Or.inl ⟨l,rfl,hl,hp⟩)
    · exact Or.inr (Or.inr (Or.inr (passing_refl _)))
  | connect =>
    cases h
    exact Or.inr (Or.inr (Or.inr ⟨rfl,rfl,rfl,rfl,rfl,id,made_tlsCall .init .connect s⟩))
  | clear => cases h; exact Or.inr (Or.inr (Or.inr ⟨rfl,rfl,rfl,rfl,rfl,nofun,rfl⟩))
  | clearAgain => cases h; exact Or.inr (Or.inr (Or.inr ⟨rfl,rfl,rfl,rfl,rfl,nofun,rfl⟩))
  | trainUpdate | trainResend | alarmResend | alarmUpdate | partyUpdate =>
    cases h
    exact Or.inr (Or.inr (Or.inr (passing_update s)))
  | _ => cases h; exact Or.inr (Or.inr (Or.inr ⟨rfl,rfl,rfl,rfl,rfl,id,rfl⟩))

/-- The step is the ending STOP, or it leaves the log, the behaviors and the
last behavior opened alone. -/
theorem behavior_step_frame {o : Oracle} {pc pc' : BehaviorPc} {s t : Shared}
    (h : behaviorStep o pc s = .ok (pc',t)) :
    t = toggleOff o.clock s.play.lastBehaviorId s ∨
      (t.log = s.log ∧ t.play.behaviors = s.play.behaviors ∧
        t.play.lastBehaviorId = s.play.lastBehaviorId) := by
  obtain ⟨-,ht⟩ | ⟨l,-,-,-,_,_,-,-,-,rfl⟩ | ⟨-,hi⟩ | hp := behavior_step_cases h
  · exact Or.inl ht
  · exact Or.inr ⟨rfl,rfl,rfl⟩
  · obtain ⟨m,-,hi⟩ := bind_ok.mp hi
    cases hi
    exact Or.inr ⟨rfl,rfl,rfl⟩
  · exact Or.inr ⟨hp.log,hp.behaviors,hp.last⟩

theorem behavior_step_end {o : Oracle} {pc pc' : BehaviorPc} {s t : Shared}
    (h : behaviorStep o pc s = .ok (pc',t)) (hp : pc' = .loop ∨ pc' = .clearAgain) :
    pc = .closeAgain ∨ pc = .clearAgain ∨ (pc = .loop ∧ t = s) := by
  cases pc with
  | loop => cases h; exact Or.inr (Or.inr ⟨rfl,rfl⟩)
  | closeAgain => exact Or.inl rfl
  | clearAgain => exact Or.inr (Or.inl rfl)
  | init => obtain ⟨u,-,h⟩ := bind_ok.mp h; cases h; simp at hp
  | trainColor i l now =>
    obtain ⟨-,rfl,-⟩ | ⟨-,rfl,-⟩ := colour_loop_cases h paintEntry_painted <;> simp at hp
  | alarmColor i l =>
    obtain ⟨-,rfl,-⟩ | ⟨-,rfl,-⟩ := colour_loop_cases h paintEntry_painted <;> simp at hp
  | partyColor l =>
    obtain ⟨-,rfl,-⟩ | ⟨-,rfl,-⟩ := colour_loop_cases h paintRandom_painted <;> simp at hp
  | connect => cases h; split_ifs at hp <;> simp at hp
  | dispatch => cases h; split_ifs at hp <;> simp at hp
  | train i => cases h; split_ifs at hp <;> simp at hp
  | trainWait i now => cases h; split_ifs at hp <;> simp at hp
  | alarmWait now => cases h; split_ifs at hp <;> simp at hp
  | alarm i => cases h; split_ifs at hp <;> simp at hp
  | party => cases h; split_ifs at hp <;> simp at hp
  | _ => cases h; simp at hp

/-- A START under way names the last behavior opened. -/
def Named (s : System) : Prop :=
  ∀ k, s.touch = .startPush k ∨ s.touch = .startArm k → k = s.shared.play.lastBehaviorId

end THue.BehaviorTask
