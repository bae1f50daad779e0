import THue.Firebase
import THue.HueStream
import THue.CheckedArray

/-!
# Behaviors and the streaming session

The globals that the touch task and the behavior task share: the behaviors
and their settings, the log, the message buffer and the TLS context. Beside
them the record keeps the TLS calls with the state they met, the colour
writes with the behavior they were read from, and the frames handed to
`update`.
-/

set_option autoImplicit false

namespace THue.Entertainment
open THue.Globals THue.Firebase THue.HueStream THue.CheckedArray THue.FaultRun

/-- An `int` stored into a `uint8_t`. -/
def toUInt8 (n : ℤ) : UInt8 := UInt8.ofNat (n % 256).toNat

theorem toUInt8_cast {n : ℤ} (h0 : 0 ≤ n) (h : n < 256) : ((toUInt8 n).toNat : ℤ) = n := by
  rw [toUInt8, UInt8.toNat_ofNat']
  omega

def toUInt32 (n : ℤ) : UInt32 := UInt32.ofNat (n % 4294967296).toNat

structure Play where
  behaviors : Fin 20 → Behavior := fun _ => {}
  lastBehavior : Behavior := {}
  lastBehaviorId : Fin 20 := 0
  behaviorCount : UInt8 := 0
  startBehaviorNow : Bool := false
  fest : Bool := false
  blinkingLightsEntries : ℤ := 100
  blinkingLightsDelay : ℤ := 1000
  alarmEntries : ℤ := 10
  alarmDelay : ℤ := 60000
  festDelay : ℤ := 10

inductive TlsContext where
  | none
  | live
  | freed
  deriving DecidableEq, Repr

inductive TlsCall where
  | init
  | connect
  | write
  | free
  deriving DecidableEq, Repr

structure Paint where
  source : Fin 20
  call : SetCall

/-- The message at a call of `update`, and the selection of the behavior then running. -/
structure Frame where
  message : Message
  selected : List UInt8

structure Shared where
  play : Play := {}
  log : Log := {}
  message : Message := {}
  tls_context : TlsContext := .none
  tlsCalls : List (TlsCall × TlsContext) := []
  paints : List Paint := []
  frames : List Frame := []

def running (s : Shared) : Behavior := s.play.behaviors s.play.lastBehaviorId

def setBehavior (k : Fin 20) (b : Behavior) (s : Shared) : Shared :=
  { s with play := { s.play with behaviors := Function.update s.play.behaviors k b } }

def red : RGBCommand := ⟨0xff,0x00,0x00⟩
def warm : RGBCommand := ⟨0xfc,0xc5,0x73⟩

def alternate (entriesCount : UInt8) (entries : Fin 500 → RGBCommand) : Fin 500 → RGBCommand :=
  fun i => if i.val < entriesCount.toNat then (if i.val % 2 = 0 then red else warm) else entries i

def createRepeatingBehavior (unset : Behavior) (p : Play) : Behavior where
  name := "TRÆNING"
  lightIds := unset.lightIds
  lightCounter := 0
  activated := false
  behaviorId := repeatedBehavior
  entries := alternate (toUInt8 p.blinkingLightsEntries) unset.entries
  entriesCount := toUInt8 p.blinkingLightsEntries
  delay := p.blinkingLightsDelay.tdiv 10

def createTimebasedBehavior (unset : Behavior) (p : Play) : Behavior where
  name := "ALARM"
  lightIds := unset.lightIds
  lightCounter := 0
  activated := false
  behaviorId := timeBehavior
  entries := alternate (toUInt8 p.alarmEntries) unset.entries
  entriesCount := toUInt8 p.alarmEntries
  delay := p.alarmDelay.tdiv 10

def createTransitionBehavior (unset : Behavior) (p : Play) : Behavior where
  name := "FEST"
  lightIds := unset.lightIds
  lightCounter := 0
  activated := false
  behaviorId := transitionBehavior
  entries := unset.entries
  entriesCount := 100
  delay := ((1000:ℤ).tdiv p.festDelay).tdiv 10

def initBehaviors (unset : Behavior) (p : Play) : Play :=
  { p with
    behaviors := fun k =>
      if k = 0 then createRepeatingBehavior unset p
      else if k = 1 then createTimebasedBehavior unset p
      else if k = 2 then createTransitionBehavior unset p
      else p.behaviors k
    behaviorCount := 3 }

/-- The inner loop of `arrayShift`: so many cells from `k` take their right neighbour. -/
def moveDown : ℕ → List UInt8 → ℕ → List UInt8
  | 0, arr, _ => arr
  | rounds+1, arr, k => moveDown rounds (arr.set k (arr.getD (k+1) 0)) (k+1)

def shiftLeft (arr : List UInt8) (length i : ℕ) : List UInt8 :=
  (moveDown (length-1-i) arr i).set (length-1) 0

/-- The outer loop from index `i`. The index is kept after a shift, so the
loop is cut off by a number of rounds. -/
def arrayShiftFrom : ℕ → List UInt8 → ℕ → ℤ → ℕ → Option (List UInt8)
  | 0, _, _, _, _ => none
  | rounds+1, arr, length, value, i =>
      if i < length then
        if arr[i]?.map (fun x => (x.toNat:ℤ)) = some value then
          arrayShiftFrom rounds (shiftLeft arr length i) length value i
        else arrayShiftFrom rounds arr length value (i+1)
      else some arr

/-- Every round passes an index or removes an occurrence, so twice the length
is enough for a value that the shift does not put back. -/
def arrayShift (arr : List UInt8) (length : UInt8) (value : ℤ) : Option (List UInt8) :=
  arrayShiftFrom (2*length.toNat+1) arr length.toNat value 0

def ofList (arr : List UInt8) : Fin 20 → UInt8 := fun i => arr.getD i.val 0

def removeLight (lightId : ℤ) (b : Behavior) : Except Fault Behavior :=
  if 20 < b.lightCounter.toNat then .error (.outside .behaviorLightIds 20)
  else match arrayShift (List.ofFn b.lightIds) b.lightCounter lightId with
  | some arr => .ok { b with lightIds := ofList arr, lightCounter := b.lightCounter - 1 }
  | none => .error .diverges

def addLight (lightId : ℤ) (b : Behavior) : Except Fault Behavior := do
  let arr ← write b.lightIds b.lightCounter.toNat (toUInt8 lightId)
    (.outside .behaviorLightIds b.lightCounter.toNat)
  pure { b with lightIds := arr, lightCounter := b.lightCounter + 1 }

def selectAction (isSelected : Bool) (name : String) : Action :=
  .withWhat "touchScreenInteraction"
    (if isSelected then "removeBehaviorLight" else "adddedBehaviorLight") "selectLight" name

/-- The behavior part of `selectLight`: the button's flag decides. -/
def editSelection (lightId : ℤ) (isSelected : Bool) (s : Shared) : Except Fault Shared := do
  let b ← if isSelected then removeLight lightId (running s) else addLight lightId (running s)
  pure (setBehavior s.play.lastBehaviorId b s)

def tlsCall (c : TlsCall) (s : Shared) : Shared :=
  { s with tlsCalls := s.tlsCalls ++ [(c,s.tls_context)] }

def made (c : TlsCall) (s : Shared) : ℕ := (s.tlsCalls.map Prod.fst).count c

theorem made_tlsCall (c d : TlsCall) (s : Shared) :
    made c (tlsCall d s) = made c s + if d = c then 1 else 0 := by
  by_cases h : d = c <;> simp [made, tlsCall, h]

def initEntertainmentMode (lightCount : UInt8) (s : Shared) : Except Fault Shared := do
  let message ← initMessage lightCount s.message
  pure { tlsCall .init s with tls_context := .live, message := message }

/-- The return codes of the mbedtls calls in `connect`; the handshake code is
the one that ends its retry loop. -/
structure ConnectCodes where
  netConnect : ℤ := 0
  configDefaults : ℤ := 0
  sslSetup : ℤ := 0
  setHostname : ℤ := 0
  confPsk : ℤ := 0
  handshake : ℤ := 0
  deriving DecidableEq, Repr

/-- `startStreaming` always returns true; each non-zero code closes and fails. -/
def connectResult (c : ConnectCodes) : Bool :=
  if c.netConnect ≠ 0 then false
  else if c.configDefaults ≠ 0 then false
  else if c.sslSetup ≠ 0 then false
  else if c.setHostname ≠ 0 then false
  else if c.confPsk ≠ 0 then false
  else if c.handshake ≠ 0 then false
  else true

def connect (c : ConnectCodes) (s : Shared) : Bool × Shared := (connectResult c,tlsCall .connect s)

def disconnect (s : Shared) : Shared := { tlsCall .free s with tls_context := .freed }

def update (s : Shared) : Shared :=
  { tlsCall .write s with frames := s.frames ++ [⟨s.message,(running s).selection⟩] }

def paint (c : SetCall) (s : Shared) : Except Fault Shared := do
  let message ← c.exec s.message
  pure { s with message := message, paints := s.paints ++ [⟨s.play.lastBehaviorId,c⟩] }

def activateBehavior (s : Shared) : Shared :=
  { s with play := { s.play with startBehaviorNow := true } }

def behaviorOff (name : String) : Action :=
  .withWhat "touchScreenInteraction" "behaviorOff" "toggleBehavior" name

/-- `toggleBehavior(id, 5)`: STOP, touched or called when a run ends. -/
def toggleOff (now : UInt32) (id : Fin 20) (s : Shared) : Shared :=
  if (s.play.behaviors id).activated then
    let s := setBehavior id { s.play.behaviors id with activated := false } s
    let s := { s with play := { s.play with startBehaviorNow := false, fest := false } }
    let s := { s with log := begin s.log }
    let s := { s with log :=
      firebaseAppendUserAction now (behaviorOff (s.play.behaviors id).name) s.log }
    disconnect s
  else s

/-- The end of `toggleBehavior` on START, after its log entry was pushed. -/
def armBehavior (id : Fin 20) (s : Shared) : Shared :=
  let s := { s with log := firebaseEnd s.log }
  let s := setBehavior id { s.play.behaviors id with activated := true } s
  activateBehavior s

def Active (p : Play) (k : Fin 20) : Prop := (p.behaviors k).activated = true

instance active_decidable (p : Play) (k : Fin 20) : Decidable (Active p k) :=
  inferInstanceAs (Decidable (_ = true))

section Stop
variable (now : UInt32) (id j : Fin 20) (s : Shared)

theorem toggleOff_off (h : ¬Active s.play id) : toggleOff now id s = s := if_neg h

@[simp] theorem toggleOff_behaviors : (toggleOff now id s).play.behaviors =
    Function.update s.play.behaviors id { s.play.behaviors id with activated := false } := by
  by_cases h : (s.play.behaviors id).activated = true
  · simp [toggleOff, h, setBehavior, disconnect, tlsCall]
  · rw [toggleOff_off now id s h]
    have hb : { s.play.behaviors id with activated := false } = s.play.behaviors id := by
      cases hs : s.play.behaviors id
      simp_all
    rw [hb, Function.update_eq_self]

@[simp] theorem toggleOff_last :
    (toggleOff now id s).play.lastBehaviorId = s.play.lastBehaviorId := by
  simp only [toggleOff]
  split <;> rfl

@[simp] theorem toggleOff_derefs : (toggleOff now id s).log.derefs = s.log.derefs := by
  simp only [toggleOff]
  split
  · simp [disconnect, tlsCall, setBehavior, begin]
  · rfl

@[simp] theorem toggleOff_message : (toggleOff now id s).message = s.message := by
  simp only [toggleOff]
  split <;> rfl

@[simp] theorem toggleOff_paints : (toggleOff now id s).paints = s.paints := by
  simp only [toggleOff]
  split <;> rfl

@[simp] theorem active_toggleOff :
    Active (toggleOff now id s).play j ↔ j ≠ id ∧ Active s.play j := by
  by_cases h : j = id
  · subst h
    simp [Active]
  · simp [Active, h]

@[simp] theorem active_arm : Active (armBehavior id s).play j ↔ j = id ∨ Active s.play j := by
  by_cases h : j = id
  · subst h
    simp [Active, armBehavior, setBehavior, activateBehavior]
  · simp [Active, armBehavior, setBehavior, activateBehavior, h]

end Stop

theorem edit_keeps {lightId : ℤ} {b c : Behavior} {isSelected : Bool}
    (h : (if isSelected then removeLight lightId b else addLight lightId b) = .ok c) :
    c = { b with lightIds := c.lightIds, lightCounter := c.lightCounter } := by
  split at h
  · simp only [removeLight] at h
    split at h
    · cases h
    · split at h
      · cases h
        rfl
      · cases h
  · obtain ⟨a,-,h⟩ := bind_ok.mp h
    cases h
    rfl

theorem editSelection_ok {lightId : ℤ} {isSelected : Bool} {s t : Shared}
    (h : editSelection lightId isSelected s = .ok t) :
    ∃ c, (if isSelected then removeLight lightId (running s) else addLight lightId (running s))
      = .ok c ∧ t = setBehavior s.play.lastBehaviorId c s := by
  cases isSelected with
  | true =>
    obtain ⟨c,hc,h⟩ := bind_ok.mp h
    cases h
    exact ⟨c,hc,rfl⟩
  | false =>
    obtain ⟨c,hc,h⟩ := bind_ok.mp h
    cases h
    exact ⟨c,hc,rfl⟩

end THue.Entertainment
