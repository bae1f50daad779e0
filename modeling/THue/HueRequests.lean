import THue.JsonText
import THue.LightDials
import THue.LightResponses

/-!
# Requests to the bridge

Each command is a `PUT` to the endpoint of a light or a group, its body put
together from pieces of text. The bridge reads the endpoint and the body; what
it reads is what the command says. A colour temperature that maps outside the
range of the bridge is not sent.
-/

set_option autoImplicit false

namespace THue.HueRequests
open THue.JsonText THue.LightResponses

structure Request where
  endpoint : String
  body : String
  deriving DecidableEq, Repr

def LIGHT_ON : String := "\x7b\"on\":true\x7d"

def LIGHT_OFF : String := "\x7b\"on\":false\x7d"

def COLOR_LOOP_ON : String := "\x7b\"transitiontime\":0, \"effect\":\"colorloop\"\x7d"

def COLOR_LOOP_OFF : String := "\x7b\"transitiontime\":0, \"effect\":\"none\"\x7d"

def numberBody (transitiontime : ℕ) (key : String) (n : ℕ) : String :=
  "\x7b\"transitiontime\":" ++ toString transitiontime ++ ", \"" ++ key ++ "\":" ++ toString n ++
    "\x7d"

/-- A transition time of 0 and a text. -/
def textBody (key s : String) : String :=
  "\x7b\"transitiontime\":0, \"" ++ key ++ "\":\"" ++ s ++ "\"\x7d"

section Commands
variable (hueBridgeIP userId : String)

def groupActionEndpoint (groupId : UInt8) : String :=
  hueBridgeIP ++ "/api/" ++ userId ++ "/groups/" ++ groupId.toNat.repr ++ "/action"

def lightPut (lightId : UInt8) (body : String) : Request :=
  { endpoint := lightStateEndpoint hueBridgeIP userId lightId, body := body }

def groupPut (groupId : UInt8) (body : String) : Request :=
  { endpoint := groupActionEndpoint hueBridgeIP userId groupId, body := body }

def lightOn (lightId : UInt8) : Request := lightPut hueBridgeIP userId lightId LIGHT_ON

def lightOff (lightId : UInt8) : Request := lightPut hueBridgeIP userId lightId LIGHT_OFF

def brightness (lightId brightness : UInt8) : Request :=
  lightPut hueBridgeIP userId lightId (numberBody 1 "bri" brightness.toNat)

def hue (lightId : UInt8) (setHue : UInt16) : Request :=
  lightPut hueBridgeIP userId lightId (numberBody 0 "hue" setHue.toNat)

def sat (lightId setSat : UInt8) : Request :=
  lightPut hueBridgeIP userId lightId (numberBody 0 "sat" setSat.toNat)

def colorTemp (lightId : UInt8) (temp : UInt16) : Except String Request :=
  (LightDials.colorTemp temp).map (lightPut hueBridgeIP userId lightId)

def colorLoop (lightId : UInt8) (enable : Bool) : Request :=
  lightPut hueBridgeIP userId lightId (if enable then COLOR_LOOP_ON else COLOR_LOOP_OFF)

def alert (lightId : UInt8) (alertState : String) : Request :=
  lightPut hueBridgeIP userId lightId (textBody "alert" alertState)

def flash (lightId : UInt8) : Request :=
  lightPut hueBridgeIP userId lightId "\x7b\"transitiontime\":0, \"alert\":\"select\"\x7d"

def groupOn (groupId : UInt8) : Request := groupPut hueBridgeIP userId groupId LIGHT_ON

def groupOff (groupId : UInt8) : Request := groupPut hueBridgeIP userId groupId LIGHT_OFF

def groupBrightness (groupId brightness : UInt8) : Request :=
  groupPut hueBridgeIP userId groupId (numberBody 0 "bri" brightness.toNat)

def groupHue (groupId : UInt8) (setHue : UInt16) : Request :=
  groupPut hueBridgeIP userId groupId (numberBody 0 "hue" setHue.toNat)

def groupSat (groupId setSat : UInt8) : Request :=
  groupPut hueBridgeIP userId groupId (numberBody 0 "sat" setSat.toNat)

def groupColorTemp (groupId : UInt8) (temp : UInt16) : Except String Request :=
  (LightDials.colorTemp temp).map (groupPut hueBridgeIP userId groupId)

def groupColorLoop (groupId : UInt8) (enable : Bool) : Request :=
  groupPut hueBridgeIP userId groupId (if enable then COLOR_LOOP_ON else COLOR_LOOP_OFF)

def groupAlert (groupId : UInt8) (alertState : String) : Request :=
  groupPut hueBridgeIP userId groupId (textBody "alert" alertState)

def groupFlash (groupId : UInt8) : Request :=
  groupPut hueBridgeIP userId groupId "\x7b\"transitiontime\":0, \"alert\":\"select\"\x7d"

/-- A light or a group. -/
inductive Target where
  | light (id : UInt8)
  | group (id : UInt8)
  deriving DecidableEq, Repr

/-- What is asked of it. -/
inductive Order where
  | on
  | off
  | brightness (b : UInt8)
  | hue (h : UInt16)
  | sat (s : UInt8)
  | colorTemp (temp : UInt16)
  | colorLoop (enable : Bool)
  | alert (alertState : String)
  | flash
  deriving DecidableEq, Repr

def send : Target → Order → Except String Request
  | .light id, .on => .ok (lightOn hueBridgeIP userId id)
  | .light id, .off => .ok (lightOff hueBridgeIP userId id)
  | .light id, .brightness b => .ok (brightness hueBridgeIP userId id b)
  | .light id, .hue h => .ok (hue hueBridgeIP userId id h)
  | .light id, .sat s => .ok (sat hueBridgeIP userId id s)
  | .light id, .colorTemp temp => colorTemp hueBridgeIP userId id temp
  | .light id, .colorLoop enable => .ok (colorLoop hueBridgeIP userId id enable)
  | .light id, .alert s => .ok (alert hueBridgeIP userId id s)
  | .light id, .flash => .ok (flash hueBridgeIP userId id)
  | .group id, .on => .ok (groupOn hueBridgeIP userId id)
  | .group id, .off => .ok (groupOff hueBridgeIP userId id)
  | .group id, .brightness b => .ok (groupBrightness hueBridgeIP userId id b)
  | .group id, .hue h => .ok (groupHue hueBridgeIP userId id h)
  | .group id, .sat s => .ok (groupSat hueBridgeIP userId id s)
  | .group id, .colorTemp temp => groupColorTemp hueBridgeIP userId id temp
  | .group id, .colorLoop enable => .ok (groupColorLoop hueBridgeIP userId id enable)
  | .group id, .alert s => .ok (groupAlert hueBridgeIP userId id s)
  | .group id, .flash => .ok (groupFlash hueBridgeIP userId id)

end Commands

structure Update where
  target : Target
  transitiontime : Option ℕ
  member : String
  value : Json

def between (front back path : List Char) : Option ℕ :=
  let ds := (path.drop front.length).takeWhile Char.isDigit
  if path = front ++ ds ++ back ∧ ds ≠ [] then some (Nat.ofDigitChars 10 ds 0) else none

def targetOf (base : String) (endpoint : String) : Option Target :=
  match between (base ++ "/lights/").toList "/state".toList endpoint.toList with
  | some n => some (.light (UInt8.ofNat n))
  | none =>
      (between (base ++ "/groups/").toList "/action".toList endpoint.toList).map fun n =>
        .group (UInt8.ofNat n)

def changeOf (target : Target) : Json → Option Update
  | .object [(m,v)] => some { target := target, transitiontime := none, member := m, value := v }
  | .object [(key,.number t),(m,v)] =>
      if key = "transitiontime" then
        some { target := target, transitiontime := some t, member := m, value := v }
      else none
  | _ => none

def bridge (hueBridgeIP userId : String) (r : Request) : Option Update := do
  let target ← targetOf (hueBridgeIP ++ "/api/" ++ userId) r.endpoint
  let body ← read r.body.toList
  changeOf target body

/-- What a command means: brightness changes within a tenth of a second at a light and at
once at a group, and the range of colour temperatures is laid over that of the bridge. -/
def meant : Target → Order → Update
  | t, .on => { target := t, transitiontime := none, member := "on", value := .bool true }
  | t, .off => { target := t, transitiontime := none, member := "on", value := .bool false }
  | .light id, .brightness b =>
      { target := .light id, transitiontime := some 1, member := "bri", value := .number b.toNat }
  | .group id, .brightness b =>
      { target := .group id, transitiontime := some 0, member := "bri", value := .number b.toNat }
  | t, .hue h =>
      { target := t, transitiontime := some 0, member := "hue", value := .number h.toNat }
  | t, .sat s =>
      { target := t, transitiontime := some 0, member := "sat", value := .number s.toNat }
  | t, .colorTemp temp =>
      { target := t, transitiontime := some 0, member := "ct"
        value := .number (153 + (((temp.toNat:ℤ)-2000)*347).tdiv 4500).toNat }
  | t, .colorLoop enable =>
      { target := t, transitiontime := some 0, member := "effect"
        value := .text (if enable then "colorloop" else "none") }
  | t, .alert s => { target := t, transitiontime := some 0, member := "alert", value := .text s }
  | t, .flash =>
      { target := t, transitiontime := some 0, member := "alert", value := .text "select" }

/-- An alert is plain text. -/
def Plain : Order → Prop
  | .alert s => ∀ c ∈ s.toList, PlainChar c = true
  | _ => True

theorem between_digits (front back : List Char) (n : ℕ)
    (hback : back.head?.all (fun c => !c.isDigit) = true) :
    between front back (front ++ Nat.toDigits 10 n ++ back) = some n := by
  have hstop : ∀ c ∈ back.head?, c.isDigit = false := by
    cases back with
    | nil => simp
    | cons c back =>
      rintro _ ⟨rfl⟩
      simpa using hback
  have hdigits : ∀ c ∈ Nat.toDigits 10 n, c.isDigit = true := fun c hc =>
    Nat.isDigit_of_mem_toDigits (by decide) (by decide) hc
  rw [between, List.append_assoc, List.drop_left, (takeWhile_stop hdigits hstop).1, if_pos
    ⟨(List.append_assoc ..).symm,Nat.toDigits_ne_nil⟩,
    Nat.ofDigitChars_toDigits (by decide) (by decide)]

theorem targetOf_light (hueBridgeIP userId : String) (id : UInt8) :
    targetOf (hueBridgeIP ++ "/api/" ++ userId) (lightStateEndpoint hueBridgeIP userId id) =
      some (.light id) := by
  have hpath : (lightStateEndpoint hueBridgeIP userId id).toList =
      (hueBridgeIP ++ "/api/" ++ userId ++ "/lights/").toList ++ Nat.toDigits 10 id.toNat ++
        "/state".toList := by
    rw [lightStateEndpoint, String.toList_append, String.toList_append, Nat.toList_repr]
  rw [targetOf, hpath, between_digits _ _ _ (by decide)]
  dsimp only
  rw [UInt8.ofNat_toNat]

theorem targetOf_group (hueBridgeIP userId : String) (id : UInt8) :
    targetOf (hueBridgeIP ++ "/api/" ++ userId) (groupActionEndpoint hueBridgeIP userId id) =
      some (.group id) := by
  have hpath : (groupActionEndpoint hueBridgeIP userId id).toList =
      (hueBridgeIP ++ "/api/" ++ userId ++ "/groups/").toList ++ Nat.toDigits 10 id.toNat ++
        "/action".toList := by
    rw [groupActionEndpoint, String.toList_append, String.toList_append, Nat.toList_repr]
  have hlight : between (hueBridgeIP ++ "/api/" ++ userId ++ "/lights/").toList "/state".toList
      ((hueBridgeIP ++ "/api/" ++ userId ++ "/groups/").toList ++ Nat.toDigits 10 id.toNat ++
        "/action".toList) = none := by
    rw [between]
    refine if_neg fun h => ?_
    have hsame := h.1
    rw [String.toList_append, String.toList_append (s := hueBridgeIP ++ "/api/" ++ userId)] at hsame
    simp only [List.append_assoc, List.append_cancel_left_eq] at hsame
    exact absurd (congrArg (fun l => l[1]?) hsame) (by simp)
  rw [targetOf, hpath, hlight]
  dsimp only
  rw [between_digits _ _ _ (by decide), Option.map_some, UInt8.ofNat_toNat]

theorem transitiontime_plain : ∀ c ∈ "transitiontime".toList, PlainChar c = true :=
  List.all_eq_true.mp (by decide)

theorem numberBody_read (t : ℕ) {key : String} (hkey : ∀ c ∈ key.toList, PlainChar c = true)
    (n : ℕ) :
    read (numberBody t key n).toList =
      some (.object [("transitiontime",.number t),(key,.number n)]) := by
  have hbody : (numberBody t key n).toList = render [(.leftBrace,0),(.text "transitiontime",0),
      (.colon,0),(.number t,0),(.comma,1),(.text key,0),(.colon,0),(.number n,0),
      (.rightBrace,0)] := by
    delta numberBody
    rw [String.toList_append, String.toList_append, String.toList_append, String.toList_append,
      String.toList_append, String.toList_append, Nat.toString_eq_repr, Nat.toString_eq_repr,
      Nat.toList_repr, Nat.toList_repr]
    simp only [render, List.flatMap_cons, List.flatMap_nil, List.append_nil, List.append_assoc,
      List.replicate_zero, List.nil_append, spell, List.cons_append]
    generalize Nat.toDigits 10 t = ds, Nat.toDigits 10 n = es, key.toList = ks
    rfl
  rw [hbody]
  exact read_written (by simp [tokens, memberTokens, membersTokens])
    ⟨trivial,transitiontime_plain,trivial,rfl,trivial,hkey,trivial,rfl,trivial,trivial⟩

theorem textBody_read (key s : String) (hkey : ∀ c ∈ key.toList, PlainChar c = true)
    (hs : ∀ c ∈ s.toList, PlainChar c = true) : read (textBody key s).toList =
      some (.object [("transitiontime",.number 0),(key,.text s)]) := by
  have hbody : (textBody key s).toList = render [(.leftBrace,0),(.text "transitiontime",0),
      (.colon,0),(.number 0,0),(.comma,1),(.text key,0),(.colon,0),(.text s,0),
      (.rightBrace,0)] := by
    delta textBody
    rw [String.toList_append, String.toList_append, String.toList_append, String.toList_append]
    simp only [render, List.flatMap_cons, List.flatMap_nil, List.append_nil, List.append_assoc,
      List.replicate_zero, List.nil_append, spell, List.cons_append]
    generalize key.toList = ks, s.toList = cs
    rfl
  rw [hbody]
  exact read_written (by simp [tokens, memberTokens, membersTokens])
    ⟨trivial,transitiontime_plain,trivial,rfl,trivial,hkey,trivial,hs,trivial,trivial⟩

theorem switchBody_read (on : Bool) :
    read (if on then LIGHT_ON else LIGHT_OFF).toList = some (.object [("on",.bool on)]) := by
  have hbody : (if on then LIGHT_ON else LIGHT_OFF).toList = render [(.leftBrace,0),(.text "on",0),
      (.colon,0),(.bool on,0),(.rightBrace,0)] := by
    cases on <;> decide
  have hon : ∀ c ∈ "on".toList, PlainChar c = true :=
    List.all_eq_true.mp (by decide)
  rw [hbody]
  exact read_written (by simp [tokens, memberTokens, membersTokens])
    ⟨trivial,hon,trivial,rfl,trivial,trivial⟩

/-- The mapped temperature, and the range in which the bridge takes it. -/
theorem mapped_toNat (temp : UInt16) :
    (¬(500 < Encoder.toUInt16 (Encoder.map temp.toNat 2000 6500 153 500) ∨
        Encoder.toUInt16 (Encoder.map temp.toNat 2000 6500 153 500) < 153) ↔
      1988 ≤ temp ∧ temp ≤ 6512) ∧
    (1988 ≤ temp ∧ temp ≤ 6512 →
      (Encoder.toUInt16 (Encoder.map temp.toNat 2000 6500 153 500)).toNat =
        (153 + (((temp.toNat:ℤ)-2000)*347).tdiv 4500).toNat) := by
  have htemp := temp.toNat_lt
  have hmapped : Encoder.map temp.toNat 2000 6500 153 500 =
      153 + (((temp.toNat:ℤ)-2000)*347).tdiv 4500 := by
    rw [Encoder.map, add_comm]
    norm_num
  have hquot : (2000 ≤ temp.toNat → (((temp.toNat:ℤ)-2000)*347).tdiv 4500 =
        ((temp.toNat:ℤ)-2000)*347/4500) ∧
      (temp.toNat < 2000 → (((temp.toNat:ℤ)-2000)*347).tdiv 4500 =
        -((2000-(temp.toNat:ℤ))*347/4500)) := by
    refine ⟨fun h => Int.tdiv_eq_ediv_of_nonneg (by omega),fun h => ?_⟩
    rw [show ((temp.toNat:ℤ)-2000)*347 = -((2000-(temp.toNat:ℤ))*347) by omega, Int.neg_tdiv,
      Int.tdiv_eq_ediv_of_nonneg (by omega)]
  rw [hmapped]
  generalize (((temp.toNat:ℤ)-2000)*347).tdiv 4500 = q at *
  simp only [UInt16.lt_iff_toNat_lt, UInt16.le_iff_toNat_le, Encoder.toUInt16, UInt16.toNat_ofNat',
    show (500:UInt16).toNat = 500 from rfl, show (153:UInt16).toNat = 153 from rfl,
    show (1988:UInt16).toNat = 1988 from rfl, show (6512:UInt16).toNat = 6512 from rfl]
  obtain ⟨habove,hbelow⟩ := hquot
  by_cases h : 2000 ≤ temp.toNat
  · have hq := habove h
    have hnonneg : 0 ≤ q := by omega
    have hle : q ≤ 4900 := by omega
    rw [show (153+q)%65536 = 153+q by omega,
      Nat.mod_eq_of_lt (show (153+q).toNat < 2^16 by omega)]
    omega
  · have hq := hbelow (by omega)
    have hneg : q ≤ 0 := by omega
    have hge : -155 ≤ q := by omega
    by_cases hlow : q = -154
    · rw [hlow]
      omega
    · rw [show (153+q)%65536 = 153+q by omega,
        Nat.mod_eq_of_lt (show (153+q).toNat < 2^16 by omega)]
      omega

theorem colorTemp_body (temp : UInt16) :
    LightDials.colorTemp temp = if 1988 ≤ temp ∧ temp ≤ 6512 then
        .ok (numberBody 0 "ct" (153 + (((temp.toNat:ℤ)-2000)*347).tdiv 4500).toNat)
      else .error "Temperature out of range, 2000K-6500K only!" := by
  obtain ⟨hrange,hvalue⟩ := mapped_toNat temp
  delta LightDials.colorTemp
  dsimp only
  by_cases h : 1988 ≤ temp ∧ temp ≤ 6512
  · rw [if_neg (hrange.mpr h), if_pos h, hvalue h]
    rfl
  · rw [if_neg h, if_pos (not_not.mp fun hnot => h (hrange.mp hnot))]

def bodyOf : Target → Order → Except String String
  | _, .on => .ok LIGHT_ON
  | _, .off => .ok LIGHT_OFF
  | .light _, .brightness b => .ok (numberBody 1 "bri" b.toNat)
  | .group _, .brightness b => .ok (numberBody 0 "bri" b.toNat)
  | _, .hue h => .ok (numberBody 0 "hue" h.toNat)
  | _, .sat s => .ok (numberBody 0 "sat" s.toNat)
  | _, .colorTemp temp => LightDials.colorTemp temp
  | _, .colorLoop enable => .ok (if enable then COLOR_LOOP_ON else COLOR_LOOP_OFF)
  | _, .alert s => .ok (textBody "alert" s)
  | _, .flash => .ok (textBody "alert" "select")

theorem body_read {t : Target} {o : Order} (ho : Plain o) {body : String}
    (h : bodyOf t o = .ok body) :
    ∃ v, read body.toList = some v ∧ changeOf t v = some (meant t o) := by
  have hbri : ∀ c ∈ "bri".toList, PlainChar c = true :=
    List.all_eq_true.mp (by decide)
  have heffect : ∀ c ∈ "effect".toList, PlainChar c = true :=
    List.all_eq_true.mp (by decide)
  have halert : ∀ c ∈ "alert".toList, PlainChar c = true :=
    List.all_eq_true.mp (by decide)
  cases o with
  | on =>
    obtain rfl := Except.ok.inj h
    exact ⟨_,switchBody_read true,rfl⟩
  | off =>
    obtain rfl := Except.ok.inj h
    exact ⟨_,switchBody_read false,rfl⟩
  | brightness b =>
    cases t <;> obtain rfl := Except.ok.inj h <;> exact ⟨_,numberBody_read _ hbri b.toNat,rfl⟩
  | hue h' =>
    obtain rfl := Except.ok.inj h
    exact ⟨_,numberBody_read 0 (List.all_eq_true.mp (by decide)) h'.toNat,rfl⟩
  | sat s =>
    obtain rfl := Except.ok.inj h
    exact ⟨_,numberBody_read 0 (List.all_eq_true.mp (by decide)) s.toNat,rfl⟩
  | colorTemp temp =>
    rw [bodyOf, colorTemp_body] at h
    split at h
    · obtain rfl := Except.ok.inj h
      exact ⟨_,numberBody_read 0 (List.all_eq_true.mp (by decide)) _,rfl⟩
    · cases h
  | colorLoop enable =>
    obtain rfl := Except.ok.inj h
    cases enable
    · exact ⟨_,textBody_read "effect" "none" heffect (List.all_eq_true.mp (by decide)),rfl⟩
    · exact ⟨_,textBody_read "effect" "colorloop" heffect (List.all_eq_true.mp (by decide)),rfl⟩
  | alert s =>
    obtain rfl := Except.ok.inj h
    exact ⟨_,textBody_read "alert" s halert ho,rfl⟩
  | flash =>
    obtain rfl := Except.ok.inj h
    exact ⟨_,textBody_read "alert" "select" halert (List.all_eq_true.mp (by decide)),rfl⟩

theorem bodyOf_isOk (t : Target) (o : Order) : (∃ body, bodyOf t o = .ok body) ↔
    ∀ temp, o = .colorTemp temp → 1988 ≤ temp ∧ temp ≤ 6512 := by
  by_cases ho : ∃ temp, o = .colorTemp temp
  · obtain ⟨temp,rfl⟩ := ho
    rw [bodyOf, colorTemp_body]
    by_cases hrange : 1988 ≤ temp ∧ temp ≤ 6512
    · rw [if_pos hrange]
      exact iff_of_true ⟨_,rfl⟩ fun temp' h => Order.colorTemp.inj h ▸ hrange
    · rw [if_neg hrange]
      exact iff_of_false (fun ⟨_,h⟩ => nomatch h) fun hall => hrange (hall temp rfl)
  · refine iff_of_true ?_ fun temp h => absurd ⟨temp,h⟩ ho
    cases o with
    | colorTemp temp => exact absurd ⟨temp,rfl⟩ ho
    | brightness b => cases t <;> exact ⟨_,rfl⟩
    | on | off | hue _ | sat _ | colorLoop _ | alert _ | flash => exact ⟨_,rfl⟩

section Reading
variable {hueBridgeIP userId : String}

def put (hueBridgeIP userId : String) : Target → String → Request
  | .light id => lightPut hueBridgeIP userId id
  | .group id => groupPut hueBridgeIP userId id

theorem send_body (t : Target) (o : Order) :
    send hueBridgeIP userId t o = (bodyOf t o).map (put hueBridgeIP userId t) := by
  cases t <;> cases o <;> rfl

theorem put_read (t : Target) {body : String} {v : Json} (h : read body.toList = some v) :
    bridge hueBridgeIP userId (put hueBridgeIP userId t body) = changeOf t v := by
  cases t with
  | light id =>
    rw [bridge, put, lightPut]
    dsimp only
    rw [targetOf_light, h]
    rfl
  | group id =>
    rw [bridge, put, groupPut]
    dsimp only
    rw [targetOf_group, h]
    rfl

/-- The bridge reads what a command means, and every command is sent but a colour
temperature outside its range. -/
theorem command_read (t : Target) {o : Order} (ho : Plain o) :
    (∀ r, send hueBridgeIP userId t o = .ok r → bridge hueBridgeIP userId r = some (meant t o)) ∧
      ((∃ r, send hueBridgeIP userId t o = .ok r) ↔
        ∀ temp, o = .colorTemp temp → 1988 ≤ temp ∧ temp ≤ 6512) := by
  rw [← bodyOf_isOk t, send_body]
  cases hbody : bodyOf t o with
  | error e =>
    exact ⟨(fun _ hr => nomatch hr),iff_of_false (fun ⟨_,h⟩ => nomatch h) fun ⟨_,h⟩ => nomatch h⟩
  | ok body =>
    refine ⟨fun r hr => ?_,iff_of_true ⟨_,rfl⟩ ⟨_,rfl⟩⟩
    obtain rfl := Except.ok.inj hr
    obtain ⟨v,hv,hchange⟩ := body_read ho hbody
    rw [put_read t hv, hchange]

end Reading

/-- A colour temperature at a light. -/
theorem warm_read : ∃ r, send "https://10.0.0.2:443" "u" (.light 7) (.colorTemp 6500) = .ok r ∧
    bridge "https://10.0.0.2:443" "u" r = some (meant (.light 7) (.colorTemp 6500)) := by
  have hread := @command_read "https://10.0.0.2:443" "u" (.light 7) (.colorTemp 6500) trivial
  obtain ⟨r,hr⟩ := hread.2.mpr fun temp htemp => by
    obtain rfl := Order.colorTemp.inj htemp
    decide
  exact ⟨r,hr,hread.1 r hr⟩

end THue.HueRequests
