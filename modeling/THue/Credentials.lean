import Mathlib.Logic.Function.Basic
import Mathlib.Data.Int.Notation
import Mathlib.Algebra.GroupWithZero.Nat

/-!
# The user id and the client key of the bridge

`getNewIds` keeps two texts in memory and in the database, which the bridge
issues as a pair. The database holds for a path the text that `stringData()`
gives, which is empty for a missing node. How each access ends and what the
bridge answers are arguments; `Firebase.ready()` is taken to hold at last.
-/

set_option autoImplicit false

namespace THue.Credentials

structure Pair where
  userId : String := ""
  clientKey : String := ""
  deriving DecidableEq, Repr

/-- The halves of `new` that `a` and `b` let through, over `old`. -/
def halves (a b : Bool) (new old : Pair) : Pair where
  userId := if a then new.userId else old.userId
  clientKey := if b then new.clientKey else old.clientKey

section Halves
variable {a b : Bool} {new old : Pair}

theorem halves_old : halves a b new old = old ↔
    (a = true → new.userId = old.userId) ∧ (b = true → new.clientKey = old.clientKey) := by
  obtain ⟨u,k⟩ := old
  cases a <;> cases b <;> simp [halves]

theorem halves_new : halves a b new old = new ↔
    (a = false → new.userId = old.userId) ∧ (b = false → new.clientKey = old.clientKey) := by
  obtain ⟨u,k⟩ := new
  cases a <;> cases b <;> simp [halves, eq_comm]

theorem halves_whole (a b : Bool) (new old : Pair) :
    (halves a b new old = old ∨ halves a b new old = new) ↔
    a = b ∨ new.userId = old.userId ∨ new.clientKey = old.clientKey := by
  rw [halves_old, halves_new]
  cases a <;> cases b <;> simp [or_comm]

end Halves

/-- A document as `deserializeJson` leaves it; `null` also when it cannot be parsed. -/
inductive Json where
  | null
  | bool (b : Bool)
  | number (digits : String)
  | text (s : String)
  | array (elements : List Json)
  | object (members : List (String × Json))

def Json.element : Json → ℕ → Json
  | .array l, i => l.getD i .null
  | _, _ => .null

def Json.member : Json → String → Json
  | .object l, key => (l.lookup key).getD .null
  | _, _ => .null

/-- `as<String>()`; `serialize` is what it writes for a value that is neither
missing nor a text. -/
def Json.asString (serialize : Json → String) : Json → String
  | .null => "null"
  | .text s => s
  | j => serialize j

def Json.asText : Json → Option String
  | .text s => some s
  | _ => none

structure Answer where
  httpResponseCode : ℤ := -1
  doc : Json := .null

/-- `array[0]["success"][key]`. -/
def Answer.success (a : Answer) (key : String) : Json :=
  ((a.doc.element 0).member "success").member key

def Answer.texts (serialize : Json → String) (a : Answer) : Pair where
  userId := (a.success "username").asString serialize
  clientKey := (a.success "clientkey").asString serialize

def Answer.issued (a : Answer) : Option Pair :=
  if 0 < a.httpResponseCode then
    (a.success "username").asText.bind fun userId =>
      (a.success "clientkey").asText.map fun clientKey => ⟨userId,clientKey⟩
  else none

def registerApp (serialize : Json → String) (a : Answer) (p : Pair) : Pair :=
  if 0 < a.httpResponseCode then a.texts serialize else p

abbrev Database := String → String

/-- Whether `Firebase.ready()` holds and whether the request that follows succeeds. -/
structure Access where
  ready : Bool := true
  ok : Bool := true
  deriving DecidableEq, Repr

def Access.works (a : Access) : Bool := a.ready && a.ok

def configPath (household name : String) : String := "/Hjem_" ++ household ++ "_Config/" ++ name

/-- A getter that returns true with the text read; `none` leaves its argument alone. -/
def getString (rejected : List String) (path : String) (a : Access) (db : Database) :
    Option String :=
  if a.works ∧ db path ∉ rejected then some (db path) else none

def setString (path : String) (a : Access) (id : String) (db : Database) : Database :=
  if a.works then Function.update db path id else db

def getUserId (household : String) (a : Access) (db : Database) : Option String :=
  getString ["null", ""] (configPath household "UserId") a db

def setUserId (household : String) (a : Access) (id : String) (db : Database) : Database :=
  setString (configPath household "UserId") a id db

def getClientKey (household : String) (a : Access) (db : Database) : Option String :=
  getString ["null"] (configPath household "ClientKey") a db

def setClientKey (household : String) (a : Access) (id : String) (db : Database) : Database :=
  setString (configPath household "ClientKey") a id db

/-- How the steps of `getNewIds` end. -/
structure Outcomes where
  readUserId : Access := {}
  readClientKey : Access := {}
  answer : Answer := {}
  writeUserId : Access := {}
  writeClientKey : Access := {}

structure Hue where
  ids : Pair := {}
  db : Database := fun _ => ""

def getNewIds (household : String) (serialize : Json → String) (o : Outcomes) (s : Hue) : Hue :=
  match getUserId household o.readUserId s.db with
  | some userId =>
      { s with ids :=
          ⟨userId,(getClientKey household o.readClientKey s.db).getD s.ids.clientKey⟩ }
  | none =>
      let ids := registerApp serialize o.answer s.ids
      let db := setUserId household o.writeUserId ids.userId s.db
      ⟨ids,setClientKey household o.writeClientKey ids.clientKey db⟩

def stored (household : String) (db : Database) : Pair :=
  ⟨db (configPath household "UserId"),db (configPath household "ClientKey")⟩

def registered (household : String) (o : Outcomes) (s : Hue) : Option Pair :=
  if getUserId household o.readUserId s.db = none then o.answer.issued else none

/-- Memory and database hold an old pair or one issued together, and a
registration without success changes neither. -/
structure Atomic (household : String) (o : Outcomes) (s t : Hue) : Prop where
  memory : t.ids = s.ids ∨ t.ids = stored household s.db ∨
    registered household o s = some t.ids
  database : stored household t.db = stored household s.db ∨
    registered household o s = some (stored household t.db)
  failure : getUserId household o.readUserId s.db = none → registered household o s = none →
    t.ids = s.ids ∧ stored household t.db = stored household s.db

/-- Where a step that fails is harmless. Both reads succeed, both writes of an
issued pair end alike, and after a failed registration nothing is written, or
the half concerned is the same in both pairs. -/
structure Harmless (household : String) (serialize : Json → String) (o : Outcomes) (s : Hue) :
    Prop where
  reads : (getUserId household o.readUserId s.db).isSome →
    (getClientKey household o.readClientKey s.db).isSome ∨
      (stored household s.db).userId = s.ids.userId ∨
      (stored household s.db).clientKey = s.ids.clientKey
  writes : ∀ p, registered household o s = some p →
    o.writeUserId.works = o.writeClientKey.works ∨ p.userId = (stored household s.db).userId ∨
      p.clientKey = (stored household s.db).clientKey
  failure : getUserId household o.readUserId s.db = none → registered household o s = none →
    (0 < o.answer.httpResponseCode → o.answer.texts serialize = s.ids) ∧
      (o.writeUserId.works → s.ids.userId = (stored household s.db).userId) ∧
      (o.writeClientKey.works → s.ids.clientKey = (stored household s.db).clientKey)

section Steps
variable {household : String} {serialize : Json → String} {o : Outcomes} {s : Hue}

theorem configPath_inj {a b : String} :
    configPath household a = configPath household b ↔ a = b := by
  rw [configPath, configPath, String.append_right_inj]

theorem getString_some {rejected : List String} {path id : String} {a : Access} {db : Database}
    (h : getString rejected path a db = some id) : db path = id := by
  rw [getString] at h
  split at h
  · exact Option.some.inj h
  · cases h

theorem stored_setClientKey (p : Pair) (db : Database) :
    stored household (setClientKey household o.writeClientKey p.clientKey
      (setUserId household o.writeUserId p.userId db)) =
      halves o.writeUserId.works o.writeClientKey.works p (stored household db) := by
  have hne : configPath household "UserId" ≠ configPath household "ClientKey" := by
    simp [configPath_inj]
  rw [setClientKey, setUserId, setString, setString, stored, stored, halves]
  split <;> split <;> simp [*, hne.symm]

theorem known_ids {userId : String} (serialize : Json → String)
    (h : getUserId household o.readUserId s.db = some userId) :
    (getNewIds household serialize o s).ids =
      halves true (getClientKey household o.readClientKey s.db).isSome
        (stored household s.db) s.ids := by
  rw [getNewIds, h, halves, stored]
  cases hk : getClientKey household o.readClientKey s.db with
  | none => simp [getString_some h]
  | some clientKey => simp [getString_some h, getString_some hk]

theorem known_db {userId : String} (serialize : Json → String)
    (h : getUserId household o.readUserId s.db = some userId) :
    (getNewIds household serialize o s).db = s.db := by
  rw [getNewIds, h]

theorem unknown_ids (serialize : Json → String) (h : getUserId household o.readUserId s.db = none) :
    (getNewIds household serialize o s).ids = registerApp serialize o.answer s.ids := by
  rw [getNewIds, h]

theorem unknown_db (serialize : Json → String) (h : getUserId household o.readUserId s.db = none) :
    stored household (getNewIds household serialize o s).db =
      halves o.writeUserId.works o.writeClientKey.works (registerApp serialize o.answer s.ids)
        (stored household s.db) := by
  rw [getNewIds, h]
  exact stored_setClientKey _ _

theorem asString_asText {j : Json} {text : String} (h : j.asText = some text) :
    j.asString serialize = text := by
  cases j with
  | text s => exact Option.some.inj h
  | null | bool b | number d | array l | object l => cases h

theorem registerApp_issued {a : Answer} {p : Pair} (serialize : Json → String)
    (h : a.issued = some p) (old : Pair) :
    registerApp serialize a old = p := by
  rw [Answer.issued] at h
  split at h
  · next hc =>
    obtain ⟨u,hu,h⟩ := Option.bind_eq_some_iff.mp h
    obtain ⟨k,hk,h⟩ := Option.map_eq_some_iff.mp h
    rw [registerApp, if_pos hc, Answer.texts, asString_asText hu, asString_asText hk, h]
  · cases h

theorem registered_unknown {p : Pair} (h : registered household o s = some p) :
    getUserId household o.readUserId s.db = none ∧ o.answer.issued = some p := by
  rw [registered] at h
  split at h
  · next hu => exact ⟨hu,h⟩
  · cases h

theorem registered_known {userId : String}
    (h : getUserId household o.readUserId s.db = some userId) :
    registered household o s = none := by
  rw [registered, h, if_neg (by simp)]

theorem registerApp_same {a : Answer} {p : Pair} :
    registerApp serialize a p = p ↔ (0 < a.httpResponseCode → a.texts serialize = p) := by
  rw [registerApp]
  split
  · next hc => simp [hc]
  · next hc => simp [hc]

end Steps

section Outcome
variable {household : String} {serialize : Json → String} {o : Outcomes} {s : Hue}

theorem known_atomic {userId : String}
    (h : getUserId household o.readUserId s.db = some userId) :
    Atomic household o s (getNewIds household serialize o s) ↔
      Harmless household serialize o s := by
  have hr := registered_known h
  have hids := known_ids serialize h
  have hu : getUserId household o.readUserId s.db ≠ none := by simp [h]
  have hwhole := halves_whole true (getClientKey household o.readClientKey s.db).isSome
    (stored household s.db) s.ids
  rw [← hids] at hwhole
  constructor
  · intro ha
    have hm := ha.memory
    rw [hr, or_iff_left (a := _ = stored _ _) (by simp)] at hm
    refine ⟨fun _ => (hwhole.mp hm).imp_left Eq.symm,fun p hp => ?_,fun hn => absurd hn hu⟩
    rw [hr] at hp
    cases hp
  · intro hh
    have hm := hwhole.mpr ((hh.reads (by simp [h])).imp_left Eq.symm)
    refine ⟨hm.imp_right .inl,.inl ?_,fun hn => absurd hn hu⟩
    rw [known_db serialize h]

theorem issued_atomic {p : Pair} (hr : registered household o s = some p) :
    Atomic household o s (getNewIds household serialize o s) ↔
      Harmless household serialize o s := by
  obtain ⟨hu,hp⟩ := registered_unknown hr
  have happ := registerApp_issued serialize hp s.ids
  have hids := (unknown_ids serialize hu).trans happ
  have hdb := unknown_db serialize hu
  rw [happ] at hdb
  have hwhole := halves_whole o.writeUserId.works o.writeClientKey.works p
    (stored household s.db)
  rw [← hdb] at hwhole
  have hnone : registered household o s ≠ none := by simp [hr]
  constructor
  · intro ha
    have hd := ha.database
    rw [hr, Option.some_inj, eq_comm (a := p)] at hd
    refine ⟨fun hk => ?_,fun q hq => ?_,fun _ hn => absurd hn hnone⟩
    · rw [hu] at hk
      cases hk
    · rw [hr] at hq
      cases hq
      exact hwhole.mp hd
  · intro hh
    refine ⟨.inr (.inr ?_),?_,fun _ hn => absurd hn hnone⟩
    · rw [hids, hr]
    · rw [hr, Option.some_inj, eq_comm (a := p)]
      exact hwhole.mpr (hh.writes p hr)

theorem failed_atomic (hu : getUserId household o.readUserId s.db = none)
    (hr : registered household o s = none) :
    Atomic household o s (getNewIds household serialize o s) ↔
      Harmless household serialize o s := by
  have hids := unknown_ids serialize hu
  have hdb := unknown_db serialize hu
  constructor
  · intro ha
    obtain ⟨hi,hd⟩ := ha.failure hu hr
    have hs := hids.symm.trans hi
    rw [hdb, hs, halves_old] at hd
    refine ⟨fun hk => ?_,fun p hp => ?_,fun _ _ => ⟨registerApp_same.mp hs,hd⟩⟩
    · rw [hu] at hk
      cases hk
    · rw [hr] at hp
      cases hp
  · intro hh
    obtain ⟨ht,hd⟩ := hh.failure hu hr
    have hs := registerApp_same.mpr ht
    have hi := hids.trans hs
    rw [hs] at hdb
    have he := hdb.trans (halves_old.mpr hd)
    exact ⟨.inl hi,.inl he,fun _ _ => ⟨hi,he⟩⟩

/-- `getNewIds` updates the credentials atomically exactly where its failing
steps are harmless. -/
theorem atomic_iff_harmless (household : String) (serialize : Json → String) (o : Outcomes)
    (s : Hue) : Atomic household o s (getNewIds household serialize o s) ↔
      Harmless household serialize o s := by
  cases hu : getUserId household o.readUserId s.db with
  | some userId => exact known_atomic hu
  | none =>
    cases hr : registered household o s with
    | some p => exact issued_atomic hr
    | none => exact failed_atomic hu hr

end Outcome

/-- A read that fails once makes the link button, which nobody pressed, erase
credentials that were good. -/
def stale : Outcomes where
  readUserId := { ok := false }
  answer := { httpResponseCode := 200,
              doc := .array [.object [("error",.object [("type",.number "101"),
                ("description",.text "link button not pressed")])]] }

def good : Hue where
  ids := ⟨"user","key"⟩
  db := fun path => if path = configPath "1" "UserId" then "user" else "key"

theorem credentials_erased :
    ¬Atomic "1" stale good (getNewIds "1" (fun _ => "") stale good) := by
  intro h
  have hf := h.failure (by decide +kernel) (by decide +kernel)
  revert hf
  decide +kernel

end THue.Credentials
