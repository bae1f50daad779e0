import THue.BridgeArrays
import THue.NumberText

/-!
# Light responses

The records that `getLightIds` and `getLightStates` make of what the bridge
answers, and the endpoints of a light. A response is the parsed document; a
member of a state is absent where the answer has none. What a local record holds
before it is filled is an argument.
-/

set_option autoImplicit false

namespace THue.LightResponses
open THue.Globals THue.CheckedArray THue.FaultRun THue.Entertainment THue.Bridge
open THue.BridgeArrays THue.NumberText

structure State where
  on : Option Bool := none
  bri : Option ℤ := none
  hue : Option ℤ := none
  sat : Option ℤ := none
  ct : Option ℤ := none

structure Response where
  name : String := ""
  productname : String := ""
  state : State := {}

/-- A member of the lights response. -/
structure Member where
  key : String := ""
  value : Response := {}

/-- An integer that is absent or does not fit is read as 0. -/
def asIntegral (low high : ℤ) (value : Option ℤ) : ℤ :=
  (value.filter fun n => low ≤ n ∧ n ≤ high).getD 0

def asUInt8 (value : Option ℤ) : UInt8 := toUInt8 (asIntegral 0 255 value)

def asInt16 (value : Option ℤ) : ℤ := asIntegral (-32768) 32767 value

def asBoolean (value : Option Bool) : Bool := value.getD false

def listedLight (unset : Light) (it : Member) : Light :=
  { unset with
    id := toUInt8 (strtol 0 it.key.toList)
    name := it.value.name
    on := asBoolean it.value.state.on
    brightness := asInt16 it.value.state.bri }

def getLightIds (unset : ℕ → Light) (root : List Member) (h : House) : Except Fault House :=
  Bridge.getLightIds (root.mapIdx fun i it => listedLight (unset i) it) h

/-- The record of one request in `getLightStates`, but for its id. -/
def answeredLight (unset : Light) (jsonBuffer : Response) : Light :=
  let light : Light := { unset with
    name := jsonBuffer.name
    on := asBoolean jsonBuffer.state.on
    brightness := (asUInt8 jsonBuffer.state.bri).toNat }
  if jsonBuffer.productname = "Hue white lamp" then { light with onlyDimmable := true }
  else { light with
    hue := asUInt8 jsonBuffer.state.hue
    sat := asUInt8 jsonBuffer.state.sat
    ct := asUInt8 jsonBuffer.state.ct
    onlyDimmable := false }

def getLightStates {n : ℕ} (e : ℤ → Fault) (unset : ℕ → Light) (responses : ℕ → Response)
    (lightIds : Fin 20 → UInt8) (lightCount : UInt8) (lights : Fin n → Light) :
    Except Fault (Fin n → Light) :=
  Bridge.getLightStates e (fun i => answeredLight (unset i) (responses i)) lightIds lightCount
    lights

section Endpoints
variable (hueBridgeIP userId : String)

def lightEndpoint (lightId : UInt8) : String :=
  hueBridgeIP ++ "/api/" ++ userId ++ "/lights/" ++ lightId.toNat.repr

def lightStateEndpoint (lightId : UInt8) : String :=
  hueBridgeIP ++ "/api/" ++ userId ++ "/lights/" ++ lightId.toNat.repr ++ "/state"

def resource (key : String) : String := hueBridgeIP ++ "/api/" ++ userId ++ "/lights/" ++ key

end Endpoints

def Numeral (key : String) : Prop := key.toList ≠ [] ∧ ∀ c ∈ key.toList, c.isDigit = true

/-- The decimal text of a byte, without leading zeros. -/
def ByteNumeral (key : String) : Prop := ∃ n < 256, key = Nat.repr n

/-- The ranges of the bridge. -/
structure InRange (s : State) : Prop where
  bri : ∀ v ∈ s.bri, 1 ≤ v ∧ v ≤ 254
  hue : ∀ v ∈ s.hue, 0 ≤ v ∧ v ≤ 65535
  sat : ∀ v ∈ s.sat, 0 ≤ v ∧ v ≤ 254
  ct : ∀ v ∈ s.ct, 153 ≤ v ∧ v ≤ 500

/-- The record has every value of the response. -/
structure Reads (s : State) (l : Light) : Prop where
  on : ∀ v ∈ s.on, l.on = v
  bri : ∀ v ∈ s.bri, l.brightness = v
  hue : ∀ v ∈ s.hue, (l.hue.toNat : ℤ) = v
  sat : ∀ v ∈ s.sat, (l.sat.toNat : ℤ) = v
  ct : ∀ v ∈ s.ct, (l.ct.toNat : ℤ) = v

def stored (h : House) : List Light := (List.ofFn h.lightIds).take h.allLightCount.toNat

/-- Every key is stored with an id that names its resource, distinct keys with distinct ids. -/
def Named (hueBridgeIP userId : String) (root : List Member) (h : House) : Prop :=
  ∀ unset, ∃ t, getLightIds unset root h = .ok t ∧
    List.Forall₂ (fun it l =>
      lightEndpoint hueBridgeIP userId l.id = resource hueBridgeIP userId it.key ∧
      lightStateEndpoint hueBridgeIP userId l.id = resource hueBridgeIP userId it.key ++ "/state")
      root (stored t) ∧
    ((stored t).map Light.id).Nodup

/-- Every response is stored with its values, whatever its record held before. -/
def Kept {n : ℕ} (e : ℤ → Fault) (responses : ℕ → Response) (lightIds : Fin 20 → UInt8)
    (lightCount : UInt8) (lights : Fin n → Light) : Prop :=
  ∀ unset, ∃ b, getLightStates e unset responses lightIds lightCount lights = .ok b ∧
    ∀ i < lightCount.toNat, ∃ hi : i < n, Reads (responses i).state (b ⟨i,hi⟩)

/-- The members that `getLightStates` does not read are absent, and hue and
colour temperature fit a byte. -/
def Narrow (r : Response) : Prop :=
  if r.productname = "Hue white lamp" then
    r.state.hue = none ∧ r.state.sat = none ∧ r.state.ct = none
  else (∀ v ∈ r.state.hue, v ≤ 255) ∧ ∀ v ∈ r.state.ct, v ≤ 255

instance inRange_decidable (s : State) : Decidable (InRange s) :=
  decidable_of_iff ((∀ v ∈ s.bri, 1 ≤ v ∧ v ≤ 254) ∧ (∀ v ∈ s.hue, 0 ≤ v ∧ v ≤ 65535) ∧
      (∀ v ∈ s.sat, 0 ≤ v ∧ v ≤ 254) ∧ ∀ v ∈ s.ct, 153 ≤ v ∧ v ≤ 500)
    ⟨fun ⟨hbri,hhue,hsat,hct⟩ => ⟨hbri,hhue,hsat,hct⟩,fun h => ⟨h.bri,h.hue,h.sat,h.ct⟩⟩

instance numeral_decidable (key : String) : Decidable (Numeral key) :=
  decidable_of_iff (key.toList ≠ [] ∧ key.toList.all Char.isDigit = true)
    (and_congr_right fun _ => List.all_eq_true)

instance byteNumeral_decidable (key : String) : Decidable (ByteNumeral key) :=
  inferInstanceAs (Decidable (∃ n < 256, key = Nat.repr n))

instance narrow_decidable (r : Response) : Decidable (Narrow r) :=
  inferInstanceAs (Decidable (if r.productname = "Hue white lamp" then _ ∧ _ ∧ _ else _ ∧ _))

section Records
variable {key : String} {v : ℤ} {r : Response} {root : List Member} {h : House}
variable {hueBridgeIP userId : String}

theorem listed_id (hkey : ByteNumeral key) : (toUInt8 (strtol 0 key.toList)).toNat.repr = key := by
  obtain ⟨n,hn,rfl⟩ := hkey
  have hid : ((toUInt8 (strtol 0 (Nat.toDigits 10 n))).toNat : ℤ) = n := by
    rw [strtol_toDigits, min_eq_left (by omega)]
    exact toUInt8_cast (by omega) (by omega)
  rw [Nat.toList_repr, Int.natCast_inj.mp hid]

theorem endpoint_iff (lightId : UInt8) :
    lightEndpoint hueBridgeIP userId lightId = resource hueBridgeIP userId key ↔
      lightId.toNat.repr = key :=
  String.append_right_inj _

theorem getLightIds_stored (lights : List Light) (h50 : lights.length ≤ 50) (h : House) :
    ∃ t, Bridge.getLightIds lights h = .ok t ∧ stored t = lights := by
  obtain ⟨b,hb⟩ := storeFrom_inside (.outside .lightIds) lights 0 h.lightIds (by omega)
  have hcells := (storeFrom_ok hb).2
  refine ⟨_,bind_ok.mpr ⟨b,hb,rfl⟩,?_⟩
  have hcount : (UInt8.ofNat lights.length).toNat = lights.length := by
    rw [UInt8.toNat_ofNat']
    omega
  refine List.ext_getElem ?_ fun k hk hk' => ?_
  · simp [stored, hcount, h50]
  · simp only [stored, List.getElem_take, List.getElem_ofFn, hcells]
    rw [if_pos k.zero_le, List.getD_eq_getElem?_getD, Nat.sub_zero, List.getElem?_eq_getElem hk']
    rfl

theorem named_iff (hdistinct : (root.map Member.key).Nodup) :
    Named hueBridgeIP userId root h ↔ root.length ≤ 50 ∧ ∀ it ∈ root, ByteNumeral it.key := by
  constructor
  · intro hnamed
    obtain ⟨t,-,hnames,-⟩ := hnamed fun _ => {}
    obtain ⟨hlength,hnames⟩ := List.forall₂_iff_get.mp hnames
    refine ⟨?_,fun it hit => ?_⟩
    · rw [hlength, stored, List.length_take, List.length_ofFn]
      exact min_le_right ..
    · obtain ⟨k,hk,rfl⟩ := List.getElem_of_mem hit
      have hkey := (endpoint_iff _).mp (hnames k hk (by omega)).1
      exact ⟨_,UInt8.toNat_lt _,hkey.symm⟩
  · rintro ⟨h50,hnumerals⟩ unset
    obtain ⟨t,ht,hstored⟩ := getLightIds_stored
      (root.mapIdx fun i it => listedLight (unset i) it) (by simpa using h50) h
    have hids : ∀ k (hk : k < root.length),
        (listedLight (unset k) root[k]).id.toNat.repr = root[k].key := fun k hk =>
      listed_id (hnumerals _ (List.getElem_mem hk))
    refine ⟨t,ht,?_,?_⟩
    · rw [hstored, List.forall₂_iff_get]
      refine ⟨by simp,fun k hk hk' => ?_⟩
      simp only [List.get_eq_getElem, List.getElem_mapIdx]
      have hname : lightEndpoint hueBridgeIP userId (listedLight (unset k) root[k]).id =
          resource hueBridgeIP userId root[k].key := (endpoint_iff _).mpr (hids k hk)
      exact ⟨hname,congrArg (· ++ "/state") hname⟩
    · have hkeys : ((stored t).map Light.id).map (fun b => b.toNat.repr) =
          root.map Member.key := by
        rw [hstored]
        refine List.ext_getElem (by simp) fun k hk hk' => ?_
        rw [List.length_map] at hk'
        simpa using hids k hk'
      exact List.Nodup.of_map _ (hkeys ▸ hdistinct)

theorem read_boolean {o : Option Bool} {b : Bool} (hb : b ∈ o) : asBoolean o = b := by
  rw [asBoolean, Option.mem_def.mp hb]
  rfl

theorem read_byte {o : Option ℤ} (hv : v ∈ o) :
    ((asUInt8 o).toNat : ℤ) = v ↔ 0 ≤ v ∧ v ≤ 255 := by
  rw [asUInt8, asIntegral, Option.mem_def.mp hv, Option.filter_some]
  by_cases hfits : 0 ≤ v ∧ v ≤ 255
  · rw [if_pos (decide_eq_true hfits)]
    exact iff_of_true (toUInt8_cast hfits.1 (by rw [Option.getD_some]; omega)) hfits
  · rw [if_neg (by simpa using hfits)]
    refine iff_of_false (fun h => hfits ?_) hfits
    have hzero : (0:ℤ) = v := h
    omega

theorem unread_iff {o : Option ℤ} : (∀ (b : UInt8), ∀ v ∈ o, (b.toNat : ℤ) = v) ↔ o = none := by
  constructor
  · intro h
    cases o with
    | none => rfl
    | some v =>
      have hzero : (0:ℤ) = v := h 0 v rfl
      have hone : (1:ℤ) = v := h 1 v rfl
      omega
  · rintro rfl b v hv
    cases hv

theorem answered_iff (hr : InRange r.state) :
    (∀ unset, Reads r.state (answeredLight unset r)) ↔ Narrow r := by
  rw [Narrow]
  by_cases hwhite : r.productname = "Hue white lamp"
  · rw [if_pos hwhite, ← unread_iff, ← unread_iff, ← unread_iff]
    have hlight : ∀ unset, answeredLight unset r = { unset with
        name := r.name
        on := asBoolean r.state.on
        brightness := (asUInt8 r.state.bri).toNat
        onlyDimmable := true } := fun unset => if_pos hwhite
    constructor
    · intro h
      refine ⟨fun b => ?_,fun b => ?_,fun b => ?_⟩
      · simpa only [hlight] using (h { hue := b }).hue
      · simpa only [hlight] using (h { sat := b }).sat
      · simpa only [hlight] using (h { ct := b }).ct
    · rintro ⟨hhue,hsat,hct⟩ unset
      rw [hlight]
      refine ⟨fun b hb => read_boolean hb,fun v hv => ?_,hhue _,hsat _,hct _⟩
      have hbri := hr.bri v hv
      exact (read_byte hv).mpr (by omega)
  · rw [if_neg hwhite]
    have hlight : ∀ unset, answeredLight unset r = { unset with
        name := r.name
        on := asBoolean r.state.on
        brightness := (asUInt8 r.state.bri).toNat
        hue := asUInt8 r.state.hue
        sat := asUInt8 r.state.sat
        ct := asUInt8 r.state.ct
        onlyDimmable := false } := fun unset => if_neg hwhite
    constructor
    · intro h
      have hreads := h {}
      rw [hlight] at hreads
      exact ⟨fun v hv => ((read_byte hv).mp (hreads.hue v hv)).2,
        fun v hv => ((read_byte hv).mp (hreads.ct v hv)).2⟩
    · rintro ⟨hhue,hct⟩ unset
      rw [hlight]
      refine ⟨fun b hb => read_boolean hb,fun v hv => ?_,fun v hv => ?_,fun v hv => ?_,
        fun v hv => ?_⟩
      · have hbri := hr.bri v hv
        exact (read_byte hv).mpr (by omega)
      · exact (read_byte hv).mpr ⟨(hr.hue v hv).1,hhue v hv⟩
      · have hsat := hr.sat v hv
        exact (read_byte hv).mpr (by omega)
      · have hrange := hr.ct v hv
        exact (read_byte hv).mpr ⟨by omega,hct v hv⟩

theorem reads_id {s : State} {l : Light} {id : UInt8} :
    Reads s { l with id := id } ↔ Reads s l :=
  ⟨fun h => ⟨h.on,h.bri,h.hue,h.sat,h.ct⟩,fun h => ⟨h.on,h.bri,h.hue,h.sat,h.ct⟩⟩

variable {n : ℕ} {e : ℤ → Fault} {responses : ℕ → Response} {lightIds : Fin 20 → UInt8}
variable {lightCount : UInt8} {lights : Fin n → Light}

theorem kept_iff (hrange : ∀ i < lightCount.toNat, InRange (responses i).state) :
    Kept e responses lightIds lightCount lights ↔
      lightCount.toNat ≤ min 20 n ∧ ∀ i < lightCount.toNat, Narrow (responses i) := by
  -- what a request stores, once the loop has run
  have hcell : ∀ {unset b}, getLightStates e unset responses lightIds lightCount lights = .ok b →
      ∀ i (hi : i < n), i < lightCount.toNat → lightCount.toNat ≤ 20 →
        (Reads (responses i).state (b ⟨i,hi⟩) ↔
          Reads (responses i).state (answeredLight (unset i) (responses i))) := by
    intro unset b hb i hi hcount h20
    rw [(getLightStatesFrom_ok hb).2.1 i hi (by omega) i.zero_le (by omega), reads_id]
  constructor
  · intro hkept
    obtain ⟨b,hb,hreads⟩ := hkept fun _ => {}
    have h20 : lightCount.toNat ≤ 20 := by
      by_contra hlarge
      have hin := (getLightStatesFrom_ok hb).1 (by omega)
      omega
    refine ⟨le_min h20 ?_,fun i hi => ?_⟩
    · by_contra hlarge
      obtain ⟨hn,-⟩ := hreads n (by omega)
      omega
    · refine (answered_iff (hrange i hi)).mp fun unset => ?_
      obtain ⟨c,hc,hstored⟩ := hkept fun _ => unset
      obtain ⟨hn,hread⟩ := hstored i hi
      exact (hcell hc i hn hi h20).mp hread
  · rintro ⟨hfits,hnarrow⟩ unset
    have h20 : lightCount.toNat ≤ 20 := hfits.trans (min_le_left ..)
    have hn : lightCount.toNat ≤ n := hfits.trans (min_le_right ..)
    have hruns : Ends (getLightStates e unset responses lightIds lightCount lights)
        (fun _ => True) (fun _ => False) :=
      getLightStatesFrom_inside e _ lightIds lightCount.toNat 0 lights (by omega) (by omega)
    cases hb : getLightStates e unset responses lightIds lightCount lights with
    | error _ =>
      rw [hb] at hruns
      exact hruns.elim
    | ok b =>
      refine ⟨b,rfl,fun i hi => ⟨by omega,(hcell hb i (by omega) hi h20).mpr ?_⟩⟩
      exact (answered_iff (hrange i hi)).mpr (hnarrow i hi) _

/-- Responses within the ranges of the bridge are stored faithfully exactly where
the arrays hold them, every key is the numeral of a byte, and every hue and colour
temperature is a byte that `getLightStates` reads. -/
theorem decoded_iff (hdistinct : (root.map Member.key).Nodup)
    (hrange : ∀ i < lightCount.toNat, InRange (responses i).state) :
    Named hueBridgeIP userId root h ∧ Kept e responses lightIds lightCount lights ↔
      (root.length ≤ 50 ∧ ∀ it ∈ root, ByteNumeral it.key) ∧
      lightCount.toNat ≤ min 20 n ∧ ∀ i < lightCount.toNat, Narrow (responses i) :=
  and_congr (named_iff hdistinct) (kept_iff hrange)

end Records

def mockLight : Response where
  name := "id: 1"
  productname := "Hue color lamp"
  state := { on := some false, bri := some 1, hue := some 33761, sat := some 254, ct := some 159 }

def whiteLamp : Response where
  name := "id: 255"
  productname := "Hue white lamp"
  state := { on := some true, bri := some 254 }

/-- A dim hue and a lamp without one, under the keys 1 and 255. -/
theorem two_lights_decoded :
    Named "http://10.0.0.2" "user" [⟨"1",mockLight⟩,⟨"255",whiteLamp⟩] {} ∧
    Kept (.outside .lights) (fun i => if i = 0 then
      { mockLight with state := { mockLight.state with hue := some 255 } } else whiteLamp)
      (fun i => if i = 0 then 1 else 255) 2 (fun _ : Fin 50 => {}) :=
  (decoded_iff (by decide) (by decide)).mpr (by decide +kernel)

/-- The hue of the mocked response is stored as 0. -/
theorem mocked_hue_lost : ¬∀ (hueBridgeIP userId : String) (root : List Member) (h : House)
    (responses : ℕ → Response) (lightIds : Fin 20 → UInt8) (lightCount : UInt8)
    (lights : Fin 50 → Light), (∀ it ∈ root, Numeral it.key) → (root.map Member.key).Nodup →
      (∀ it ∈ root, InRange it.value.state) →
      (∀ i < lightCount.toNat, InRange (responses i).state) →
      Named hueBridgeIP userId root h ∧
        Kept (.outside .lights) responses lightIds lightCount lights := by
  intro hall
  have hdecoded := hall "http://10.0.0.2" "user" [⟨"1",mockLight⟩] {} (fun _ => mockLight)
    (fun _ => 1) 1 (fun _ => {}) (by decide) (by decide) (by decide) (by decide)
  have hnarrow := ((kept_iff (by decide)).mp hdecoded.2).2 0 (by decide)
  exact absurd hnarrow (by decide)

/-- A leading zero makes the key octal, and an id wraps at 256. -/
example : (listedLight {} ⟨"010",{}⟩).id = 8 ∧ (listedLight {} ⟨"257",{}⟩).id = 1 := by decide

end THue.LightResponses
