import THue.Globals
import THue.SlottedBuffer
import THue.FaultRun
import Mathlib.Data.List.FinRange

/-!
# The entertainment message

`initEntertainmentMode` sizes the message buffer and writes its header,
`setColorRGB` writes one slot. The decoder below states the packet format;
the bytes the firmware writes decode to the lights that were set, whatever
the buffer held before and in whatever order the slots were written.
-/

set_option autoImplicit false

namespace THue.HueStream
open THue.Globals THue.SlottedBuffer THue.FaultRun

structure Message where
  entertainment_msg : List UInt8 := []
  entertainment_num_lights : UInt8 := 0
  deriving DecidableEq

def HUE_ENTERTAINMENT_HEADER_SIZE : ℕ := 16
def HUE_ENTERTAINMENT_LIGHT_SIZE : ℕ := 9

def outside (i : ℕ) : Fault := .outside .entertainmentMsg i

/-- `std::vector::resize`: the tail is dropped or filled with zeros. -/
def resize (buf : List UInt8) (n : ℕ) : List UInt8 :=
  buf.take n ++ List.replicate (n-buf.length) 0

def hueStream : List UInt8 := [0x48,0x75,0x65,0x53,0x74,0x72,0x65,0x61,0x6d]

def initMessage (lightCount : UInt8) (s : Message) : Except Fault Message := do
  let msg := resize s.entertainment_msg
    (HUE_ENTERTAINMENT_HEADER_SIZE + lightCount.toNat * HUE_ENTERTAINMENT_LIGHT_SIZE)
  let msg ← pokes outside msg 0 hueStream
  let msg ← poke outside msg 9 0x01
  let msg ← poke outside msg 10 0x00
  let msg ← poke outside msg 11 0x00
  let msg ← poke outside msg 12 0x00
  let msg ← poke outside msg 13 0x00
  let msg ← poke outside msg 14 0x00
  let msg ← poke outside msg 15 0x00
  pure ⟨msg,lightCount⟩

/-- `lightId >> 8` and `lightId & 0xFF` are taken after promotion to `int`. -/
def setColorRGB (light_index lightId red green blue : UInt8) (s : Message) :
    Except Fault (Bool × Message) :=
  if light_index < s.entertainment_num_lights then do
    let msg_idx := HUE_ENTERTAINMENT_HEADER_SIZE +
      light_index.toNat * HUE_ENTERTAINMENT_LIGHT_SIZE
    let msg := s.entertainment_msg
    let msg ← poke outside msg (msg_idx+0) 0x00
    let msg ← poke outside msg (msg_idx+1) (UInt8.ofNat (lightId.toNat >>> 8))
    let msg ← poke outside msg (msg_idx+2) (UInt8.ofNat (lightId.toNat &&& 0xFF))
    let msg ← poke outside msg (msg_idx+3) red
    let msg ← poke outside msg (msg_idx+4) red
    let msg ← poke outside msg (msg_idx+5) green
    let msg ← poke outside msg (msg_idx+6) green
    let msg ← poke outside msg (msg_idx+7) blue
    let msg ← poke outside msg (msg_idx+8) blue
    pure (true,{ s with entertainment_msg := msg })
  else
    pure (false,s)

def slotBytes (lightId red green blue : UInt8) : List UInt8 :=
  [0x00,UInt8.ofNat (lightId.toNat >>> 8),UInt8.ofNat (lightId.toNat &&& 0xFF),
    red,red,green,green,blue,blue]

def Sized (s : Message) : Prop :=
  s.entertainment_msg.length = 16+9*s.entertainment_num_lights.toNat

def header : List UInt8 := hueStream ++ [0x01,0x00,0x00,0x00,0x00,0x00,0x00]

def headerOf (s : Message) : List UInt8 := s.entertainment_msg.take 16

def slotOf (s : Message) (l : ℕ) : List UInt8 := slot 16 9 s.entertainment_msg l

def withSlot (s : Message) (l : ℕ) (bytes : List UInt8) : Message :=
  ⟨overwrite s.entertainment_msg (16+9*l) bytes,s.entertainment_num_lights⟩

theorem resize_length (buf : List UInt8) (n : ℕ) : (resize buf n).length = n := by
  simp only [resize, List.length_append, List.length_take, List.length_replicate]
  omega

theorem initMessage_eq (n : UInt8) (s : Message) :
    initMessage n s =
      .ok ⟨overwrite (resize s.entertainment_msg (16+n.toNat*9)) 0 header,n⟩ := by
  have hl := resize_length s.entertainment_msg (16+n.toNat*9)
  have hp := pokes_inside outside (resize s.entertainment_msg (16+n.toNat*9)) header 0
    (by rw [hl]; simp [header, hueStream])
  have he : initMessage n s =
      pokes outside (resize s.entertainment_msg (16+n.toNat*9)) 0 header >>=
        fun msg => .ok ⟨msg,n⟩ := by
    simp only [initMessage, header, hueStream, List.cons_append, List.nil_append, pokes,
      bind_assoc]
    rfl
  rw [he, hp]
  rfl

theorem setColorRGB_inside (l id r g b : UInt8) (s : Message) (hs : Sized s)
    (hl : l < s.entertainment_num_lights) :
    setColorRGB l id r g b s = .ok (true,withSlot s l.toNat (slotBytes id r g b)) := by
  have hlt := UInt8.lt_iff_toNat_lt.mp hl
  have hp := pokes_inside outside s.entertainment_msg (slotBytes id r g b) (16+l.toNat*9)
    (by rw [hs]; simp only [slotBytes, List.length_cons, List.length_nil]; omega)
  have he : setColorRGB l id r g b s =
      pokes outside s.entertainment_msg (16+l.toNat*9) (slotBytes id r g b) >>=
        fun msg => .ok (true,{ s with entertainment_msg := msg }) := by
    simp only [setColorRGB, if_pos hl, slotBytes, pokes, bind_assoc]
    rfl
  rw [he, hp, Nat.mul_comm l.toNat 9]
  rfl

theorem setColorRGB_outside (l id r g b : UInt8) (s : Message)
    (hl : ¬l < s.entertainment_num_lights) : setColorRGB l id r g b s = .ok (false,s) := by
  rw [setColorRGB, if_neg hl]
  rfl

theorem withSlot_sized (s : Message) (l : ℕ) (xs : List UInt8) (hx : xs.length = 9)
    (hs : Sized s) (hl : l < s.entertainment_num_lights.toNat) : Sized (withSlot s l xs) := by
  have h := overwrite_length s.entertainment_msg xs (16+9*l) (by rw [hx, hs]; omega)
  exact h.trans hs

theorem withSlot_header (s : Message) (l : ℕ) (xs : List UInt8) (hx : xs.length = 9)
    (hs : Sized s) (hl : l < s.entertainment_num_lights.toNat) :
    headerOf (withSlot s l xs) = headerOf s :=
  overwrite_header 16 9 l _ _ hx (by rw [hs]; omega)

theorem withSlot_same (s : Message) (l : ℕ) (xs : List UInt8) (hx : xs.length = 9)
    (hs : Sized s) (hl : l < s.entertainment_num_lights.toNat) :
    slotOf (withSlot s l xs) l = xs :=
  slot_overwrite_same 16 9 l _ _ hx (by rw [hs]; omega)

theorem withSlot_other (s : Message) (l m : ℕ) (xs : List UInt8) (hx : xs.length = 9)
    (hs : Sized s) (hl : l < s.entertainment_num_lights.toNat) (hm : m ≠ l) :
    slotOf (withSlot s l xs) m = slotOf s m :=
  slot_overwrite_other 16 9 l m _ _ hx (by rw [hs]; omega) hm

theorem initMessage_started (n : UInt8) (s : Message) :
    ∃ t, initMessage n s = .ok t ∧ t.entertainment_num_lights = n ∧ Sized t ∧
      headerOf t = header := by
  have hl := resize_length s.entertainment_msg (16+n.toNat*9)
  refine ⟨_,initMessage_eq n s,rfl,?_,?_⟩
  · have h := overwrite_length (resize s.entertainment_msg (16+n.toNat*9)) header 0
      (by rw [hl]; simp [header, hueStream])
    exact h.trans (by rw [hl]; simp only [Nat.mul_comm])
  · rfl

/-- One call of `setColorRGB`. -/
structure SetCall where
  light_index : UInt8
  lightId : UInt8
  red : UInt8
  green : UInt8
  blue : UInt8

def SetCall.bytes (c : SetCall) : List UInt8 := slotBytes c.lightId c.red c.green c.blue

def SetCall.exec (s : Message) (c : SetCall) : Except Fault Message :=
  (setColorRGB c.light_index c.lightId c.red c.green c.blue s).map Prod.snd

theorem exec_inside (s : Message) (c : SetCall) (hs : Sized s)
    (hl : c.light_index < s.entertainment_num_lights) :
    c.exec s = .ok (withSlot s c.light_index.toNat c.bytes) := by
  rw [SetCall.exec, setColorRGB_inside _ _ _ _ _ s hs hl]
  rfl

theorem exec_outside (s : Message) (c : SetCall)
    (hl : ¬c.light_index < s.entertainment_num_lights) : c.exec s = .ok s := by
  rw [SetCall.exec, setColorRGB_outside _ _ _ _ _ s hl]
  rfl

/-- What every sequence of calls leaves in place; no call writes outside the
buffer, because none faults. -/
theorem calls_sized (cs : List SetCall) (s : Message) (hs : Sized s) :
    ∃ t, run SetCall.exec s cs = .ok t ∧ Sized t ∧
      t.entertainment_num_lights = s.entertainment_num_lights ∧ headerOf t = headerOf s := by
  induction cs generalizing s with
  | nil => exact ⟨s,rfl,hs,rfl,rfl⟩
  | cons c cs ih =>
    by_cases hl : c.light_index < s.entertainment_num_lights
    · have hlt := UInt8.lt_iff_toNat_lt.mp hl
      obtain ⟨t,hr,ht,hn,hh⟩ := ih _ (withSlot_sized s _ c.bytes rfl hs hlt)
      refine ⟨t,run_cons_ok.mpr ⟨_,exec_inside s c hs hl,hr⟩,ht,hn,?_⟩
      rw [hh, withSlot_header s _ c.bytes rfl hs hlt]
    · obtain ⟨t,hr,ht,hn,hh⟩ := ih s hs
      exact ⟨t,run_cons_ok.mpr ⟨_,exec_outside s c hl,hr⟩,ht,hn,hh⟩

theorem calls_slots {n : ℕ} (f : Fin n → SetCall) (hf : ∀ l, (f l).light_index.toNat = l.val)
    (ls : List (Fin n)) (s t : Message) (hs : Sized s)
    (hn : s.entertainment_num_lights.toNat = n)
    (hr : run SetCall.exec s (ls.map f) = .ok t) (m : Fin n) :
    slotOf t m.val = if m ∈ ls then (f m).bytes else slotOf s m.val := by
  induction ls generalizing s with
  | nil => cases hr; simp
  | cons l ls ih =>
    have hlt : (f l).light_index.toNat < s.entertainment_num_lights.toNat := by
      rw [hf l, hn]
      exact l.isLt
    have hl : (f l).light_index < s.entertainment_num_lights :=
      UInt8.lt_iff_toNat_lt.mpr hlt
    obtain ⟨u,hu,ht⟩ := run_cons_ok.mp hr
    rw [exec_inside s (f l) hs hl] at hu
    cases hu
    rw [ih _ (withSlot_sized s _ _ rfl hs hlt) hn ht]
    by_cases hm : m ∈ ls
    · simp [hm]
    · by_cases he : m = l
      · subst he
        rw [if_neg hm, if_pos (by simp), ← hf m]
        exact withSlot_same s _ _ rfl hs hlt
      · rw [if_neg hm, if_neg (by simp [hm, he])]
        exact withSlot_other s _ _ _ rfl hs hlt (fun h => he (Fin.ext (by rw [h, hf l])))

structure HueLight where
  id : ℕ
  red : ℕ
  green : ℕ
  blue : ℕ
  deriving DecidableEq, Repr

def bigEndian (high low : UInt8) : ℕ := 256*high.toNat+low.toNat

def decodeSlots : List UInt8 → Option (List HueLight)
  | [] => some []
  | kind::i1::i0::r1::r0::g1::g0::b1::b0::rest =>
      if kind = 0x00 then
        (decodeSlots rest).map
          (⟨bigEndian i1 i0,bigEndian r1 r0,bigEndian g1 g0,bigEndian b1 b0⟩ :: ·)
      else none
  | _ => none

/-- The packet format: magic, version 1.0, sequence, reserved, colour space
RGB, reserved, and the slots. Sequence and reserved bytes carry no meaning. -/
def decode (msg : List UInt8) : Option (List HueLight) :=
  if 16 ≤ msg.length ∧ msg.take 9 = hueStream ∧ msg[9]? = some 0x01 ∧ msg[10]? = some 0x00 ∧
      msg[14]? = some 0x00 then decodeSlots (msg.drop 16) else none

def SetCall.light (c : SetCall) : HueLight :=
  ⟨c.lightId.toNat,257*c.red.toNat,257*c.green.toNat,257*c.blue.toNat⟩

theorem bigEndian_lightId (id : UInt8) :
    bigEndian (UInt8.ofNat (id.toNat >>> 8)) (UInt8.ofNat (id.toNat &&& 0xFF)) = id.toNat := by
  have hlt := id.toNat_lt
  have hhigh : id.toNat >>> 8 = 0 := by
    rw [Nat.shiftRight_eq_div_pow]
    omega
  have hlow : id.toNat &&& 0xFF = id.toNat := by
    rw [show 0xFF = 2^8-1 by rfl, Nat.and_two_pow_sub_one_eq_mod]
    omega
  rw [hhigh, hlow]
  simp [bigEndian]

theorem decodeSlots_bytes (c : SetCall) (rest : List UInt8) :
    decodeSlots (c.bytes ++ rest) = (decodeSlots rest).map (c.light :: ·) := by
  have hid := bigEndian_lightId c.lightId
  have hch : ∀ b : UInt8, bigEndian b b = 257*b.toNat := by
    intro b
    simp only [bigEndian]
    omega
  simp only [SetCall.bytes, slotBytes, List.cons_append, List.nil_append, decodeSlots, if_pos,
    hid, hch]
  rfl

theorem decodeSlots_flatMap {ι : Type} (f : ι → SetCall) (ls : List ι) :
    decodeSlots (ls.flatMap (fun l => (f l).bytes)) = some (ls.map (fun l => (f l).light)) := by
  induction ls with
  | nil => rfl
  | cons l ls ih => rw [List.flatMap_cons, decodeSlots_bytes, ih]; rfl

theorem getElem?_headerOf (s : Message) (i : ℕ) (hi : i < 16) :
    s.entertainment_msg[i]? = (headerOf s)[i]? := (List.getElem?_take_of_lt hi).symm

theorem decode_slots {n : ℕ} (s : Message) (f : Fin n → SetCall) (hs : Sized s)
    (hn : s.entertainment_num_lights.toNat = n) (hh : headerOf s = header)
    (hf : ∀ l : Fin n, slotOf s l.val = (f l).bytes) :
    decode s.entertainment_msg = some (List.ofFn (fun l => (f l).light)) := by
  have hbody : s.entertainment_msg.drop 16 =
      (List.finRange n).flatMap (fun l => (f l).bytes) := by
    let g : ℕ → List UInt8 := fun l => if h : l < n then (f ⟨l,h⟩).bytes else []
    have hb := body_eq_flatMap 9 n (s.entertainment_msg.drop 16) g
      (by rw [List.length_drop, hs, hn]; omega)
      (fun l hl => by rw [slot_drop]; simpa [g, hl, slotOf] using hf ⟨l,hl⟩)
    rw [hb, ← List.map_coe_finRange_eq_range, List.flatMap_map]
    congr 1
    funext l
    simp [g]
  have htake : s.entertainment_msg.take 9 = hueStream := by
    have h := congrArg (List.take 9) hh
    rw [headerOf, List.take_take] at h
    exact h
  have hat : ∀ i < 16, s.entertainment_msg[i]? = header[i]? := by
    intro i hi
    rw [getElem?_headerOf s i hi, hh]
  have hlong : 16 ≤ s.entertainment_msg.length := by
    rw [hs]
    omega
  rw [decode, if_pos ⟨hlong,htake,hat 9 (by omega),hat 10 (by omega),hat 14 (by omega)⟩, hbody,
    decodeSlots_flatMap, List.ofFn_eq_map]

def setLight {n : ℕ} (light : Fin n → UInt8 × RGBCommand) (l : Fin n) : SetCall :=
  ⟨UInt8.ofNat l.val,(light l).1,(light l).2.r,(light l).2.g,(light l).2.b⟩

theorem setLight_index {n : UInt8} (light : Fin n.toNat → UInt8 × RGBCommand)
    (l : Fin n.toNat) : (setLight light l).light_index.toNat = l.val := by
  have hl := l.isLt
  have hn := n.toNat_lt
  simp only [setLight, UInt8.toNat_ofNat']
  omega

/-- From any buffer, `initEntertainmentMode` and one `setColorRGB` for each
slot, in any order, encode the lights in slot order. Later calls stay inside
the buffer, change their own slot only, and are refused beyond the last one. -/
theorem frame_round_trip (s : Message) (n : UInt8)
    (light : Fin n.toNat → UInt8 × RGBCommand) (order : Equiv.Perm (Fin n.toNat)) :
    ∃ t, initMessage n s = .ok t ∧
      (∃ u, run SetCall.exec t (((List.finRange n.toNat).map order).map (setLight light)) = .ok u ∧
        decode u.entertainment_msg = some (List.ofFn (fun l => (setLight light l).light))) ∧
      ∀ cs, ∃ v, run SetCall.exec t cs = .ok v ∧ ∀ c : SetCall,
        (c.light_index < n → ∃ w,
          setColorRGB c.light_index c.lightId c.red c.green c.blue v = .ok (true,w) ∧
          w.entertainment_num_lights = v.entertainment_num_lights ∧
          w.entertainment_msg.length = v.entertainment_msg.length ∧
          ∀ i, i < 16+9*c.light_index.toNat ∨ 16+9*c.light_index.toNat+9 ≤ i →
            w.entertainment_msg[i]? = v.entertainment_msg[i]?) ∧
        (¬c.light_index < n →
          setColorRGB c.light_index c.lightId c.red c.green c.blue v = .ok (false,v)) := by
  obtain ⟨t,ht,hn,hs,hh⟩ := initMessage_started n s
  refine ⟨t,ht,?_,?_⟩
  · obtain ⟨u,hu,hsu,hnu,hhu⟩ :=
      calls_sized (((List.finRange n.toNat).map order).map (setLight light)) t hs
    refine ⟨u,hu,?_⟩
    apply decode_slots u (setLight light) hsu (by rw [hnu, hn]) (by rw [hhu, hh])
    intro l
    rw [calls_slots (setLight light) (setLight_index light) _ t u hs (by rw [hn]) hu l, if_pos]
    rw [List.mem_map]
    exact ⟨order.symm l,List.mem_finRange _,order.apply_symm_apply l⟩
  · intro cs
    obtain ⟨v,hv,hsv,hnv,_⟩ := calls_sized cs t hs
    refine ⟨v,hv,fun c => ⟨fun hc => ?_,fun hc => ?_⟩⟩
    · have hl : c.light_index < v.entertainment_num_lights := by rw [hnv, hn]; exact hc
      have hlt := UInt8.lt_iff_toNat_lt.mp hl
      have hroom : 16+9*c.light_index.toNat+9 ≤ v.entertainment_msg.length := by
        rw [hsv]
        omega
      refine ⟨_,setColorRGB_inside _ _ _ _ _ v hsv hl,rfl,overwrite_length _ _ _ hroom,?_⟩
      rintro i (hi | hi)
      · exact getElem?_overwrite_below _ _ _ _ hroom hi
      · exact getElem?_overwrite_above _ _ _ _ hroom hi
    · apply setColorRGB_outside
      rw [hnv, hn]
      exact hc

end THue.HueStream
