import THue.DialCycle
import Mathlib.Order.Bounds.Basic

/-!
# The dials of the light page

`adjustLight` keeps a brightness, a hue position and a temperature position of
its own. The hue position is meant as a ring, the temperature position as a
clamped dial, and the brightness as a value read through one table for each
direction. The display task may leave any state behind between two iterations.
-/

set_option autoImplicit false

namespace THue.LightDials
open THue.Globals THue.FaultRun THue.Bridge THue.Pages THue.Encoder
open THue.DialPositions
open THue.DialCycle (Iteration detent)

/-- `Hue::colorTemp`: the body of the request, or what it answers instead. -/
def colorTemp (temp : UInt16) : Except String String :=
  let ct := toUInt16 (map temp.toNat 2000 6500 153 500)
  let ctVal := "\x7b\"transitiontime\":0, \"ct\":" ++ toString ct.toNat ++ "\x7d"
  if 500 < ct ∨ ct < 153 then .error "Temperature out of range, 2000K-6500K only!" else .ok ctVal

def start (l : Light) : Adjusting := { lightId := l.id, lightBrigthness := l.brightness }

def nextBrightness (b : ℤ) : Direction → ℤ
  | .none => b
  | .up => if 254 < toInt16 (b+20) then 254 else toInt16 (b+20)
  | .down => if toInt16 (b-20) < 1 then 1 else toInt16 (b-20)

def nextHue (hueCounter : UInt8) : Direction → UInt8
  | .none => hueCounter
  | .up => if 20 ≤ hueCounter+1 then 0 else hueCounter+1
  | .down => if hueCounter-1 = 0 then 20 else hueCounter-1

def nextTemp (tempCounter : UInt8) : Direction → UInt8
  | .none => tempCounter
  | .up => if 20 < tempCounter+1 then 20 else tempCounter+1
  | .down => tempCounter-1

def hueDetent (m : Iteration) : Direction := if m.eink.RGBMode then m.input.direction else .none

def tempDetent (m : Iteration) : Direction := if m.eink.RGBMode then .none else m.input.direction

def brightnessSent (c : Adjusting) : Direction → List Command
  | .none => []
  | .up => [.brightness c.lightId (Entertainment.toUInt8
      (calcBrightness (nextBrightness c.lightBrigthness .up) true))]
  | .down => [.brightness c.lightId (Entertainment.toUInt8
      (calcBrightness (nextBrightness c.lightBrigthness .down) false))]

def hueSent (c : Adjusting) (d : Direction) : List Command :=
  if d = .none then []
  else [.hue c.lightId (toUInt16 (map (nextHue c.hueCounter d).toNat 0 20 0 65535))]

def tempAt (tempCounter : UInt8) : UInt16 := toUInt16 (map tempCounter.toNat 0 20 6500 2000)

def tempSent (c : Adjusting) (d : Direction) : List Command :=
  if d = .none then [] else [.colorTemp c.lightId (tempAt (nextTemp c.tempCounter d))]

section Stages
variable (i : Input) (c : Adjusting) (s : Eink)

theorem switchLight_mode : (switchLight i c s).loop = c ∧
    (switchLight i c s).eink.RGBMode = s.RGBMode := by
  rw [switchLight]
  split
  · exact ⟨rfl,rfl⟩
  · exact ⟨rfl,rfl⟩

theorem adjustBrightness_turn : (adjustBrightness i c s).loop =
      { c with lightBrigthness := nextBrightness c.lightBrigthness i.directionCont } ∧
    (adjustBrightness i c s).eink.RGBMode = s.RGBMode ∧
    (adjustBrightness i c s).sent = brightnessSent c i.directionCont := by
  rw [adjustBrightness]
  cases i.directionCont with
  | none => exact ⟨rfl,rfl,rfl⟩
  | up => exact ⟨rfl,rfl,rfl⟩
  | down => exact ⟨rfl,rfl,rfl⟩

theorem adjustColor_turn :
    (adjustColor i c s).loop =
      { c with hueCounter := nextHue c.hueCounter (hueDetent { input := i, eink := s })
               tempCounter := nextTemp c.tempCounter (tempDetent { input := i, eink := s }) } ∧
    (adjustColor i c s).sent = hueSent c (hueDetent { input := i, eink := s }) ++
      tempSent c (tempDetent { input := i, eink := s }) := by
  rw [adjustColor, hueDetent, tempDetent]
  dsimp only
  cases s.RGBMode with
  | true => cases i.direction <;> exact ⟨rfl,rfl⟩
  | false => cases i.direction <;> exact ⟨rfl,rfl⟩

end Stages

def adjusted (c : Adjusting) (m : Iteration) : Turn Adjusting := adjustLight m.input c m.eink

theorem adjusted_turn (c : Adjusting) (m : Iteration) :
    (adjusted c m).loop =
      { c with lightBrigthness := nextBrightness c.lightBrigthness m.input.directionCont
               hueCounter := nextHue c.hueCounter (hueDetent m)
               tempCounter := nextTemp c.tempCounter (tempDetent m) } ∧
    (adjusted c m).sent = (switchLight m.input c m.eink).sent ++
      (brightnessSent c m.input.directionCont ++
        (hueSent c (hueDetent m) ++ tempSent c (tempDetent m))) := by
  obtain ⟨hc,hmode⟩ := switchLight_mode m.input c m.eink
  let t := switchLight m.input c m.eink
  obtain ⟨hbright,hmode',hsent⟩ := adjustBrightness_turn m.input t.loop t.eink
  let u := t.andThen (adjustBrightness m.input)
  obtain ⟨hcolor,hsent'⟩ := adjustColor_turn m.input u.loop u.eink
  have hu : u.loop = { c with
      lightBrigthness := nextBrightness c.lightBrigthness m.input.directionCont } := by
    rw [show u.loop = _ from hbright, show t.loop = c from hc]
  have hrgb : u.eink.RGBMode = m.eink.RGBMode := hmode'.trans hmode
  have hhue : hueDetent { input := m.input, eink := u.eink } = hueDetent m := by
    rw [hueDetent, hueDetent, hrgb]
  have htemp : tempDetent { input := m.input, eink := u.eink } = tempDetent m := by
    rw [tempDetent, tempDetent, hrgb]
  rw [hhue, htemp, hu] at hsent'
  rw [hhue, htemp] at hcolor
  refine ⟨hcolor.trans (by rw [hu]),?_⟩
  rw [show (adjusted c m).sent = t.sent ++ (adjustBrightness m.input t.loop t.eink).sent ++
    (adjustColor m.input u.loop u.eink).sent from rfl, hsent, hu, hsent', List.append_assoc,
    show t.loop = c from hc]
  rfl

/-- The variables of the loop, the last detent of the lower dial in each mode
with the position before it, and the brightness last sent, at first the light's own. -/
structure Turned where
  loop : Adjusting
  hued : Option (Direction × UInt8) := none
  warmed : Option (Direction × UInt8) := none
  brightness : ℤ

def begun (l : Light) : Turned := { loop := start l, brightness := l.brightness }

def hues (cs : List Command) : List (UInt8 × ℤ) :=
  cs.filterMap fun
    | .hue id v => some (id,v.toNat)
    | _ => none

def temps (cs : List Command) : List (UInt8 × UInt16) :=
  cs.filterMap fun
    | .colorTemp id v => some (id,v)
    | _ => none

def brightnesses (cs : List Command) : List ℤ :=
  cs.filterMap fun
    | .brightness _ v => some v.toNat
    | _ => none

def turn (w : Turned) (m : Iteration) : Except Fault Turned :=
  let t := adjusted w.loop m
  .ok { loop := t.loop
        hued := if hueDetent m = .none then w.hued else some (hueDetent m,w.loop.hueCounter)
        warmed := if tempDetent m = .none then w.warmed else some (tempDetent m,w.loop.tempCounter)
        brightness := (brightnesses t.sent).getLastD w.brightness }

theorem switchLight_sent (i : Input) (c : Adjusting) (s : Eink) :
    (switchLight i c s).sent = [] ∨ ∃ id, (switchLight i c s).sent = [.lightOn id] ∨
      (switchLight i c s).sent = [.lightOff id] := by
  rw [switchLight]
  split
  · exact Or.inl rfl
  · dsimp only
    split
    · exact Or.inr ⟨_,Or.inr rfl⟩
    · exact Or.inr ⟨_,Or.inl rfl⟩

theorem adjusted_filter {β : Type} {f : Command → Option β} (hon : ∀ id, f (.lightOn id) = none)
    (hoff : ∀ id, f (.lightOff id) = none) (c : Adjusting) (m : Iteration) :
    (adjusted c m).sent.filterMap f = (brightnessSent c m.input.directionCont).filterMap f ++
      ((hueSent c (hueDetent m)).filterMap f ++ (tempSent c (tempDetent m)).filterMap f) := by
  rw [(adjusted_turn c m).2]
  have hswitch : (switchLight m.input c m.eink).sent.filterMap f = [] := by
    obtain h | ⟨id,h | h⟩ := switchLight_sent m.input c m.eink
    · rw [h, List.filterMap_nil]
    · rw [h, List.filterMap_cons_none (hon id), List.filterMap_nil]
    · rw [h, List.filterMap_cons_none (hoff id), List.filterMap_nil]
  rw [List.filterMap_append, List.filterMap_append, List.filterMap_append, hswitch,
    List.nil_append]

theorem adjusted_hues (c : Adjusting) (m : Iteration) :
    hues (adjusted c m).sent = hues (hueSent c (hueDetent m)) := by
  rw [hues, adjusted_filter (fun _ => rfl) fun _ => rfl]
  cases m.input.directionCont <;> cases tempDetent m <;> simp [brightnessSent, tempSent, hues]

theorem adjusted_temps (c : Adjusting) (m : Iteration) :
    temps (adjusted c m).sent = temps (tempSent c (tempDetent m)) := by
  rw [temps, adjusted_filter (fun _ => rfl) fun _ => rfl]
  cases m.input.directionCont <;> cases hueDetent m <;> simp [brightnessSent, hueSent, temps]

theorem adjusted_brightnesses (c : Adjusting) (m : Iteration) :
    brightnesses (adjusted c m).sent =
      brightnesses (brightnessSent c m.input.directionCont) := by
  rw [brightnesses, adjusted_filter (fun _ => rfl) fun _ => rfl]
  cases hueDetent m <;> cases tempDetent m <;> simp [hueSent, tempSent, brightnesses]

/-- One detent turns back the other. -/
def Opposite (d e : Direction) : Prop := d = .up ∧ e = .down ∨ d = .down ∧ e = .up

/-- Positions 0 and 20 are the same hue. -/
def SameHue (p q : UInt8) : Prop := p = q ∨ p = 0 ∧ q = 20 ∨ p = 20 ∧ q = 0

/-- An iteration stays on the ring, sends the position's hue untruncated, and
undoes the last detent by the opposite one. -/
structure OnRing (w : Turned) (m : Iteration) : Prop where
  inside : (adjusted w.loop m).loop.hueCounter ≤ 20
  sent : hues (adjusted w.loop m).sent = if hueDetent m = .none then [] else
    [(w.loop.lightId,map (adjusted w.loop m).loop.hueCounter.toNat 0 20 0 65535)]
  undone : ∀ d q, w.hued = some (d,q) → Opposite d (hueDetent m) →
    SameHue (adjusted w.loop m).loop.hueCounter q

/-- The dial is not turned down at 0, nor up at 20. -/
def HueFree (w : Turned) (m : Iteration) : Prop :=
  (hueDetent m = .down → w.loop.hueCounter ≠ 0) ∧ (hueDetent m = .up → w.loop.hueCounter ≠ 20)

/-- The position is the one before the last detent moved by it; only a turn down leads to 20. -/
structure Round (w : Turned) : Prop where
  inside : w.loop.hueCounter ≤ 20
  last : ∀ d q, w.hued = some (d,q) →
    q ≤ 20 ∧ place 20 w.loop.hueCounter.toNat = place 20 (q.toNat + (detent d).sum)
  top : w.loop.hueCounter = 20 → w.hued = some (.down,1)

theorem opposite_sum {d e : Direction} (h : Opposite d e) :
    (detent e).sum = -(detent d).sum := by
  obtain ⟨rfl,rfl⟩ | ⟨rfl,rfl⟩ := h <;> rfl

theorem at_position {P : UInt8 → Prop} (h : ∀ k : Fin 21, P (UInt8.ofNat k)) {p : UInt8}
    (hp : p ≤ 20) : P p := by
  have hk := h ⟨p.toNat,Nat.lt_succ_of_le (UInt8.le_iff_toNat_le.mp hp)⟩
  rwa [UInt8.ofNat_toNat] at hk

theorem nextHue_place {p : UInt8} {d : Direction} (hp : p ≤ 20) (hdown : d = .down → p ≠ 0)
    (hup : d = .up → p ≠ 20) : nextHue p d ≤ 20 ∧
      place 20 (nextHue p d).toNat = place 20 (p.toNat + (detent d).sum) := by
  cases d with
  | none => exact ⟨hp,by simp [nextHue, detent]⟩
  | up => exact at_position (P := fun p => p ≠ 20 → nextHue p .up ≤ 20 ∧
      place 20 (nextHue p .up).toNat = place 20 (p.toNat + 1)) (by decide) hp (hup rfl)
  | down => exact at_position (P := fun p => p ≠ 0 → nextHue p .down ≤ 20 ∧
      place 20 (nextHue p .down).toNat = place 20 (p.toNat + -1)) (by decide) hp (hdown rfl)

theorem nextHue_top {p : UInt8} {d : Direction} (hp : p ≤ 20) (hup : d = .up → p ≠ 20)
    (h : nextHue p d = 20) : (d = .none ∧ p = 20) ∨ (d = .down ∧ p = 1) := by
  cases d with
  | none => exact Or.inl ⟨rfl,h⟩
  | up => exact absurd h (at_position (P := fun p => p ≠ 20 → nextHue p .up ≠ 20) (by decide) hp
      (hup rfl))
  | down => exact Or.inr ⟨rfl,at_position (P := fun p => nextHue p .down = 20 → p = 1)
      (by decide) hp h⟩

theorem sameHue_of_place {p q : UInt8} (hp : p ≤ 20) (hq : q ≤ 20)
    (h : place 20 p.toNat = place 20 q.toNat) : SameHue p q := by
  have hp : p.toNat ≤ 20 := UInt8.le_iff_toNat_le.mp hp
  have hq : q.toNat ≤ 20 := UInt8.le_iff_toNat_le.mp hq
  rw [place_eq_iff (by decide)] at h
  simp only [SameHue, ← UInt8.toNat_inj]
  show p.toNat = q.toNat ∨ p.toNat = 0 ∧ q.toNat = 20 ∨ p.toNat = 20 ∧ q.toNat = 0
  omega

theorem hue_fits {p : UInt8} (hp : p ≤ 20) :
    ((toUInt16 (map p.toNat 0 20 0 65535)).toNat : ℤ) = map p.toNat 0 20 0 65535 :=
  at_position (P := fun p =>
    ((toUInt16 (map p.toNat 0 20 0 65535)).toNat : ℤ) = map p.toNat 0 20 0 65535) (by decide) hp

theorem adjusted_hue (c : Adjusting) (m : Iteration) :
    (adjusted c m).loop.hueCounter = nextHue c.hueCounter (hueDetent m) := by
  rw [(adjusted_turn c m).1]

theorem onRing_iff {w : Turned} {m : Iteration} (hw : Round w) : OnRing w m ↔ HueFree w m := by
  constructor
  · rintro ⟨hinside,-,hundone⟩
    rw [adjusted_hue] at hinside hundone
    refine ⟨fun hd hzero => ?_,fun hd htop => ?_⟩
    · rw [hd, hzero] at hinside
      exact absurd hinside (by decide)
    · have hback := hundone .down 1 (hw.top htop) (Or.inr ⟨rfl,hd⟩)
      rw [hd, htop] at hback
      exact absurd hback (by unfold SameHue; decide)
  · rintro ⟨hdown,hup⟩
    obtain ⟨hle,hplace⟩ := nextHue_place hw.inside hdown hup
    refine ⟨?_,?_,fun d q hlast ho => ?_⟩
    · rw [adjusted_hue]
      exact hle
    · rw [adjusted_hues, adjusted_hue, hueSent]
      split
      · rfl
      · exact congrArg (fun v => [(w.loop.lightId,v)]) (hue_fits hle)
    · obtain ⟨hq,hmoved⟩ := hw.last d q hlast
      rw [adjusted_hue]
      refine sameHue_of_place hle hq ?_
      rw [hplace, ← place_add (by decide), hmoved, place_add (by decide), opposite_sum ho,
        add_neg_cancel_right]

theorem turn_round {w v : Turned} {m : Iteration} (hw : Round w) (hm : HueFree w m)
    (h : turn w m = .ok v) : Round v := by
  cases h
  obtain ⟨hle,hplace⟩ := nextHue_place hw.inside hm.1 hm.2
  refine ⟨by rw [adjusted_hue]; exact hle,fun d q hlast => ?_,fun htop => ?_⟩
  · dsimp only at hlast ⊢
    rw [adjusted_hue]
    split at hlast
    · next hd =>
      rw [hd]
      exact hw.last d q hlast
    · obtain ⟨rfl,rfl⟩ := Prod.mk.inj (Option.some.inj hlast)
      exact ⟨hw.inside,hplace⟩
  · dsimp only at htop ⊢
    rw [adjusted_hue] at htop
    obtain ⟨hd,hp⟩ | ⟨hd,hp⟩ := nextHue_top hw.inside hm.2 htop
    · rw [if_pos hd]
      exact hw.top hp
    · rw [hd, hp]
      rfl

theorem round_begun (l : Light) : Round (begun l) :=
  ⟨show (0:UInt8) ≤ 20 by decide,fun _ _ h => absurd h (by simp [begun]),
    fun h => absurd h (show (0:UInt8) ≠ 20 by decide)⟩

/-- The hue dial is a closed ring in exactly the runs in which it is not turned
down at 0, nor up at 20, which it reaches by a turn down from 1. -/
theorem ring_iff_free (l : Light) (ms : List Iteration) :
    Meets turn OnRing (begun l) ms ↔ Meets turn HueFree (begun l) ms :=
  meets_iff_kept (fun _ _ _ hw hm h => turn_round hw hm h) (fun _ _ hw => onRing_iff hw)
    (round_begun l)

def rgb (d : Direction) : Iteration where
  input := { direction := d }
  eink := { RGBMode := true }

/-- The first detent of the dial is a turn down. -/
theorem first_turn_down_leaves : ¬∀ (l : Light) (ms : List Iteration),
    Meets turn OnRing (begun l) ms := by
  intro h
  have hinside := (h {} [rgb .down]).1.inside
  revert hinside
  decide

/-- An iteration clamps the position, passes its temperature and sends a
request, passes no higher temperature for a turn up and no lower one for a turn
down, and undoes the last detent by the opposite one away from the ends. -/
structure Saturates (w : Turned) (m : Iteration) : Prop where
  inside : (adjusted w.loop m).loop.tempCounter ≤ 20
  position : ((adjusted w.loop m).loop.tempCounter.toNat : ℤ) =
    clamped 20 (w.loop.tempCounter.toNat + (detent (tempDetent m)).sum)
  passed : temps (adjusted w.loop m).sent = if tempDetent m = .none then [] else
    [(w.loop.lightId,tempAt (adjusted w.loop m).loop.tempCounter)]
  sent : ∀ v ∈ temps (adjusted w.loop m).sent, (colorTemp v.2).isOk = true
  up : tempDetent m = .up →
    tempAt (adjusted w.loop m).loop.tempCounter ≤ tempAt w.loop.tempCounter
  down : tempDetent m = .down →
    tempAt w.loop.tempCounter ≤ tempAt (adjusted w.loop m).loop.tempCounter
  undone : ∀ d q, w.warmed = some (d,q) → Opposite d (tempDetent m) → 0 < q → q < 20 →
    (adjusted w.loop m).loop.tempCounter = q

/-- The dial is not turned down at 0. -/
def TempFree (w : Turned) (m : Iteration) : Prop := tempDetent m = .down → w.loop.tempCounter ≠ 0

structure Warm (w : Turned) : Prop where
  inside : w.loop.tempCounter ≤ 20
  last : ∀ d q, w.warmed = some (d,q) →
    (w.loop.tempCounter.toNat : ℤ) = clamped 20 (q.toNat + (detent d).sum)

theorem nextTemp_clamped {p : UInt8} {d : Direction} (hp : p ≤ 20) (hdown : d = .down → p ≠ 0) :
    nextTemp p d ≤ 20 ∧
      ((nextTemp p d).toNat : ℤ) = clamped 20 (p.toNat + (detent d).sum) := by
  cases d with
  | none =>
    have hle := UInt8.le_iff_toNat_le.mp hp
    refine ⟨hp,?_⟩
    rw [clamped_inside (by simp [detent]) (by simpa [detent] using hle)]
    simp [nextTemp, detent]
  | up => exact at_position (P := fun p => nextTemp p .up ≤ 20 ∧
      ((nextTemp p .up).toNat : ℤ) = clamped 20 (p.toNat + 1)) (by decide) hp
  | down => exact at_position (P := fun p => p ≠ 0 → nextTemp p .down ≤ 20 ∧
      ((nextTemp p .down).toNat : ℤ) = clamped 20 (p.toNat + -1)) (by decide) hp (hdown rfl)

theorem colorTemp_sent {p : UInt8} (hp : p ≤ 20) : (colorTemp (tempAt p)).isOk = true := by
  have hct := at_position (P := fun p =>
    ¬(500 < toUInt16 (map (tempAt p).toNat 2000 6500 153 500) ∨
      toUInt16 (map (tempAt p).toNat 2000 6500 153 500) < 153)) (by decide) hp
  rw [colorTemp, if_neg hct]
  rfl

theorem tempAt_le {p q : UInt8} (hp : p ≤ 20) (hq : q ≤ 20) (h : p ≤ q) : tempAt q ≤ tempAt p :=
  at_position (P := fun p => ∀ q, q ≤ 20 → p ≤ q → tempAt q ≤ tempAt p)
    (fun k _ hq => at_position (P := fun q => UInt8.ofNat k ≤ q → tempAt q ≤ tempAt (UInt8.ofNat k))
      (by revert k; decide) hq) hp q hq h

theorem adjusted_temp (c : Adjusting) (m : Iteration) :
    (adjusted c m).loop.tempCounter = nextTemp c.tempCounter (tempDetent m) := by
  rw [(adjusted_turn c m).1]

theorem saturates_iff {w : Turned} {m : Iteration} (hw : Warm w) :
    Saturates w m ↔ TempFree w m := by
  constructor
  · intro hs hd hzero
    have hinside := hs.inside
    rw [adjusted_temp, hd, hzero] at hinside
    exact absurd hinside (by decide)
  · intro hm
    obtain ⟨hle,hclamp⟩ := nextTemp_clamped hw.inside hm
    have hpassed : temps (adjusted w.loop m).sent = if tempDetent m = .none then [] else
        [(w.loop.lightId,tempAt (adjusted w.loop m).loop.tempCounter)] := by
      rw [adjusted_temps, adjusted_temp, tempSent]
      split <;> rfl
    have hinside : (adjusted w.loop m).loop.tempCounter ≤ 20 := by
      rw [adjusted_temp]
      exact hle
    have hposition : ((adjusted w.loop m).loop.tempCounter.toNat : ℤ) =
        clamped 20 (w.loop.tempCounter.toNat + (detent (tempDetent m)).sum) := by
      rw [adjusted_temp]
      exact hclamp
    have hstay : (w.loop.tempCounter.toNat : ℤ) = clamped 20 w.loop.tempCounter.toNat :=
      (clamped_inside (by omega) (by exact_mod_cast UInt8.le_iff_toNat_le.mp hw.inside)).symm
    refine ⟨hinside,hposition,hpassed,fun v hv => ?_,fun hd => ?_,fun hd => ?_,
      fun d q hlast ho h0 h20 => ?_⟩
    · rw [hpassed] at hv
      split at hv
      · cases hv
      · obtain rfl := List.mem_singleton.mp hv
        exact colorTemp_sent hinside
    · refine tempAt_le hw.inside hinside (UInt8.le_iff_toNat_le.mpr ?_)
      have hmono := clamped_mono 20 (a := w.loop.tempCounter.toNat)
        (b := w.loop.tempCounter.toNat + (detent (tempDetent m)).sum) (by rw [hd]; simp [detent])
      omega
    · refine tempAt_le hinside hw.inside (UInt8.le_iff_toNat_le.mpr ?_)
      have hmono := clamped_mono 20 (b := w.loop.tempCounter.toNat)
        (a := w.loop.tempCounter.toNat + (detent (tempDetent m)).sum) (by rw [hd]; simp [detent])
      omega
    · have h0 := UInt8.lt_iff_toNat_lt.mp h0
      have h20 := UInt8.lt_iff_toNat_lt.mp h20
      change 0 < q.toNat at h0
      change q.toNat < 20 at h20
      have hback := clamped_cancel (m := 20) (a := q.toNat) (d := (detent d).sum) (by omega)
        (by omega) (by obtain ⟨rfl,-⟩ | ⟨rfl,-⟩ := ho <;> simp [detent])
      rw [← hw.last d q hlast, ← opposite_sum ho, ← hposition] at hback
      exact UInt8.toNat_inj.mp (by omega)

theorem turn_warm {w v : Turned} {m : Iteration} (hw : Warm w) (hm : TempFree w m)
    (h : turn w m = .ok v) : Warm v := by
  cases h
  obtain ⟨hle,hclamp⟩ := nextTemp_clamped hw.inside hm
  refine ⟨by rw [adjusted_temp]; exact hle,fun d q hlast => ?_⟩
  dsimp only at hlast ⊢
  rw [adjusted_temp]
  split at hlast
  · next hd =>
    rw [hd]
    exact hw.last d q hlast
  · obtain ⟨rfl,rfl⟩ := Prod.mk.inj (Option.some.inj hlast)
    exact hclamp

theorem warm_begun (l : Light) : Warm (begun l) :=
  ⟨show (10:UInt8) ≤ 20 by decide,fun _ _ h => absurd h (by simp [begun])⟩

/-- The temperature dial saturates in exactly the runs in which it is not turned down at 0. -/
theorem saturates_iff_free (l : Light) (ms : List Iteration) :
    Meets turn Saturates (begun l) ms ↔ Meets turn TempFree (begun l) ms :=
  meets_iff_kept (fun _ _ _ hw hm h => turn_warm hw hm h) (fun _ _ hw => saturates_iff hw)
    (warm_begun l)

def warmer : Iteration := { input := { direction := .down } }

theorem turns_down_drop (k : ℕ) {w : Turned} (hk : w.loop.tempCounter.toNat = k) :
    ¬Meets turn Saturates w (List.replicate (k+1) warmer) := by
  have htemp : (adjusted w.loop warmer).loop.tempCounter = w.loop.tempCounter-1 :=
    adjusted_temp w.loop warmer
  induction k generalizing w with
  | zero =>
    intro h
    have hzero : w.loop.tempCounter = 0 := UInt8.toNat_inj.mp hk
    have hsent := h.1.sent (w.loop.lightId,tempAt 255) (by
      rw [h.1.passed, htemp, hzero]
      exact List.mem_singleton_self _)
    exact absurd hsent (show (colorTemp (tempAt 255)).isOk ≠ true by decide)
  | succ k ih =>
    intro h
    refine ih (w := { loop := (adjusted w.loop warmer).loop
                      hued := _
                      warmed := _
                      brightness := _ }) ?_ (adjusted_temp _ warmer) h.2
    have hsub : (w.loop.tempCounter-1).toNat = (2^8 - 1 + w.loop.tempCounter.toNat) % 2^8 :=
      UInt8.toNat_sub w.loop.tempCounter 1
    have hbyte := w.loop.tempCounter.toNat_lt
    rw [htemp]
    omega

/-- Eleven detents down from position 10. -/
theorem eleven_turns_down_drop : ¬∀ (l : Light) (ms : List Iteration),
    Meets turn Saturates (begun l) ms := fun h => turns_down_drop 10 rfl (h {} _)

section Tables
variable {t x : ℤ} {rest : List ℤ}

theorem nearest_up (hsorted : (x::rest).Pairwise (· < ·)) (hx : x ≤ t) (hrest : ∃ y ∈ rest, t < y) :
    IsLeast {y | y ∈ x::rest ∧ t < y} (getNearestElementInSortedArray t true (x::rest)) := by
  induction rest generalizing x with
  | nil => simp at hrest
  | cons y rest ih =>
    obtain ⟨-,htail⟩ := List.pairwise_cons.mp hsorted
    rw [getNearestElementInSortedArray, if_pos rfl]
    by_cases hy : t < y
    · rw [if_pos ⟨hx,hy⟩]
      refine ⟨⟨by simp,hy⟩,fun z ⟨hz,htz⟩ => ?_⟩
      obtain rfl | rfl | hz := by simpa using hz
      · exact absurd htz (not_lt.mpr hx)
      · exact le_refl _
      · exact (List.rel_of_pairwise_cons htail hz).le
    · rw [if_neg fun h => hy h.2]
      have hlater : ∃ z ∈ rest, t < z :=
        ((List.exists_mem_cons_iff _ _ _).mp hrest).resolve_left hy
      obtain ⟨⟨hmem,hlt⟩,hleast⟩ := ih htail (not_lt.mp hy) hlater
      refine ⟨⟨List.mem_cons_of_mem x hmem,hlt⟩,fun z ⟨hz,htz⟩ => hleast ⟨?_,htz⟩⟩
      exact (List.mem_cons.mp hz).resolve_left fun he => absurd htz (not_lt.mpr (he ▸ hx))

theorem nearest_down (hsorted : (x::rest).Pairwise (· < ·)) (hx : x < t)
    (hrest : ∃ y ∈ rest, t ≤ y) :
    IsGreatest {y | y ∈ x::rest ∧ y < t} (getNearestElementInSortedArray t false (x::rest)) := by
  induction rest generalizing x with
  | nil => simp at hrest
  | cons y rest ih =>
    obtain ⟨hhead,htail⟩ := List.pairwise_cons.mp hsorted
    rw [getNearestElementInSortedArray, if_neg (by decide)]
    by_cases hy : t ≤ y
    · rw [if_pos ⟨hx,hy⟩]
      refine ⟨⟨by simp,hx⟩,fun z ⟨hz,hzt⟩ => ?_⟩
      obtain rfl | rfl | hz := by simpa using hz
      · exact le_refl _
      · exact absurd hzt (not_lt.mpr hy)
      · exact absurd hzt (not_lt.mpr (hy.trans (List.rel_of_pairwise_cons htail hz).le))
    · rw [if_neg fun h => hy h.2]
      have hlater : ∃ z ∈ rest, t ≤ z :=
        ((List.exists_mem_cons_iff _ _ _).mp hrest).resolve_left hy
      obtain ⟨⟨hmem,hlt⟩,hgreatest⟩ := ih htail (not_le.mp hy) hlater
      refine ⟨⟨List.mem_cons_of_mem x hmem,hlt⟩,fun z ⟨hz,hzt⟩ => ?_⟩
      obtain rfl | hz := List.mem_cons.mp hz
      · exact (hhead _ List.mem_cons_self).le.trans (hgreatest ⟨List.mem_cons_self,not_le.mp hy⟩)
      · exact hgreatest ⟨hz,hzt⟩

end Tables

section Readings
variable {a b : ℤ}

theorem calc_up (h0 : 0 ≤ a) (ha : a < 254) :
    IsLeast {y | y ∈ increaseBrightnessArr ∧ a < y} (calcBrightness a true) := by
  have hleast := @nearest_up a 0 increaseBrightnessArr.tail (by decide) h0 ⟨254,by decide,ha⟩
  have hpos : getNearestElementInSortedArray a true increaseBrightnessArr ≠ 0 :=
    (h0.trans_lt hleast.1.2).ne'
  rw [calcBrightness, if_pos rfl]
  dsimp only
  rw [if_neg hpos]
  exact hleast

theorem calc_down (h0 : 0 < a) (ha : a ≤ 254) :
    IsGreatest {y | y ∈ decreaseBrightnessArr ∧ y < a} (calcBrightness a false) := by
  rw [calcBrightness, if_neg (by decide)]
  exact @nearest_down a 0 decreaseBrightnessArr.tail (by decide) h0 ⟨254,by decide,ha⟩

theorem up_bounds (h0 : 0 ≤ a) (ha : a ≤ 254) :
    a ≤ calcBrightness a true ∧ calcBrightness a true ≤ 254 := by
  obtain hlt | rfl := lt_or_eq_of_le ha
  · obtain ⟨⟨hmem,hgt⟩,-⟩ := calc_up h0 hlt
    have hall : ∀ y ∈ increaseBrightnessArr, y ≤ 254 := by decide
    exact ⟨hgt.le,hall _ hmem⟩
  · decide

theorem down_bounds (h0 : 0 ≤ a) (ha : a ≤ 254) :
    0 ≤ calcBrightness a false ∧ calcBrightness a false ≤ a := by
  obtain hlt | rfl := lt_or_eq_of_le h0
  · obtain ⟨⟨hmem,hgt⟩,-⟩ := calc_down hlt ha
    have hall : ∀ y ∈ decreaseBrightnessArr, 0 ≤ y := by decide
    exact ⟨hall _ hmem,hgt.le⟩
  · decide

theorem up_mono (h0 : 0 ≤ a) (hab : a ≤ b) (hb : b ≤ 254) :
    calcBrightness a true ≤ calcBrightness b true := by
  obtain hlt | rfl := lt_or_eq_of_le hb
  · exact IsLeast.mono (calc_up (h0.trans hab) hlt) (calc_up h0 (hab.trans_lt hlt))
      fun y ⟨hy,hby⟩ => ⟨hy,hab.trans_lt hby⟩
  · exact (up_bounds h0 hab).2.trans (up_bounds (by decide) hb).1

theorem down_mono (h0 : 0 ≤ a) (hab : a ≤ b) (hb : b ≤ 254) :
    calcBrightness a false ≤ calcBrightness b false := by
  obtain hlt | rfl := lt_or_eq_of_le h0
  · exact IsGreatest.mono (calc_down hlt (hab.trans hb)) (calc_down (hlt.trans_le hab) hb)
      fun y ⟨hy,hya⟩ => ⟨hy,hya.trans_le hab⟩
  · exact (down_bounds h0 (hab.trans hb)).2.trans (down_bounds hab hb).1

end Readings

/-- A detent up sends no less than was sent last, a detent down no more. -/
def Follows (w : Turned) (m : Iteration) : Prop :=
  match m.input.directionCont with
  | .none => brightnesses (adjusted w.loop m).sent = []
  | .up => ∃ v, brightnesses (adjusted w.loop m).sent = [v] ∧ 0 ≤ v ∧ v ≤ 254 ∧ w.brightness ≤ v
  | .down => ∃ v, brightnesses (adjusted w.loop m).sent = [v] ∧ 0 ≤ v ∧ v ≤ 254 ∧ v ≤ w.brightness

/-- The brightness last sent lies between the readings of the two tables at the accumulator. -/
structure Shown (w : Turned) : Prop where
  positive : 0 ≤ w.loop.lightBrigthness
  inside : w.loop.lightBrigthness ≤ 254
  between : Between (calcBrightness · false) (calcBrightness · true) w.loop.lightBrigthness
    w.brightness

theorem nextBrightness_up {b : ℤ} (h0 : 0 ≤ b) (h : b ≤ 254) :
    b ≤ nextBrightness b .up ∧ nextBrightness b .up ≤ 254 := by
  have hsmall : toInt16 (b+20) = b+20 := by
    rw [toInt16, Int.bmod_eq_of_le (by omega) (by omega)]
  simp only [nextBrightness, hsmall]
  split <;> omega

theorem nextBrightness_down {b : ℤ} (h0 : 0 ≤ b) (h : b ≤ 254) :
    1 ≤ nextBrightness b .down ∧ (nextBrightness b .down = 1 ∨ nextBrightness b .down ≤ b) := by
  have hsmall : toInt16 (b-20) = b-20 := by
    rw [toInt16, Int.bmod_eq_of_le (by omega) (by omega)]
  simp only [nextBrightness, hsmall]
  split <;> omega

theorem sent_brightness {v : ℤ} (h0 : 0 ≤ v) (h : v ≤ 254) (id : UInt8) :
    brightnesses [.brightness id (Entertainment.toUInt8 v)] = [v] := by
  exact congrArg (fun x : ℤ => [x]) (Entertainment.toUInt8_cast h0 (by omega))

theorem adjusted_bright (c : Adjusting) (m : Iteration) :
    (adjusted c m).loop.lightBrigthness =
      nextBrightness c.lightBrigthness m.input.directionCont := by
  rw [(adjusted_turn c m).1]

theorem shown_after {w : Turned} {m : Iteration} {b v : ℤ}
    (hb : (adjusted w.loop m).loop.lightBrigthness = b)
    (hv : (brightnesses (adjusted w.loop m).sent).getLastD w.brightness = v) (h0 : 0 ≤ b)
    (h : b ≤ 254) (hbetween : Between (calcBrightness · false) (calcBrightness · true) b v) :
    Ends (turn w m) Shown (fun _ => True) := by
  subst hb hv
  exact ⟨h0,h,hbetween⟩

theorem turn_shown {w : Turned} {m : Iteration} (hw : Shown w) :
    Follows w m ∧ Ends (turn w m) Shown (fun _ => True) := by
  obtain ⟨h0,h254,hbetween⟩ := hw
  have hsent := adjusted_brightnesses w.loop m
  have hnext := adjusted_bright w.loop m
  rw [Follows]
  cases hd : m.input.directionCont with
  | none =>
    rw [hd] at hsent hnext
    exact ⟨hsent,shown_after hnext (by rw [hsent]; rfl) h0 h254 hbetween⟩
  | up =>
    rw [hd] at hsent hnext
    obtain ⟨hge,hle⟩ := nextBrightness_up h0 h254
    have hpos := h0.trans hge
    obtain ⟨hup,hmax⟩ := up_bounds hpos hle
    have hdown := (down_bounds hpos hle).2
    obtain ⟨hfollow,hkeep⟩ := between_up hbetween (up_mono h0 hge hle) (hdown.trans hup)
    have hone := hsent.trans (sent_brightness (hpos.trans hup) hmax w.loop.lightId)
    exact ⟨⟨_,hone,hpos.trans hup,hmax,hfollow⟩,
      shown_after hnext (by rw [hone]; rfl) hpos hle hkeep⟩
  | down =>
    rw [hd] at hsent hnext
    obtain ⟨hge,hor⟩ := nextBrightness_down h0 h254
    have hle : nextBrightness w.loop.lightBrigthness .down ≤ 254 := by omega
    have hpos : 0 ≤ nextBrightness w.loop.lightBrigthness .down := by omega
    have hup := (up_bounds hpos hle).1
    obtain ⟨hmin,hdown⟩ := down_bounds hpos hle
    -- From 0 a turn down raises the accumulator to 1, whose reading down is still 0.
    have hlo : calcBrightness (nextBrightness w.loop.lightBrigthness .down) false ≤
        calcBrightness w.loop.lightBrigthness false := by
      obtain hone | hless := hor
      · rw [hone]
        exact (show calcBrightness 1 false = 0 by decide).trans_le (down_bounds h0 h254).1
      · exact down_mono hpos hless h254
    obtain ⟨hfollow,hkeep⟩ := between_down hbetween hlo (hdown.trans hup)
    have hone := hsent.trans (sent_brightness hmin (hdown.trans hle) w.loop.lightId)
    exact ⟨⟨_,hone,hmin,hdown.trans hle,hfollow⟩,
      shown_after hnext (by rw [hone]; rfl) hpos hle hkeep⟩

/-- The brightness dial never moves the lamp the wrong way. -/
theorem brightness_follows {l : Light} (h0 : 0 ≤ l.brightness) (h : l.brightness ≤ 254)
    (ms : List Iteration) : Meets turn Follows (begun l) ms :=
  meets_of_invariant (fun _ _ hw => (turn_shown hw).1) (fun _ _ hw => (turn_shown hw).2)
    ⟨h0,h,(down_bounds h0 h).2,(up_bounds h0 h).1⟩

/-- Down from 100, up again twice, and down. -/
theorem hundred_follows : Meets turn Follows (begun { brightness := 100 })
    ([.down,.up,.up,.down].map fun d => { input := { directionCont := d } }) :=
  brightness_follows (by decide) (by decide) _

end THue.LightDials
