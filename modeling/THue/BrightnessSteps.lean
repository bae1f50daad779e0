import THue.DialMemory
import THue.LightDials

/-!
# The steps of the brightness dials

Both pages step a brightness through the two tables. The search in a table and
the steps are stated for every table and every sequence of detents; then the
dial of the light page is compared with that of the home page.
-/

set_option autoImplicit false

namespace THue.BrightnessSteps
open THue.Globals THue.FaultRun THue.Bridge THue.Pages THue.Encoder THue.LightDials

section Search
variable {arr : List ℤ} {increase : Bool} {t x y : ℤ} {rest : List ℤ}

def Passed (increase : Bool) (t y : ℤ) : Prop := if increase then t < y else t ≤ y

theorem nearest_next (h : Passed increase t x ∨ ¬Passed increase t y) :
    getNearestElementInSortedArray t increase (x::y::rest) =
      getNearestElementInSortedArray t increase (y::rest) := by
  rw [getNearestElementInSortedArray]
  cases increase with
  | true =>
    have hpair : ¬(x ≤ t ∧ t < y) := by
      rintro ⟨hx,hy⟩
      rcases h with h | h
      · exact absurd h (not_lt.mpr hx)
      · exact h hy
    rw [if_pos rfl, if_neg hpair]
  | false =>
    have hpair : ¬(x < t ∧ t ≤ y) := by
      rintro ⟨hx,hy⟩
      rcases h with h | h
      · exact absurd h (not_le.mpr hx)
      · exact h hy
    rw [if_neg (by decide), if_neg hpair]

theorem nearest_none
    (h : (∀ y ∈ arr, Passed increase t y) ∨ ∀ y ∈ arr, ¬Passed increase t y) :
    getNearestElementInSortedArray t increase arr = 0 := by
  induction arr with
  | nil => rfl
  | cons x rest ih =>
    cases rest with
    | nil => rfl
    | cons y rest =>
      rw [nearest_next (h.imp (fun h => h x List.mem_cons_self) fun h => h y (by simp))]
      exact ih (h.imp (fun h z hz => h z (List.mem_cons_of_mem x hz))
        fun h z hz => h z (List.mem_cons_of_mem x hz))

theorem ascending_ends (hsorted : (x::y::rest).Pairwise (· < ·)) :
    (∀ z ∈ x::y::rest, x ≤ z) ∧
    ∀ z ∈ x::y::rest, z ≤ (y::rest).getLast (List.cons_ne_nil y rest) := by
  refine ⟨fun z hz => ?_,fun z hz => ?_⟩
  · rcases List.mem_cons.mp hz with rfl | hz
    · exact le_refl _
    · exact (List.rel_of_pairwise_cons hsorted hz).le
  · have hle : (x::y::rest).Pairwise (· ≤ ·) := hsorted.imp fun h => h.le
    have hlast := List.Pairwise.rel_getLast hle hz
    rwa [List.getLast_cons (List.cons_ne_nil y rest)] at hlast

/-- What the search up answers, with the ends of the table as they are indexed. -/
def NearestUp (arr : List ℤ) (hn : 2 ≤ arr.length) (t : ℤ) : Prop :=
  if arr[0] ≤ t ∧ t < arr[arr.length-1] then
    IsLeast {y | y ∈ arr ∧ t < y} (getNearestElementInSortedArray t true arr)
  else getNearestElementInSortedArray t true arr = 0

def NearestDown (arr : List ℤ) (hn : 2 ≤ arr.length) (t : ℤ) : Prop :=
  if arr[0] < t ∧ t ≤ arr[arr.length-1] then
    IsGreatest {y | y ∈ arr ∧ y < t} (getNearestElementInSortedArray t false arr)
  else getNearestElementInSortedArray t false arr = 0

theorem getElem_last (hn : 2 ≤ (x::y::rest).length) :
    (x::y::rest)[(x::y::rest).length-1] = (y::rest).getLast (List.cons_ne_nil y rest) := by
  rw [← List.getLast_eq_getElem (List.cons_ne_nil x (y::rest)),
    List.getLast_cons (List.cons_ne_nil y rest)]

theorem nearest_correct (hsorted : arr.Pairwise (· < ·)) (hn : 2 ≤ arr.length) :
    NearestUp arr hn t ∧ NearestDown arr hn t := by
  match arr, hn with
  | x::y::rest, hn =>
    obtain ⟨hfirst,hlast⟩ := ascending_ends hsorted
    have hmem := List.getLast_mem (List.cons_ne_nil y rest)
    rw [NearestUp, NearestDown, getElem_last hn]
    refine ⟨?_,?_⟩
    · split
      · next h => exact nearest_up hsorted h.1 ⟨_,hmem,h.2⟩
      · next h =>
        refine nearest_none ?_
        rcases not_and_or.mp h with h | h
        · exact Or.inl fun z hz => (not_le.mp h).trans_le (hfirst z hz)
        · exact Or.inr fun z hz hp => h (lt_of_lt_of_le hp (hlast z hz))
    · split
      · next h => exact nearest_down hsorted h.1 ⟨_,hmem,h.2⟩
      · next h =>
        refine nearest_none ?_
        rcases not_and_or.mp h with h | h
        · exact Or.inl fun z hz => (not_lt.mp h).trans (hfirst z hz)
        · exact Or.inr fun z hz hp => h (le_trans hp (hlast z hz))

end Search

def stepped (b : ℤ) (ups : List Bool) : ℤ := ups.foldl calcBrightness b

/-- A step moves a brightness between 0 and 254 in its direction, unless it is at the end. -/
structure Stepping (b : ℤ) : Prop where
  low : 0 ≤ b
  high : b ≤ 254
  raised : b ≠ 254 → b < calcBrightness b true
  top : b = 254 → calcBrightness b true = 254
  lowered : b ≠ 0 → calcBrightness b false < b
  bottom : b = 0 → calcBrightness b false = 0

theorem stepping_inside {b : ℤ} (h0 : 0 ≤ b) (h : b ≤ 254) : Stepping b := by
  refine ⟨h0,h,fun hne => ?_,?_,fun hne => ?_,?_⟩
  · exact (calc_up h0 (lt_of_le_of_ne h hne)).1.2
  · rintro rfl
    decide
  · exact (calc_down (lt_of_le_of_ne h0 (Ne.symm hne)) h).1.2
  · rintro rfl
    decide

theorem stepped_inside {b : ℤ} (h0 : 0 ≤ b) (h : b ≤ 254) (ups : List Bool) :
    0 ≤ stepped b ups ∧ stepped b ups ≤ 254 := by
  induction ups generalizing b with
  | nil => exact ⟨h0,h⟩
  | cons up ups ih =>
    obtain ⟨hlow,hhigh⟩ := DialMemory.calcBrightness_range b up
    exact ih hlow hhigh

/-- The search is right in every ascending table; every sequence of steps from
a brightness between 0 and 254 stays there, and no step up or down stands still
before the end. -/
theorem steps_searched :
    (∀ (arr : List ℤ) (hn : 2 ≤ arr.length) (t : ℤ), arr.Pairwise (· < ·) →
      NearestUp arr hn t ∧ NearestDown arr hn t) ∧
    ∀ (b : ℤ) (ups : List Bool), 0 ≤ b → b ≤ 254 → Stepping (stepped b ups) := by
  refine ⟨fun arr hn t hsorted => nearest_correct hsorted hn,fun b ups h0 h => ?_⟩
  obtain ⟨hlow,hhigh⟩ := stepped_inside h0 h ups
  exact stepping_inside hlow hhigh

/-- A table of three entries, and three steps from 120. -/
theorem three_searched : NearestUp [3,5,9] (by decide) 5 ∧ NearestDown [3,5,9] (by decide) 5 ∧
    Stepping (stepped 120 [true,true,false]) :=
  ⟨(steps_searched.1 [3,5,9] (by decide) 5 (by decide)).1,
    (steps_searched.1 [3,5,9] (by decide) 5 (by decide)).2,
    steps_searched.2 120 [true,true,false] (by decide) (by decide)⟩

def dial (up : Bool) : Direction := if up then .up else .down

def lightValues (a : ℤ) : List Bool → List ℤ
  | [] => []
  | up::ups =>
      calcBrightness (nextBrightness a (dial up)) up :: lightValues (nextBrightness a (dial up)) ups

def homeValues (b : ℤ) : List Bool → List ℤ
  | [] => []
  | up::ups => calcBrightness b up :: homeValues (calcBrightness b up) ups

def agreedRanges : List (ℤ × ℤ × ℕ) :=
  [(130,131,2),(132,132,3),(153,155,4),(156,158,5),(179,182,6),(183,186,7),(207,209,8),
    (210,212,4),(213,217,3),(238,238,4),(239,246,3),(247,250,2)]

def agreedDowns (b : ℤ) : ℕ :=
  match agreedRanges.find? (fun r => r.1 ≤ b ∧ b ≤ r.2.1) with
  | some r => r.2.2
  | none => 0

/-- All detents go up, from 248 on, or all go down and are not too many; up to
6 there are never too many. -/
def Alike (b : ℤ) (ups : List Bool) : Prop :=
  (248 ≤ b ∧ ∀ up ∈ ups, up = true) ∨
    ((∀ up ∈ ups, up = false) ∧ (b ≤ 6 ∨ ups.length ≤ agreedDowns b))

def lowered (b : ℤ) : ℕ → ℤ × ℤ
  | 0 => (b,b)
  | k+1 => (nextBrightness (lowered b k).1 .down,calcBrightness (lowered b k).2 false)

theorem at_brightness {P : ℤ → Prop} (h : ∀ b : Fin 255, P b.val) {b : ℤ} (h0 : 0 ≤ b)
    (h254 : b ≤ 254) : P b := by
  have hb := h ⟨b.toNat,by omega⟩
  rwa [show ((b.toNat : ℕ) : ℤ) = b from Int.toNat_of_nonneg h0] at hb

theorem lowered_checked : ∀ b : Fin 255, 6 < (b.val:ℤ) →
    ∀ k ∈ List.range (agreedDowns b.val+1),
      (calcBrightness (lowered b.val (k+1)).1 false = (lowered b.val (k+1)).2 ↔
        k+1 ≤ agreedDowns b.val) ∧
      (k+1 ≤ agreedDowns b.val → calcBrightness (nextBrightness (lowered b.val (k+1)).1 .up) true ≠
        calcBrightness (lowered b.val (k+1)).2 true) := by
  decide +kernel

theorem lowered_agrees {b : ℤ} (h0 : 6 < b) (h : b ≤ 254) {k : ℕ} (hk : k ≤ agreedDowns b) :
    calcBrightness (lowered b (k+1)).1 false = (lowered b (k+1)).2 ↔ k+1 ≤ agreedDowns b :=
  at_brightness (P := fun b => 6 < b → k ≤ agreedDowns b →
    (calcBrightness (lowered b (k+1)).1 false = (lowered b (k+1)).2 ↔ k+1 ≤ agreedDowns b))
    (fun b hb hk => (lowered_checked b hb k (List.mem_range.mpr (by omega))).1) (by omega) h h0 hk

theorem lowered_parts {b : ℤ} (h0 : 6 < b) (h : b ≤ 254) {k : ℕ} (hk : k+1 ≤ agreedDowns b) :
    calcBrightness (nextBrightness (lowered b (k+1)).1 .up) true ≠
      calcBrightness (lowered b (k+1)).2 true :=
  at_brightness (P := fun b => 6 < b → k+1 ≤ agreedDowns b →
    calcBrightness (nextBrightness (lowered b (k+1)).1 .up) true ≠
      calcBrightness (lowered b (k+1)).2 true)
    (fun b hb hk => (lowered_checked b hb k (List.mem_range.mpr (by omega))).2 hk) (by omega) h h0
    hk

theorem ends_checked : ∀ b : Fin 255,
    (calcBrightness (nextBrightness b.val .up) true = calcBrightness b.val true ↔
      248 ≤ (b.val:ℤ)) ∧
    (248 ≤ (b.val:ℤ) → nextBrightness b.val .up = 254 ∧ calcBrightness b.val true = 254) ∧
    ((b.val:ℤ) ≤ 6 → nextBrightness b.val .down = 1 ∧ calcBrightness b.val false = 0) := by
  decide +kernel

theorem first_up {b : ℤ} (h0 : 0 ≤ b) (h : b ≤ 254) :
    calcBrightness (nextBrightness b .up) true = calcBrightness b true ↔ 248 ≤ b :=
  at_brightness (P := fun b =>
    calcBrightness (nextBrightness b .up) true = calcBrightness b true ↔ 248 ≤ b)
    (fun b => (ends_checked b).1) h0 h

theorem up_at_top {b : ℤ} (hb : 248 ≤ b) (h : b ≤ 254) :
    nextBrightness b .up = 254 ∧ calcBrightness b true = 254 :=
  at_brightness (P := fun b => 248 ≤ b →
    nextBrightness b .up = 254 ∧ calcBrightness b true = 254)
    (fun b => (ends_checked b).2.1) (by omega) h hb

theorem down_at_bottom {b : ℤ} (h0 : 0 ≤ b) (h : b ≤ 6) :
    nextBrightness b .down = 1 ∧ calcBrightness b false = 0 :=
  at_brightness (P := fun b => b ≤ 6 →
    nextBrightness b .down = 1 ∧ calcBrightness b false = 0)
    (fun b => (ends_checked b).2.2) h0 (by omega) h

theorem alike_top (ups : List Bool) :
    lightValues 254 ups = homeValues 254 ups ↔ ∀ up ∈ ups, up = true := by
  induction ups with
  | nil => simp [lightValues, homeValues]
  | cons up ups ih =>
    obtain ⟨hnext,hcalc⟩ := up_at_top (b := 254) (by decide) (by decide)
    rw [lightValues, homeValues, List.cons.injEq, List.forall_mem_cons]
    cases up with
    | true =>
      rw [dial, if_pos rfl, hnext, hcalc, ih]
      simp
    | false =>
      have hne : calcBrightness (nextBrightness 254 (dial false)) false ≠
          calcBrightness 254 false := by decide
      exact ⟨fun h => absurd h.1 hne,fun h => absurd h.1 (by decide)⟩

theorem alike_bottom (ups : List Bool) :
    lightValues 1 ups = homeValues 0 ups ↔ ∀ up ∈ ups, up = false := by
  induction ups with
  | nil => simp [lightValues, homeValues]
  | cons up ups ih =>
    rw [lightValues, homeValues, List.cons.injEq, List.forall_mem_cons]
    cases up with
    | true =>
      have hne : calcBrightness (nextBrightness 1 (dial true)) true ≠
          calcBrightness 0 true := by decide
      exact ⟨fun h => absurd h.1 hne,fun h => absurd h.1 (by decide)⟩
    | false =>
      have hnext : nextBrightness 1 (dial false) = 1 := by decide
      have hlight : calcBrightness 1 false = 0 := by decide
      have hhome : calcBrightness 0 false = 0 := by decide
      rw [hnext, hlight, hhome, ih]
      simp

theorem alike_lowered {b : ℤ} (h0 : 6 < b) (h : b ≤ 254) {k : ℕ} (hk : k+1 ≤ agreedDowns b)
    (ups : List Bool) :
    lightValues (lowered b (k+1)).1 ups = homeValues (lowered b (k+1)).2 ups ↔
      (∀ up ∈ ups, up = false) ∧ k+1+ups.length ≤ agreedDowns b := by
  induction ups generalizing k with
  | nil => simpa [lightValues, homeValues] using hk
  | cons up ups ih =>
    rw [lightValues, homeValues, List.cons.injEq, List.forall_mem_cons, List.length_cons]
    cases up with
    | true => exact ⟨fun hs => absurd hs.1 (lowered_parts h0 h hk),
        fun hs => absurd hs.1.1 (by decide)⟩
    | false =>
      have hnext := lowered_agrees h0 h hk
      constructor
      · rintro ⟨hhead,htail⟩
        obtain ⟨hall,hlen⟩ := (ih (hnext.mp hhead)).mp htail
        exact ⟨⟨rfl,hall⟩,by omega⟩
      · rintro ⟨⟨-,hall⟩,hlen⟩
        have hk' : k+1+1 ≤ agreedDowns b := by omega
        exact ⟨hnext.mpr hk',(ih hk').mpr ⟨hall,by omega⟩⟩

theorem values_alike_iff {b : ℤ} (h0 : 0 ≤ b) (h : b ≤ 254) (ups : List Bool) :
    lightValues b ups = homeValues b ups ↔ Alike b ups := by
  cases ups with
  | nil => simp [lightValues, homeValues, Alike]
  | cons up ups =>
    rw [lightValues, homeValues, List.cons.injEq, Alike, List.forall_mem_cons,
      List.forall_mem_cons, List.length_cons]
    cases up with
    | true =>
      have hfirst := first_up h0 h
      constructor
      · rintro ⟨hhead,htail⟩
        have hb := hfirst.mp hhead
        obtain ⟨hnext,hcalc⟩ := up_at_top hb h
        rw [dial, if_pos rfl, hnext, hcalc, alike_top] at htail
        exact Or.inl ⟨hb,rfl,htail⟩
      · rintro (⟨hb,-,htail⟩ | ⟨⟨hf,-⟩,-⟩)
        · obtain ⟨hnext,hcalc⟩ := up_at_top hb h
          refine ⟨hfirst.mpr hb,?_⟩
          rw [dial, if_pos rfl, hnext, hcalc, alike_top]
          exact htail
        · exact absurd hf (by decide)
    | false =>
      rcases le_or_gt b 6 with hb | hb
      · obtain ⟨hnext,hcalc⟩ := down_at_bottom h0 hb
        rw [dial, if_neg (by decide), hnext, hcalc, alike_bottom]
        have hone : calcBrightness 1 false = 0 := by decide
        constructor
        · rintro ⟨-,htail⟩
          exact Or.inr ⟨⟨rfl,htail⟩,Or.inl hb⟩
        · rintro (⟨-,hf,-⟩ | ⟨⟨-,htail⟩,-⟩)
          · exact absurd hf (by decide)
          · exact ⟨hone,htail⟩
      · have hfirst := lowered_agrees hb h (Nat.zero_le _)
        constructor
        · rintro ⟨hhead,htail⟩
          have hk := hfirst.mp hhead
          obtain ⟨hall,hlen⟩ := (alike_lowered hb h hk ups).mp htail
          exact Or.inr ⟨⟨rfl,hall⟩,Or.inr (by omega)⟩
        · rintro (⟨-,hf,-⟩ | ⟨⟨-,hall⟩,hor⟩)
          · exact absurd hf (by decide)
          · have hlen := hor.resolve_left (not_le.mpr hb)
            have hk : 0+1 ≤ agreedDowns b := by omega
            exact ⟨hfirst.mpr hk,(alike_lowered hb h hk ups).mpr ⟨hall,by omega⟩⟩

def detents (is : List Input) : List Bool :=
  is.filterMap fun i => match i.directionCont with
    | .none => none
    | .up => some true
    | .down => some false

def sends (d : Device) : List Input → Except Fault (List Command)
  | [] => .ok []
  | i::is => do
      let (e,sent) ← iterate i d
      let later ← sends e is
      pure (sent ++ later)

/-- The loop of the light page, its accumulator at a brightness. -/
def OnLight (a : ℤ) (d : Device) : Prop :=
  d.currentScreen = .light ∧ d.eink.nav.currentScreenType = .light ∧
    match d.loop with
    | .adjusting c => c.lightBrigthness = a
    | .outside | .choosing _ | .flashing _ => False

/-- The loop of the home page with a light selected, which has a brightness. -/
def OnHome (b : ℤ) (d : Device) : Prop :=
  Chooses d.eink ∧ d.eink.house.currentLight.brightness = b ∧
    match d.loop with
    | .choosing c => c.counter ≠ d.eink.house.currentRoom.lightCounter
    | .outside | .flashing _ | .adjusting _ => False

/-- Neither another bulb is chosen nor the switch pressed. -/
def Steady (is : List Input) : Prop := ∀ i ∈ is, i.direction = .none ∧ i.pressed = false

instance steady_decidable (is : List Input) : Decidable (Steady is) :=
  inferInstanceAs (Decidable (∀ i ∈ is, _ ∧ _))

section Tasks
variable {a b : ℤ} {d : Device} {i : Input} {is : List Input}

theorem onLight_iterate (hd : OnLight a d) : ∃ p, iterate i d = .ok p ∧
    OnLight (nextBrightness a i.directionCont) p.1 ∧
    brightnesses p.2 = lightValues a (detents [i]) := by
  obtain ⟨hs,hn,hl⟩ := hd
  cases ho : d.loop with
  | outside | choosing c | flashing c =>
    rw [ho] at hl
    exact hl.elim
  | adjusting c =>
    rw [ho] at hl
    have hpage : (adjustLight i c d.eink).eink.nav.currentScreenType = .light := by
      rw [(adjustLight_dialled i c d.eink).nav]
      exact hn
    refine ⟨(adjustLight i c d.eink).iterated .adjusting,?_,⟨hpage,hpage,?_⟩,?_⟩
    · rw [iterate, ho]
      exact if_pos hs
    · show (adjusted c { input := i, eink := d.eink }).loop.lightBrigthness = _
      rw [adjusted_bright, ← hl]
    · refine (adjusted_brightnesses c { input := i, eink := d.eink }).trans ?_
      rw [← hl]
      cases hc : i.directionCont with
      | none => simp [detents, hc, brightnessSent, lightValues, brightnesses]
      | up | down =>
        simp only [detents, hc, List.filterMap_cons, List.filterMap_nil, lightValues]
        exact congrArg (fun v : ℤ => [v]) (DialMemory.calcBrightness_byte _ _)

theorem steady_turn {c : Choosing} {s : Eink} (hi : i.direction = .none ∧ i.pressed = false) :
    chooseAndAlterLightInRoom i c s = .ok (brightenChosen i (waitTurn i.millis s.uiLevel c) s) := by
  let w := waitTurn i.millis s.uiLevel c
  have hopen : openChosen i w s = .ok s := by
    rw [openChosen, if_neg]
    rintro ⟨-,hp,-⟩
    rw [hi.2] at hp
    exact absurd hp (by decide)
  have hswitch : switchChosen i w s = { loop := w, eink := s } := by
    rw [switchChosen, if_pos hi.2]
  have hchoose : ∀ c t, chooseBulb i c t = .ok { loop := c, eink := t } := fun c t => by
    rw [chooseBulb, if_pos hi.1]
  rw [chooseAndAlterLightInRoom]
  show (openChosen i w s >>= fun s => _) = _
  rw [hopen]
  show (chooseBulb i ((switchChosen i w s).andThen (brightenChosen i)).loop
    ((switchChosen i w s).andThen (brightenChosen i)).eink >>= fun u => _) = _
  rw [hchoose, hswitch]
  show Except.ok ({ brightenChosen i w s with sent := (brightenChosen i w s).sent ++ [] } :
    Turn Choosing) = _
  rw [List.append_nil]

theorem brightenChosen_selected {c : Choosing} {s : Eink}
    (hc : c.counter ≠ s.house.currentRoom.lightCounter) :
    (brightenChosen i c s).loop = c ∧ (brightenChosen i c s).eink.house.currentLight.brightness =
      (detents [i]).foldl calcBrightness s.house.currentLight.brightness ∧
    brightnesses (brightenChosen i c s).sent =
      homeValues s.house.currentLight.brightness (detents [i]) := by
  rw [brightenChosen]
  cases hd : i.directionCont with
  | none => simp [detents, hd, homeValues, brightnesses]
  | up | down =>
    simp only [detents, hd, List.filterMap_cons, List.filterMap_nil, homeValues]
    rw [if_pos hc]
    exact ⟨rfl,rfl,congrArg (fun v : ℤ => [v]) (DialMemory.calcBrightness_byte _ _)⟩

theorem onHome_iterate (hd : OnHome b d) (hi : i.direction = .none ∧ i.pressed = false) :
    ∃ p, iterate i d = .ok p ∧ OnHome ((detents [i]).foldl calcBrightness b) p.1 ∧
    brightnesses p.2 = homeValues b (detents [i]) := by
  obtain ⟨hc,hb,hl⟩ := hd
  cases ho : d.loop with
  | outside | flashing c | adjusting c =>
    rw [ho] at hl
    exact hl.elim
  | choosing c =>
    rw [ho] at hl
    let w := waitTurn i.millis d.eink.uiLevel c
    have hw : w.counter ≠ d.eink.house.currentRoom.lightCounter := by
      rw [(DialTargets.waitTurn_bulb i.millis d.eink.uiLevel c).1]
      exact hl
    obtain ⟨hloop,hbright,hsent⟩ := brightenChosen_selected (i := i) hw
    have hdialled := brightenChosen_dialled i w d.eink
    refine ⟨(brightenChosen i w d.eink).iterated .choosing,?_,⟨?_,?_,?_⟩,?_⟩
    · rw [iterate, ho]
      dsimp only
      rw [if_pos hc, steady_turn hi]
      rfl
    · show Chooses (brightenChosen i w d.eink).eink
      rw [Chooses, hdialled.nav]
      exact hc
    · rw [← hb]
      exact hbright
    · show (brightenChosen i w d.eink).loop.counter ≠
        (brightenChosen i w d.eink).eink.house.currentRoom.lightCounter
      rw [hloop, (dialled_room hdialled).2]
      exact hw
    · rw [← hb]
      exact hsent

theorem detents_cons (i : Input) (is : List Input) :
    detents (i::is) = detents [i] ++ detents is := by
  rw [detents, detents, detents, ← List.filterMap_append]
  rfl

theorem brightnesses_append (cs ds : List Command) :
    brightnesses (cs ++ ds) = brightnesses cs ++ brightnesses ds :=
  List.filterMap_append ..

theorem lightValues_append (a : ℤ) (ups : List Bool) (i : Input) :
    lightValues a (detents [i] ++ ups) =
      lightValues a (detents [i]) ++ lightValues (nextBrightness a i.directionCont) ups := by
  cases hd : i.directionCont <;> simp [detents, hd, lightValues, nextBrightness, dial]

theorem homeValues_append (b : ℤ) (ups vs : List Bool) :
    homeValues b (ups ++ vs) = homeValues b ups ++ homeValues (ups.foldl calcBrightness b) vs := by
  induction ups generalizing b with
  | nil => rfl
  | cons up ups ih => simp [homeValues, ih]

/-- Where one iteration sends the first values and keeps the state for the
later ones, a run sends them all. -/
theorem sends_values {P : ℤ → Device → Prop} {F : Input → Prop} {N : ℤ → Input → ℤ}
    {values : ℤ → List Bool → List ℤ} (hnil : ∀ b, values b [] = [])
    (hcons : ∀ b i is, values b (detents (i::is)) =
      values b (detents [i]) ++ values (N b i) (detents is))
    (hstep : ∀ b d i, P b d → F i → ∃ p, iterate i d = .ok p ∧ P (N b i) p.1 ∧
      brightnesses p.2 = values b (detents [i]))
    (hd : P b d) (his : ∀ i ∈ is, F i) :
    (sends d is).map brightnesses = .ok (values b (detents is)) := by
  induction is generalizing b d with
  | nil => exact congrArg Except.ok (hnil b).symm
  | cons i is ih =>
    obtain ⟨hi,his⟩ := List.forall_mem_cons.mp his
    obtain ⟨⟨e,sent⟩,hok,he,hsent⟩ := hstep b d i hd hi
    have hlater := ih he his
    rw [sends, hok, hcons, ← hsent]
    cases hs : sends e is with
    | error f =>
      rw [hs] at hlater
      exact absurd hlater (by simp [Except.map])
    | ok later =>
      rw [hs] at hlater
      rw [← Except.ok.inj hlater, ← brightnesses_append]
      show (sends e is >>= fun later => pure (sent ++ later)).map brightnesses = _
      rw [hs]
      rfl

theorem light_sends (hd : OnLight a d) (is : List Input) :
    (sends d is).map brightnesses = .ok (lightValues a (detents is)) := by
  refine sends_values (P := OnLight) (F := fun _ => True)
    (N := fun a i => nextBrightness a i.directionCont) (fun _ => rfl) (fun a i is => ?_)
    (fun a d i hd _ => onLight_iterate hd) hd fun _ _ => trivial
  rw [detents_cons, lightValues_append]

theorem home_sends (hd : OnHome b d) (his : Steady is) :
    (sends d is).map brightnesses = .ok (homeValues b (detents is)) := by
  refine sends_values (P := OnHome)
    (N := fun b i => (detents [i]).foldl calcBrightness b) (fun _ => rfl) (fun b i is => ?_)
    (fun b d i hd hi => onHome_iterate hd hi) hd his
  rw [detents_cons, homeValues_append]

end Tasks

/-- On both pages the same brightnesses are sent in exactly these sequences:
all detents up from a brightness of at least 248, or all down and no more than
the range of the brightness allows. -/
theorem pages_alike_iff {b : ℤ} (h0 : 0 ≤ b) (h : b ≤ 254) {d e : Device} {is js : List Input}
    (hd : OnLight b d) (he : OnHome b e) (hjs : Steady js) (hsame : detents is = detents js) :
    (sends d is).map brightnesses = (sends e js).map brightnesses ↔ Alike b (detents is) := by
  rw [light_sends hd is, home_sends he hjs, Except.ok.injEq, ← hsame]
  exact values_alike_iff h0 h (detents is)

def lightPage (l : Light) : Device :=
  { eink := { nav := { currentScreenType := .light }, house := { currentLight := l } }
    currentScreen := .light
    loop := .adjusting (start l) }

def homePage (l : Light) : Device :=
  { eink := { nav := { currentScreenType := .home }
              house := { currentLight := l, currentRoom := { lightCounter := 1 } } }
    currentScreen := .home
    loop := .choosing { counter := 0, currentLightId := l.id, roomState := true } }

theorem lightPage_on (l : Light) : OnLight l.brightness (lightPage l) := ⟨rfl,rfl,rfl⟩

theorem homePage_on (l : Light) : OnHome l.brightness (homePage l) :=
  ⟨Or.inl rfl,rfl,show (0 : UInt8) ≠ 1 by decide⟩

/-- From 156 five detents down agree. -/
theorem five_down_alike :
    (sends (lightPage { brightness := 156 }) (List.replicate 5 { directionCont := .down })).map
        brightnesses =
      (sends (homePage { brightness := 156 }) (List.replicate 5 { directionCont := .down })).map
        brightnesses :=
  (pages_alike_iff (b := 156) (by decide) (by decide) (lightPage_on { brightness := 156 })
    (homePage_on { brightness := 156 }) (by decide) rfl).mpr
      (Or.inr ⟨by decide,Or.inr (by decide)⟩)

/-- One detent up from 100 sends 122 on the light page and 106 on the home page. -/
theorem one_up_apart : ¬∀ (l : Light) (is : List Input), 0 ≤ l.brightness →
    l.brightness ≤ 254 → Steady is → (sends (lightPage l) is).map brightnesses =
      (sends (homePage l) is).map brightnesses := by
  intro hall
  have hsame := hall { brightness := 100 } [{ directionCont := .up }] (by decide) (by decide)
    (by decide)
  revert hsame
  decide +kernel

end THue.BrightnessSteps
