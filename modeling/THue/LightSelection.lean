import THue.SelectablePaging
import THue.SelectionList
import Mathlib.Data.List.Perm.Subperm

/-!
# Selecting the lights of a behavior

The selection is kept twice: as the list in the behavior and as the frames of
the buttons. A run opens the list of selectable lights, turns its pages and
presses its light buttons, in whatever cell they stand.
-/

set_option autoImplicit false

namespace THue.LightSelection
open THue.Globals THue.Entertainment THue.CheckedArray THue.FaultRun THue.TouchScreen THue.Bridge
open THue.Pages THue.PagedLists THue.PagedLists.PagedList THue.SelectionList

inductive Move where
  | open (a : Answers)
  | press (a : Answers) (i : Fin 30)

/-- A light button below `buttonCount`. -/
def Live (s : Eink) (i : Fin 30) : Prop :=
  (i.val:ℤ) < s.screen.buttonCount ∧ (s.screen.buttons i).event = some .selectLight

def press (a : Answers) (i : Fin 30) (s : Eink) : Except Fault Eink :=
  let t := { s with pressedButton := s.screen.buttons i }
  if (i.val:ℤ) < s.screen.buttonCount then
    match (s.screen.buttons i).event with
    | some .selectLight => handle a (s.screen.buttons i).id i t .selectLight
    | some .drawNextPage => handle a (s.screen.buttons i).id i t .drawNextPage
    | some .drawPrevPage => handle a (s.screen.buttons i).id i t .drawPrevPage
    | _ => .ok s
  else .ok s

def step (s : Eink) : Move → Except Fault Eink
  | .open a => drawAllLights a s
  | .press a i => press a i s

def roomIds (h : House) : List UInt8 :=
  front h.entertainmentRoom.lightIds h.entertainmentRoom.lightCounter.toNat

/-- An entertainment room with distinct lights on a bridge of at most twenty. -/
structure Household (h : House) : Prop where
  few : h.allLightCount.toNat ≤ 20
  among : h.entertainmentRoom.lightCounter.toNat ≤ h.allLightCount.toNat
  distinct : (roomIds h).Nodup
  nonzero : (0:UInt8) ∉ roomIds h
  stored : ∀ p (hp : p < 20), p < h.entertainmentRoom.lightCounter.toNat →
    (h.entertainmentLights ⟨p,hp⟩).id = h.entertainmentRoom.lightIds ⟨p,hp⟩

def selected (s : Eink) : List UInt8 := chosen (running s.shared)

/-- The selection is a list of distinct lights of the room that fits its array. -/
structure Listing (s : Eink) : Prop where
  fits : (running s.shared).lightCounter.toNat ≤ 20
  nodup : (selected s).Nodup
  room : ∀ x ∈ selected s, x ∈ roomIds s.house

/-- The button shows the room's light `x`. -/
def ShowsLight (s : Eink) (i : Fin 30) (x : UInt8) : Prop :=
  Live s i ∧ x ∈ roomIds s.house ∧ (s.screen.buttons i).id = x.toNat

/-- The selection and what the live buttons show of it agree; pressing a light's
button twice restores the set selected. -/
structure Agrees (s : Eink) : Prop where
  list : Listing s
  flags : ∀ i, Live s i → ((s.screen.buttons i).isSelected = true ↔
    ∃ x ∈ selected s, (x.toNat:ℤ) = (s.screen.buttons i).id)
  twice : ∀ a b i x, ShowsLight s i x → Ends (run step s [.press a i,.press b i])
    (fun t => ∀ y, y ∈ selected t ↔ y ∈ selected s) (fun _ => False)

/-- The light pressed belongs to the room, and no other live button is its button. -/
def Clean (s : Eink) : Move → Prop
  | .open _ => True
  | .press _ i => Live s i → (∃ x ∈ roomIds s.house, (s.screen.buttons i).id = x.toNat) ∧
      ∀ j, Live s j → (s.screen.buttons j).id = (s.screen.buttons i).id → j = i

/-- The page path takes no further page. -/
def PathFull (e : Fault) : Prop := ∃ i, e = .outside .pagePath i

variable {s t : Eink} {i : Fin 30} {x : UInt8}

theorem selectedFrom_mem {b : Behavior} {id : UInt8} {rounds p : ℕ} {f : Bool}
    (h : selectedFrom b id rounds p = .ok f) :
    f = true ↔ id ∈ (front b.lightIds (p+rounds)).drop p := by
  induction rounds generalizing p f with
  | zero =>
    cases h
    simp [front]
  | succ rounds ih =>
    obtain ⟨y,hy,h⟩ := bind_ok.mp h
    obtain ⟨g,hg,h⟩ := bind_ok.mp h
    obtain ⟨q,hq,hpq,rfl⟩ := read_ok.mp hy
    obtain rfl : p = q := by exact_mod_cast hpq
    cases h
    have hcell : (front b.lightIds (p+(rounds+1)))[p]? = some (b.lightIds ⟨p,hq⟩) :=
      front_get _ _ _ (by omega) hq
    obtain ⟨hlen,hget⟩ := List.getElem?_eq_some_iff.mp hcell
    rw [List.drop_eq_getElem_cons hlen, hget, List.mem_cons, Bool.or_eq_true, ih hg, beq_iff_eq,
      show p+1+rounds = p+(rounds+1) by omega, eq_comm]

def Framed (s : Eink) (p : ℤ) (b : Button) : Prop := ∃ (q : ℕ) (hq : q < 20), p = q ∧
  b.position = some p ∧ b.event = some .selectLight ∧
  (s.house.entertainmentLights ⟨q,hq⟩).name ≠ "" ∧
  b.id = (s.house.entertainmentLights ⟨q,hq⟩).id.toNat ∧
  (b.isSelected = true ↔ (s.house.entertainmentLights ⟨q,hq⟩).id ∈ selected s)

theorem item_framed {p : ℤ} {item : Item} (h : PagedList.selectable.itemAt s p = .ok item)
    (hn : item.name ≠ "") {b : Button} (hpos : b.position = some p)
    (he : b.event = some item.event) (hid : b.id = item.id)
    (hsel : b.isSelected = item.isSelected) : Framed s p b := by
  obtain ⟨light,hr,h⟩ := bind_ok.mp h
  obtain ⟨q,hq,hpq,rfl⟩ := read_ok.mp hr
  by_cases hname : (s.house.entertainmentLights ⟨q,hq⟩).name = ""
  · rw [if_pos hname] at h
    cases h
    exact absurd rfl hn
  · rw [if_neg hname] at h
    obtain ⟨f,hf,h⟩ := bind_ok.mp h
    cases h
    refine ⟨q,hq,hpq,hpos,he,hname,hid,?_⟩
    rw [hsel]
    have hmem := selectedFrom_mem hf
    rwa [zero_add, List.drop_zero] at hmem

/-- The loop frames the buttons of its entries. -/
theorem drawItems_framed {rounds : ℕ} {i x y : ℤ} {c : ℕ} {u v : Screen} (hc : u.buttonCount = c)
    (h : drawItems (PagedList.selectable.itemAt s) 48 48 rounds i x y u = .ok v) :
    ∀ k : Fin 30, c ≤ k.val → (k.val:ℤ) < v.buttonCount →
      Framed s (i+(k.val-c:ℕ)) (v.buttons k) := by
  induction rounds generalizing i x y c u with
  | zero =>
    cases h
    intro k h1 h2
    omega
  | succ rounds ih =>
    obtain ⟨item,hitem,h⟩ := bind_ok.mp h
    by_cases hn : item.name = ""
    · rw [if_pos hn] at h
      cases h
      intro k h1 h2
      omega
    · rw [if_neg hn] at h
      obtain ⟨w,hw,h⟩ := bind_ok.mp h
      obtain ⟨c',hc',hcc,hwe⟩ := addButton_ok hw
      obtain rfl : c' = c := by
        have : ((c':ℕ):ℤ) = c := hcc.symm.trans hc
        exact_mod_cast this
      have hcw : w.buttonCount = ((c'+1:ℕ):ℤ) := by
        rw [hwe]
        push_cast
        exact congrArg (· + 1) hcc
      have hfirst : Framed s i (w.buttons ⟨c',hc'⟩) := by
        rw [hwe]
        simp only [Function.update_self]
        exact item_framed hitem hn rfl rfl rfl rfl
      obtain ⟨x',y',h⟩ : ∃ x' y',
          drawItems (PagedList.selectable.itemAt s) 48 48 rounds (i+1) x' y' w =
          .ok v := by
        split at h
        · exact ⟨_,_,h⟩
        · exact ⟨_,_,h⟩
      intro k h1 h2
      by_cases hk : k.val = c'
      · obtain rfl : k = ⟨c',hc'⟩ := Fin.ext hk
        rw [(drawItems_ok hcw h).outside _ (Or.inl (Nat.lt_succ_self c'))]
        simpa using hfirst
      · have := ih hcw h k (by omega) h2
        rwa [show i+1+((k.val-(c'+1):ℕ):ℤ) = i+((k.val-c':ℕ):ℤ) by omega] at this

theorem draw_framed {start last : ℤ} {c : ℕ} {u v : Screen} (hc : u.buttonCount = c)
    (h : PagedList.selectable.draw s start last u = .ok v) (k : Fin 30) (h1 : c ≤ k.val)
    (h2 : (k.val:ℤ) < v.buttonCount) : Framed s (start+(k.val-c:ℕ)) (v.buttons k) :=
  drawItems_framed (u := { u with topIndex := toUInt8 last, drawn := [] }) hc h k h1 h2

structure Marked (s : Eink) (i : Fin 30) (x : UInt8) : Prop where
  live : Live s i
  id : (s.screen.buttons i).id = x.toNat
  flag : (s.screen.buttons i).isSelected = true ↔ x ∈ selected s

def flipped (u : Screen) (i : Fin 30) : Fin 30 → Button :=
  Function.update u.buttons i { u.buttons i with isSelected := !(u.buttons i).isSelected }

structure Toggled (i : Fin 30) (x : UInt8) (s t : Eink) : Prop where
  house : t.house = s.house
  screen : t.screen = { s.screen with buttons := flipped s.screen i }
  list : selected t =
    if (s.screen.buttons i).isSelected then (selected s).erase x else selected s ++ [x]
  fits : (running t.shared).lightCounter.toNat ≤ 20

theorem running_setBehavior (c : Behavior) (u : Shared) :
    running (setBehavior u.play.lastBehaviorId c u) = c := by
  simp [running, setBehavior]

theorem editSelection_of {id : ℤ} {f : Bool} {c : Behavior} {u : Shared}
    (h : (if f then removeLight id (running u) else addLight id (running u)) = .ok c) :
    editSelection id f u = .ok (setBehavior u.play.lastBehaviorId c u) := by
  cases f with
  | true => exact bind_ok.mpr ⟨c,h,rfl⟩
  | false => exact bind_ok.mpr ⟨c,h,rfl⟩

theorem editSelection_full {id : ℤ} {e : Fault} {u : Shared}
    (h : addLight id (running u) = .error e) : editSelection id false u = .error e := by
  change addLight id (running u) >>= _ = _
  rw [h]
  rfl

theorem press_select (hi : Live s i) (a : Answers) : press a i s =
    selectLight a (s.screen.buttons i).id i { s with pressedButton := s.screen.buttons i } := by
  simp only [press, if_pos hi.1, hi.2, handle]

theorem press_edit {c : Behavior} (a : Answers) (hi : Live s i)
    (h : (if (s.screen.buttons i).isSelected then
      removeLight (s.screen.buttons i).id (running s.shared)
      else addLight (s.screen.buttons i).id (running s.shared)) = .ok c) :
    ∃ t, press a i s = .ok t ∧ t.house = s.house ∧ running t.shared = c ∧
      t.screen = { s.screen with buttons := flipped s.screen i } := by
  rw [press_select hi]
  exact ⟨_,bind_ok.mpr ⟨_,editSelection_of h,rfl⟩,rfl,running_setBehavior c s.shared,rfl⟩

theorem selected_length (hl : Listing s) :
    (selected s).length = (running s.shared).lightCounter.toNat :=
  front_length _ _ hl.fits

theorem roomIds_length (h : House) : (roomIds h).length ≤ 20 := by
  rw [roomIds, front, List.length_take, List.length_ofFn]
  omega

theorem unselected_fits (hl : Listing s) (hx : x ∈ roomIds s.house) (hn : x ∉ selected s) :
    (running s.shared).lightCounter.toNat < 20 := by
  have hsub : (x::selected s).Subperm (roomIds s.house) := by
    refine (List.nodup_cons.mpr ⟨hn,hl.nodup⟩).subperm fun y hy => ?_
    obtain rfl | hy := List.mem_cons.mp hy
    · exact hx
    · exact hl.room y hy
  have hle := hsub.length_le
  have hroom := roomIds_length s.house
  rw [List.length_cons, selected_length hl] at hle
  omega

theorem press_toggles (a : Answers) (hl : Listing s) (hm : Marked s i x) (hx : x ∈ roomIds s.house)
    (h0 : x ≠ 0) : ∃ t, press a i s = .ok t ∧ Toggled i x s t := by
  by_cases hs : (s.screen.buttons i).isSelected = true
  · obtain ⟨c,hc,hlist,hcount⟩ := removeLight_erase hl.fits hl.nodup (hm.flag.mp hs) h0
    obtain ⟨t,ht,hhouse,hrun,hscreen⟩ := press_edit a hm.live (by rw [if_pos hs, hm.id]; exact hc)
    have hfits := hl.fits
    refine ⟨t,ht,hhouse,hscreen,?_,by rw [hrun]; omega⟩
    rw [selected, hrun, if_pos hs]
    exact hlist
  · have hn : x ∉ selected s := fun h => hs (hm.flag.mpr h)
    obtain ⟨c,hc,hlist,hcount⟩ := addLight_append (x := x) (unselected_fits hl hx hn)
    obtain ⟨t,ht,hhouse,hrun,hscreen⟩ := press_edit a hm.live (by rw [if_neg hs, hm.id]; exact hc)
    have hlt := unselected_fits hl hx hn
    refine ⟨t,ht,hhouse,hscreen,?_,by rw [hrun]; omega⟩
    rw [selected, hrun, if_neg hs]
    exact hlist

theorem toggled_live (h : Toggled i x s t) (j : Fin 30) : Live t j ↔ Live s j := by
  rw [Live, Live, h.screen]
  by_cases hj : j = i
  · subst hj
    simp [flipped]
  · simp [flipped, hj]

theorem toggled_other (h : Toggled i x s t) {j : Fin 30} (hj : j ≠ i) :
    t.screen.buttons j = s.screen.buttons j := by
  rw [h.screen]
  exact Function.update_of_ne hj _ _

theorem toggled_button (h : Toggled i x s t) : t.screen.buttons i =
    { s.screen.buttons i with isSelected := !(s.screen.buttons i).isSelected } := by
  rw [h.screen]
  exact Function.update_self i _ _

theorem toggled_mem (h : Toggled i x s t) (hl : Listing s) {y : UInt8} (hy : y ≠ x) :
    y ∈ selected t ↔ y ∈ selected s := by
  rw [h.list]
  split
  · rw [hl.nodup.mem_erase_iff]
    exact ⟨fun h => h.2,fun h => ⟨hy,h⟩⟩
  · simp [hy]

theorem toggled_self (h : Toggled i x s t) (hl : Listing s) :
    x ∈ selected t ↔ ¬(s.screen.buttons i).isSelected = true := by
  rw [h.list]
  split
  · next hs =>
    rw [hl.nodup.mem_erase_iff]
    exact ⟨fun h => absurd rfl h.1,fun hn => absurd hs hn⟩
  · next hs => simp [hs]

theorem toggled_listing (h : Toggled i x s t) (hl : Listing s) (hm : Marked s i x)
    (hx : x ∈ roomIds s.house) : Listing t := by
  refine ⟨h.fits,?_,fun y hy => ?_⟩
  · rw [h.list]
    split
    · exact hl.nodup.erase x
    · next hs =>
      have hn : x ∉ selected s := fun hn => hs (hm.flag.mpr hn)
      exact List.nodup_append.mpr ⟨hl.nodup,List.nodup_singleton x,fun y hy z hz => by
        rintro rfl
        exact hn (List.mem_singleton.mp hz ▸ hy)⟩
  · rw [h.house]
    by_cases hyx : y = x
    · exact hyx ▸ hx
    · exact hl.room y ((toggled_mem h hl hyx).mp hy)

theorem toggled_marked (h : Toggled i x s t) (hl : Listing s) (hm : Marked s i x) :
    Marked t i x := by
  refine ⟨(toggled_live h i).mpr hm.live,?_,?_⟩
  · rw [toggled_button h]
    exact hm.id
  · rw [toggled_button h, toggled_self h hl, Bool.not_eq_true', Bool.not_eq_true]

theorem pressed_twice (a b : Answers) (hl : Listing s) (hm : Marked s i x)
    (hx : x ∈ roomIds s.house) (h0 : x ≠ 0) : Ends (run step s [.press a i,.press b i])
      (fun t => ∀ y, y ∈ selected t ↔ y ∈ selected s) (fun _ => False) := by
  obtain ⟨t,ht,htog⟩ := press_toggles a hl hm hx h0
  have hlt := toggled_listing htog hl hm hx
  obtain ⟨u,hu,htog'⟩ := press_toggles b hlt (toggled_marked htog hl hm) (htog.house ▸ hx) h0
  have hrun : run step s [.press a i,.press b i] = .ok u :=
    run_cons_ok.mpr ⟨t,ht,run_cons_ok.mpr ⟨u,hu,rfl⟩⟩
  rw [hrun, ends_ok]
  intro y
  by_cases hy : y = x
  · subst hy
    rw [toggled_self htog' hlt, toggled_button htog, ← hm.flag]
    simp
  · rw [toggled_mem htog' hlt hy, toggled_mem htog hl hy]

structure Steered (s : Eink) (d : Turn) (w : ℕ) : Prop where
  page : s.screen.currentPageOnScreen = PagedList.selectable.text
  count : 7 ≤ s.screen.buttonCount
  top : s.screen.topIndex = toUInt8 (w+4)
  four : w % 4 = 0
  inside : w < 20 ∧ d.from w < 20
  back : d = .prev → 4 ≤ w

structure Sound (s : Eink) : Prop where
  house : Household s.house
  list : Listing s
  framed : ∀ k, Live s k → ∃ p, Framed s p (s.screen.buttons k)
  low : ∀ k : Fin 30, k.val < 7 → ∀ d : Turn, (s.screen.buttons k).event ≠ some d.event
  steered : ∀ (k : Fin 30) (d : Turn), (k.val:ℤ) < s.screen.buttonCount →
    (s.screen.buttons k).event = some d.event → ∃ w, Steered s d w

theorem framed_marked {p : ℤ} (hi : Live s i) (h : Framed s p (s.screen.buttons i)) :
    ∃ x, Marked s i x := by
  obtain ⟨q,hq,-,-,-,-,hid,hflag⟩ := h
  exact ⟨_,hi,hid,hflag⟩

theorem marked_same {y : UInt8} (hm : Marked s i x) (hy : (s.screen.buttons i).id = y.toNat) :
    x = y := by
  have := hm.id.symm.trans hy
  exact UInt8.toNat_inj.mp (by exact_mod_cast this)

theorem sound_agrees (h : Sound s) : Agrees s := by
  refine ⟨h.list,fun i hi => ?_,fun a b i x hs => ?_⟩
  · obtain ⟨p,hp⟩ := h.framed i hi
    obtain ⟨x,hm⟩ := framed_marked hi hp
    rw [hm.flag]
    refine ⟨fun hx => ⟨x,hx,hm.id.symm⟩,?_⟩
    rintro ⟨y,hy,hid⟩
    exact marked_same hm hid.symm ▸ hy
  · obtain ⟨hi,hx,hid⟩ := hs
    obtain ⟨p,hp⟩ := h.framed i hi
    obtain ⟨y,hm⟩ := framed_marked hi hp
    obtain rfl := marked_same hm hid
    exact pressed_twice a b h.list hm hx fun h0 => h.house.nonzero (h0 ▸ hx)

theorem toggled_event (h : Toggled i x s t) (k : Fin 30) :
    (t.screen.buttons k).event = (s.screen.buttons k).event := by
  by_cases hk : k = i
  · subst hk
    rw [toggled_button h]
  · rw [toggled_other h hk]

theorem light_sound {a : Answers} (h : Sound s) (hc : Clean s (.press a i)) (hi : Live s i) :
    ∃ t, press a i s = .ok t ∧ Sound t ∧ ∃ x, Toggled i x s t := by
  obtain ⟨⟨y,hy,hyid⟩,halone⟩ := hc hi
  obtain ⟨p,hp⟩ := h.framed i hi
  obtain ⟨x,hm⟩ := framed_marked hi hp
  obtain rfl := marked_same hm hyid
  obtain ⟨t,ht,htog⟩ := press_toggles a h.list hm hy fun h0 => h.house.nonzero (h0 ▸ hy)
  have hcount : t.screen.buttonCount = s.screen.buttonCount := by rw [htog.screen]
  refine ⟨t,ht,⟨htog.house ▸ h.house,toggled_listing htog h.list hm hy,fun k hk => ?_,
    fun k h7 d => ?_,fun k d hk hd => ?_⟩,x,htog⟩
  · have hks := (toggled_live htog k).mp hk
    obtain ⟨p,q,hq,hpq,hpos,he,hname,hid,hflag⟩ := h.framed k hks
    refine ⟨p,q,hq,hpq,?_⟩
    rw [htog.house]
    by_cases hki : k = i
    · subst hki
      have hx : (s.house.entertainmentLights ⟨q,hq⟩).id = x := (marked_same hm hid).symm
      rw [toggled_button htog]
      refine ⟨hpos,he,hname,hid,?_⟩
      rw [hx, toggled_self htog h.list, Bool.not_eq_true', Bool.not_eq_true]
    · rw [toggled_other htog hki]
      refine ⟨hpos,he,hname,hid,?_⟩
      rw [hflag, toggled_mem htog h.list]
      rintro rfl
      exact hki (halone k hks (hid.trans hm.id.symm))
  · rw [toggled_event htog]
    exact h.low k h7 d
  · rw [hcount] at hk
    rw [toggled_event htog] at hd
    obtain ⟨w,hw⟩ := h.steered k d hk hd
    refine ⟨w,?_,hcount ▸ hw.count,?_,hw.four,hw.inside,hw.back⟩
    · rw [htog.screen]
      exact hw.page
    · rw [htog.screen]
      exact hw.top

theorem framed_congr {p : ℤ} {b : Button} (h : SameLists s t) : Framed t p b ↔ Framed s p b := by
  rw [Framed, Framed, selected, selected, h.1, h.2]

theorem turnPage_framed {w : ℕ} (hp : s.screen.currentPageOnScreen = PagedList.selectable.text)
    (h : turnPage w (w+4) s = .ok t) (k : Fin 30) (h3 : 3 ≤ k.val)
    (hk : k.val < 3+PagedList.selectable.fill s w) :
    Framed s (w+(k.val-3:ℕ)) (t.screen.buttons k) := by
  obtain ⟨u,v,hu,hv,rfl⟩ := (turnPage_ok hp).mp h
  have hd : ItemsDrawn (PagedList.selectable.itemAt s) 48 48 w 56 3 (PagedList.selectable.fill s w)
      { s.screen with buttonCount := 3, topIndex := toUInt8 (w+4), drawn := [] } u :=
    drawListFromArray_ok rfl hu
  have hfill := fill_le (l := .selectable) (s := s) w
  have hcount := hd.count
  rw [show ({ s with screen := v } : Eink).screen.buttons k = u.buttons k from
    (drawPaginationButtons_ok hv).below k (by omega)]
  exact draw_framed (c := 3) rfl hu k h3 (by omega)

theorem press_turn {d : Turn} (a : Answers) (hk : (i.val:ℤ) < s.screen.buttonCount)
    (hd : (s.screen.buttons i).event = some d.event) :
    press a i s = d.apply { s with pressedButton := s.screen.buttons i } := by
  cases d <;> simp only [press, if_pos hk, hd, Turn.event, handle, Turn.apply]

section Turned
variable {w : ℕ}

theorem turned_low (h : Sound s) (ht : Turned .selectable w s t) (k : Fin 30) (h7 : k.val < 7)
    (e : Turn) : (t.screen.buttons k).event ≠ some e.event := by
  by_cases hin : 3 ≤ k.val ∧ k.val < 3+PagedList.selectable.fill s w
  · exact shows_turn (ht.items k hin.1 hin.2) e
  · rw [ht.kept k (by omega)]
    exact h.low k h7 e

theorem turned_listing (h : Sound s) (ht : Turned .selectable w s t) : Listing t := by
  have hl := ht.lists
  refine ⟨hl.2 ▸ h.list.fits,?_,?_⟩
  · rw [selected, hl.2]
    exact h.list.nodup
  · rw [selected, hl.2, hl.1]
    exact h.list.room

theorem turned_framed (h : Sound s) (ht : Turned .selectable w s t) (h7 : 7 ≤ s.screen.buttonCount)
    (hframed : ∀ k : Fin 30, 3 ≤ k.val → k.val < 3+PagedList.selectable.fill s w →
      Framed s (w+(k.val-3:ℕ)) (t.screen.buttons k)) (k : Fin 30) (hlive : Live t k) :
    ∃ p, Framed t p (t.screen.buttons k) := by
  by_cases hin : 3 ≤ k.val ∧ k.val < 3+PagedList.selectable.fill s w
  · exact ⟨_,(framed_congr ht.lists).mpr (hframed k hin.1 hin.2)⟩
  · by_cases hlow : k.val < 7
    · have hkept := ht.kept k (by omega)
      obtain ⟨q,hq⟩ := h.framed k ⟨by omega,hkept ▸ hlive.2⟩
      rw [hkept]
      exact ⟨q,(framed_congr ht.lists).mpr hq⟩
    · obtain ⟨he,-⟩ | ⟨he,-⟩ := ht.turns k (by omega) hlive.1
      · rw [hlive.2] at he
        cases he
      · rw [hlive.2] at he
        cases he

theorem turned_steered (h : Sound s) (ht : Turned .selectable w s t) (hw : w % 4 = 0)
    (h20 : w < 20) {k : Fin 30} {e : Turn} (hk : (k.val:ℤ) < t.screen.buttonCount)
    (he : (t.screen.buttons k).event = some e.event) : Steered t e w := by
  have hcount := ht.count
  have hfew := h.house.few
  have htop : t.screen.topIndex.toNat = w+4 := by
    rw [ht.top]
    exact_mod_cast toUInt8_toNat (n := w+4) (by omega)
  have h7 : 7 ≤ k.val := by
    by_contra h7
    exact turned_low h ht k (by omega) e he
  obtain ⟨hp,hne⟩ | ⟨hn,hlt⟩ := ht.turns k h7 hk
  · obtain rfl : e = .prev := by
      rw [he] at hp
      cases e
      · cases hp
      · rfl
    have h4 : t.screen.topIndex.toNat ≠ 4 := fun h4 => hne (UInt8.toNat_inj.mp h4)
    exact ⟨ht.page,hcount.1,ht.top,hw,⟨h20,(by omega : w-4 < 20)⟩,fun _ => by omega⟩
  · obtain rfl : e = .next := by
      rw [he] at hn
      cases e
      · rfl
      · cases hn
    rw [UInt8.lt_iff_toNat_lt, htop] at hlt
    have hlt' : w+4 < s.house.allLightCount.toNat := hlt
    exact ⟨ht.page,hcount.1,ht.top,hw,⟨h20,(by omega : w+4 < 20)⟩,fun h => by cases h⟩

end Turned

theorem turn_sound {a : Answers} {d : Turn} (h : Sound s) (hk : (i.val:ℤ) < s.screen.buttonCount)
    (hd : (s.screen.buttons i).event = some d.event) :
    ∃ t w, press a i s = .ok t ∧ Sound t ∧ w % 4 = 0 ∧ Turned .selectable w s t ∧
      (∀ k : Fin 30, 3 ≤ k.val → k.val < 3+PagedList.selectable.fill s w →
        Framed s (w+(k.val-3:ℕ)) (t.screen.buttons k)) ∧ 7 ≤ s.screen.buttonCount := by
  obtain ⟨w,hw⟩ := h.steered i d hk hd
  have hfour := hw.four
  have hinside := hw.inside
  have hfrom : d.from w % 4 = 0 := by
    cases d <;> simp only [Turn.from] <;> omega
  let p : Eink := { s with pressedButton := s.screen.buttons i }
  have happly : press a i s = turnPage (d.from w) (d.from w+4) p := by
    rw [press_turn a hk hd]
    exact turn_apply (s := p) hw.top (by omega) hw.back
  obtain ⟨t,ht⟩ : ∃ t, turnPage (d.from w) (d.from w+4) p = .ok t := by
    refine turnPage_fits (l := .selectable) hw.page fun j hj => ?_
    exact_mod_cast SelectablePaging.selectable_reads (s := p) (p := d.from w+j) (by omega)
      h.list.fits
  have hturned : Turned .selectable (d.from w) s t :=
    turned_press (turnPage_turned (l := .selectable) (s := p) hw.page ht)
  have hframed := turnPage_framed (s := p) hw.page ht
  refine ⟨t,d.from w,happly.trans ht,⟨hturned.lists.1 ▸ h.house,turned_listing h hturned,
    turned_framed h hturned hw.count hframed,turned_low h hturned,
    fun k e hke he => ⟨_,turned_steered h hturned hfrom hinside.2 hke he⟩⟩,hfrom,hturned,hframed,
    hw.count⟩

theorem selectable_fits {c n : ℕ} {u : Screen} (hl : Listing s) (hc : u.buttonCount = c)
    (h10 : c ≤ 10) (hn : n ≤ 20) : ∃ v, PagedList.selectable.draw s 0 n u = .ok v := by
  have hrounds : (PagedList.selectable.bound s n - 0).toNat = n := by
    simp only [bound]
    omega
  rw [draw, drawListFromArray, hrounds]
  refine drawItems_fits (c := c) hc (by omega) fun j hj => ?_
  rw [zero_add]
  exact SelectablePaging.selectable_reads (by omega) hl.fits

theorem open_ends (a : Answers) (hh : Household s.house) (hl : Listing s) :
    Ends (drawAllLights a s) (fun _ => True) PathFull := by
  have hmany := hh.among
  have hfew := hh.few
  let d : Eink := { logAction a (navigated "drawAllLightsInBehavior") s with
    nav := { s.nav with currentRoomID := drawAllLightsID } }
  refine ends_bind (drawHeader_ends (fun i => ⟨i,rfl⟩) "ALLE LAMPER" d) ?_
  rintro b ⟨nav,hb⟩
  have hscreen : b.screen = headed "ALLE LAMPER" d.screen := by rw [hb]
  have hhouse : b.house = s.house := by rw [hb]; rfl
  have hlb : Listing b := by
    rw [hb]
    exact ⟨hl.fits,hl.nodup,hl.room⟩
  by_cases hp : b.house.allLightsPagination = true
  · have hrow := drawPaginationButtons_eq b.house.entertainmentRoom.lightCounter
      { b.screen with topIndex := 4 }
    obtain ⟨c,hc,-⟩ := row_opened rfl hrow
    have h9 := (drawPaginationButtons_ok hrow).count
    have h4 := (drawPaginationButtons_ok hrow).top
    obtain ⟨v,hv⟩ := selectable_fits (n := 4) hlb hc (by omega) (by omega)
    rw [if_pos hp]
    refine ends_bind_ok (onScreen_ok.mpr ⟨_,hrow,rfl⟩) (ends_bind_ok (a := v) ?_ trivial)
    simp only [h4]
    exact hv
  · have hshort : b.house.entertainmentRoom.lightCounter.toNat ≤ 20 := by
      rw [hhouse]
      exact hmany.trans hfew
    obtain ⟨v,hv⟩ := selectable_fits (c := 2) (u := b.screen) hlb (by rw [hscreen]; rfl) (by omega)
      hshort
    rw [if_neg hp]
    exact ends_bind_ok (a := v) hv trivial

/-- A freshly opened list: its lights stand from cell `c` on. -/
structure Fresh (c : ℕ) (s t : Eink) : Prop where
  house : t.house = s.house
  behavior : running t.shared = running s.shared
  lights : ∀ k, Live t k → c ≤ k.val ∧ Framed t (k.val-c:ℕ) (t.screen.buttons k)
  low : ∀ k : Fin 30, k.val < 7 → ∀ d : Turn, (t.screen.buttons k).event ≠ some d.event
  turns : ∀ (k : Fin 30) (d : Turn), (k.val:ℤ) < t.screen.buttonCount →
    (t.screen.buttons k).event = some d.event → 7 ≤ c ∧ Steered t d 0

/-- With pagination the row stands before the lights. -/
theorem paged_fresh {d : Eink} {counter : UInt8} {u v : Screen} (hb : Bare d.screen)
    (hpage : d.screen.currentPageOnScreen = PagedList.selectable.text)
    (hu : drawPaginationButtons counter { d.screen with topIndex := 4 } = .ok u)
    (hv : PagedList.selectable.draw d 0 4 u = .ok v) : ∃ c, Fresh c d { d with screen := v } := by
  obtain ⟨c,hc,hr⟩ := row_opened rfl hu
  have hlow := hr.low
  have hrow := drawPaginationButtons_ok hu
  obtain ⟨f,ho,hkept⟩ := draw_opened (s := d) hc (hrow.page.trans hpage) hv
  have hcount := ho.count
  have hclear : ∀ k : Fin 30, k.val < 7 → Plain (v.buttons k) := fun k hk => by
    rw [hkept k (by omega), hrow.below k hk]
    exact bare_plain hb k
  refine ⟨c,rfl,rfl,fun k hk => ?_,fun k h7 e => plain_turn (hclear k h7) e,
    fun k e hk he => ⟨hlow,?_⟩⟩
  · have hck : c ≤ k.val := by
      by_contra hck
      by_cases h7 : k.val < 7
      · exact (hclear k h7).2.2.1 hk.2
      · have hnext := (hr.next k (by omega) (by omega)).1
        have hlight : (v.buttons k).event = some .selectLight := hk.2
        rw [← hkept k (by omega), hlight] at hnext
        cases hnext
    have hframed := draw_framed hc hv k hck hk.1
    rw [zero_add] at hframed
    exact ⟨hck,hframed⟩
  · have h7 : 7 ≤ k.val := by
      by_contra h7
      exact plain_turn (hclear k (by omega)) e he
    have hkc : k.val < c := by
      by_contra hkc
      exact shows_turn (ho.items k (by omega) (by omega)) e he
    have hnext := (hr.next k h7 hkc).1
    rw [← hkept k hkc] at hnext
    obtain rfl : e = .next := by
      rw [show v.buttons k = _ from rfl, he] at hnext
      cases e
      · rfl
      · cases hnext
    exact ⟨ho.page,by omega,ho.top,rfl,by decide,fun h => by cases h⟩

theorem whole_fresh {d : Eink} {last : ℤ} {v : Screen} (hb : Bare d.screen)
    (hv : PagedList.selectable.draw d 0 last d.screen = .ok v) :
    Fresh 2 d { d with screen := v } := by
  have hd := drawListFromArray_ok (c := 2) hb.count hv
  have hcount := hd.count
  have hnone : ∀ (k : Fin 30) (e : Turn), (v.buttons k).event ≠ some e.event := by
    intro k e
    by_cases hin : 2 ≤ k.val ∧ (k.val:ℤ) < v.buttonCount
    · exact shows_turn (hd.inside k hin.1 (by omega)) e
    · rw [hd.outside k (by omega)]
      exact plain_turn (bare_plain hb k) e
  refine ⟨rfl,rfl,fun k hk => ?_,fun k _ e => hnone k e,fun k e _ he => absurd he (hnone k e)⟩
  have h2 : 2 ≤ k.val := by
    by_contra h2
    have hlight : (v.buttons k).event = some .selectLight := hk.2
    rw [hd.outside k (by omega)] at hlight
    exact (bare_plain hb k).2.2.1 hlight
  have hframed := draw_framed (c := 2) hb.count hv k h2 hk.1
  rw [zero_add] at hframed
  exact ⟨h2,hframed⟩

theorem opened_fresh {a : Answers} (h : drawAllLights a s = .ok t) : ∃ c, Fresh c s t := by
  obtain ⟨d,hhouse,hrun,hscreen,hdraw⟩ := drawAllLights_cases h
  have hbare : Bare d.screen := hscreen ▸ headed_bare _ _
  have hof : ∀ {c}, Fresh c d t → Fresh c s t := fun hf =>
    ⟨hf.house.trans hhouse,hf.behavior.trans hrun,hf.lights,hf.low,hf.turns⟩
  obtain ⟨-,u,v,hu,hv,rfl⟩ | ⟨-,v,hv,rfl⟩ := hdraw
  · obtain ⟨c,hc⟩ := paged_fresh hbare (by rw [hscreen]; rfl) hu hv
    exact ⟨c,hof hc⟩
  · exact ⟨2,hof (whole_fresh hbare hv)⟩

theorem fresh_sound {c : ℕ} (h : Fresh c s t) (hh : Household s.house) (hl : Listing s) :
    Sound t := by
  refine ⟨h.house ▸ hh,⟨h.behavior ▸ hl.fits,?_,?_⟩,fun k hk => ⟨_,(h.lights k hk).2⟩,h.low,
    fun k d hk hd => ⟨0,(h.turns k d hk hd).2⟩⟩
  · rw [selected, h.behavior]
    exact hl.nodup
  · rw [selected, h.behavior, h.house]
    exact hl.room

theorem press_other (a : Answers) (hi : ¬Live s i)
    (ht : ∀ d : Turn, (s.screen.buttons i).event = some d.event →
      ¬(i.val:ℤ) < s.screen.buttonCount) :
    press a i s = .ok s := by
  rw [press]
  by_cases hk : (i.val:ℤ) < s.screen.buttonCount
  · rw [if_pos hk]
    split
    · next he => exact absurd ⟨hk,he⟩ hi
    · next he => exact absurd hk (ht .next he)
    · next he => exact absurd hk (ht .prev he)
    · rfl
  · rw [if_neg hk]

theorem clean_sound {m : Move} (h : Sound s) (hm : Clean s m) : Ends (step s m) Sound PathFull := by
  cases m with
  | «open» a =>
    cases ho : drawAllLights a s with
    | error e =>
      have hends := open_ends a h.house h.list
      rw [ho] at hends
      rw [step, ho]
      exact hends
    | ok t =>
      obtain ⟨c,hc⟩ := opened_fresh ho
      rw [step, ho]
      exact fresh_sound hc h.house h.list
  | press a i =>
    rw [step]
    by_cases hi : Live s i
    · obtain ⟨t,ht,hs,-⟩ := light_sound h hm hi
      rw [ht]
      exact hs
    · by_cases hd : ∃ d : Turn, (i.val:ℤ) < s.screen.buttonCount ∧
          (s.screen.buttons i).event = some d.event
      · obtain ⟨d,hk,he⟩ := hd
        obtain ⟨t,w,ht,hs,-⟩ := turn_sound h hk he
        rw [ht]
        exact hs
      · rw [press_other a hi fun d he hk => hd ⟨d,hk,he⟩]
        exact h

/-- A light from outside the room gets onto the list; of two live buttons of one
light the other keeps its frame. -/
theorem unclean_disagrees {m : Move} (h : Sound s) (hm : ¬Clean s m) :
    ¬Ends (step s m) Agrees PathFull := by
  cases m with
  | «open» a => exact absurd trivial hm
  | press a i =>
    obtain ⟨hi,hm⟩ := Classical.not_imp.mp hm
    obtain ⟨p,hp⟩ := h.framed i hi
    obtain ⟨x,hmark⟩ := framed_marked hi hp
    intro hends
    rw [step] at hends
    by_cases hx : x ∈ roomIds s.house
    · obtain ⟨t,ht,htog⟩ := press_toggles a h.list hmark hx fun h0 => h.house.nonzero (h0 ▸ hx)
      rw [ht, ends_ok] at hends
      refine hm ⟨⟨x,hx,hmark.id⟩,fun j hj hid => ?_⟩
      by_contra hne
      obtain ⟨q,hq⟩ := h.framed j hj
      obtain ⟨y,hother⟩ := framed_marked hj hq
      obtain rfl := marked_same hother (hid.trans hmark.id)
      have hflag := hends.flags j ((toggled_live htog j).mpr hj)
      rw [toggled_other htog hne, hother.flag, hother.id] at hflag
      have hmem : y ∈ selected s ↔ y ∈ selected t := by
        rw [hflag]
        refine ⟨?_,fun hy => ⟨y,hy,rfl⟩⟩
        rintro ⟨z,hz,hzy⟩
        exact UInt8.toNat_inj.mp (by exact_mod_cast hzy) ▸ hz
      rw [toggled_self htog h.list, hmark.flag] at hmem
      exact iff_not_self hmem
    · have hn : x ∉ selected s := fun hs => hx (h.list.room x hs)
      have hoff : ¬(s.screen.buttons i).isSelected = true := fun hf => hn (hmark.flag.mp hf)
      by_cases hroom : (running s.shared).lightCounter.toNat < 20
      · obtain ⟨c,hc,hlist,-⟩ := addLight_append (x := x) hroom
        obtain ⟨t,ht,hhouse,hrun,-⟩ := press_edit a hi (by rw [if_neg hoff, hmark.id]; exact hc)
        rw [ht, ends_ok] at hends
        refine hx (hhouse ▸ hends.list.room x ?_)
        rw [selected, hrun, hlist]
        simp
      · obtain ⟨e,he,hout⟩ := addLight_full (x := x) hroom
        have herror : press a i s = .error e := by
          rw [press_select hi]
          change editSelection _ (s.screen.buttons i).isSelected _ >>= _ = _
          rw [eq_false_of_ne_true hoff, hmark.id, editSelection_full he]
          rfl
        rw [herror] at hends
        obtain ⟨j,hj⟩ := hends
        obtain ⟨k,hk⟩ := hout
        cases hj.symm.trans hk

/-- The room's lights are the only named cells. -/
def NothingBehind (h : House) : Prop :=
  ∀ p (hp : p < 20), h.entertainmentRoom.lightCounter.toNat ≤ p →
    (h.entertainmentLights ⟨p,hp⟩).name = ""

/-- No two live buttons show one position; where turns are offered, the lights
below the arrows stand in the cell of their position. -/
structure Tidy (s : Eink) : Prop where
  unique : ∀ i j p, Live s i → Live s j → (s.screen.buttons i).position = some p →
    (s.screen.buttons j).position = some p → i = j
  shelf : ∀ (k : Fin 30) (d : Turn), (k.val:ℤ) < s.screen.buttonCount →
    (s.screen.buttons k).event = some d.event → ∀ j : Fin 30, j.val < 7 → Live s j →
      3 ≤ j.val ∧ ∃ p : ℤ, (s.screen.buttons j).position = some p ∧ p % 4 = (j.val-3:ℕ)

theorem framed_position {p : ℤ} {b : Button} (h : Framed s p b) : b.position = some p := by
  obtain ⟨q,hq,-,hpos,-⟩ := h
  exact hpos

theorem fresh_tidy {c : ℕ} (h : Fresh c s t) : Tidy t := by
  refine ⟨fun i j p hi hj hip hjp => ?_,fun k d hk hd j h7 hj => ?_⟩
  · obtain ⟨hci,hfi⟩ := h.lights i hi
    obtain ⟨hcj,hfj⟩ := h.lights j hj
    have hi' := Option.some.inj (hip.symm.trans (framed_position hfi))
    have hj' := Option.some.inj (hjp.symm.trans (framed_position hfj))
    omega
  · have := (h.turns k d hk hd).1
    have := (h.lights j hj).1
    omega

theorem toggled_position (h : Toggled i x s t) (k : Fin 30) :
    (t.screen.buttons k).position = (s.screen.buttons k).position := by
  by_cases hk : k = i
  · subst hk
    rw [toggled_button h]
  · rw [toggled_other h hk]

theorem toggled_tidy (h : Toggled i x s t) (hs : Tidy s) : Tidy t := by
  have hcount : t.screen.buttonCount = s.screen.buttonCount := by rw [h.screen]
  refine ⟨fun j k p hj hk => ?_,fun k d hk hd j h7 hj => ?_⟩
  · rw [toggled_position h, toggled_position h]
    exact hs.unique j k p ((toggled_live h j).mp hj) ((toggled_live h k).mp hk)
  · rw [toggled_position h]
    rw [hcount] at hk
    rw [toggled_event h] at hd
    exact hs.shelf k d hk hd j h7 ((toggled_live h j).mp hj)

theorem turned_tidy {d : Turn} {w : ℕ} (hs : Tidy s) (hk : (i.val:ℤ) < s.screen.buttonCount)
    (hd : (s.screen.buttons i).event = some d.event) (h4 : w % 4 = 0)
    (ht : Turned .selectable w s t) (hframed : ∀ k : Fin 30, 3 ≤ k.val →
      k.val < 3+PagedList.selectable.fill s w → Framed s (w+(k.val-3:ℕ)) (t.screen.buttons k))
    (hcount : 7 ≤ s.screen.buttonCount) : Tidy t := by
  have hfill := fill_le (l := .selectable) (s := s) w
  have hcell : ∀ k, Live t k → (3 ≤ k.val ∧ k.val < 7) ∧
      ∃ p : ℤ, (t.screen.buttons k).position = some p ∧ p % 4 = (k.val-3:ℕ) := by
    intro k hlive
    have h7 : k.val < 7 := by
      by_contra h7
      obtain ⟨he,-⟩ | ⟨he,-⟩ := ht.turns k (by omega) hlive.1
      · rw [hlive.2] at he
        cases he
      · rw [hlive.2] at he
        cases he
    by_cases hin : 3 ≤ k.val ∧ k.val < 3+PagedList.selectable.fill s w
    · exact ⟨⟨hin.1,h7⟩,_,framed_position (hframed k hin.1 hin.2),by omega⟩
    · have hkept := ht.kept k (by omega)
      obtain ⟨h3,hp⟩ := hs.shelf i d hk hd k h7 ⟨by omega,hkept ▸ hlive.2⟩
      rw [hkept]
      exact ⟨⟨h3,h7⟩,hp⟩
  refine ⟨fun j k p hj hk hjp hkp => ?_,fun k e _ _ j h7 hj => ?_⟩
  · obtain ⟨h3,q,hq,hmod⟩ := hcell j hj
    obtain ⟨h3',q',hq',hmod'⟩ := hcell k hk
    obtain rfl := Option.some.inj (hjp.symm.trans hq)
    obtain rfl := Option.some.inj (hkp.symm.trans hq')
    omega
  · obtain ⟨h3,hp⟩ := hcell j hj
    exact ⟨h3.1,hp⟩

theorem tidy_clean (hn : NothingBehind s.house) (h : Sound s) (ht : Tidy s) (m : Move) :
    Clean s m := by
  have hroom : ∀ k, Live s k → ∃ (q : ℕ) (hq : q < 20), (s.screen.buttons k).position = some (q:ℤ) ∧
      q < s.house.entertainmentRoom.lightCounter.toNat ∧
      (s.screen.buttons k).id = (s.house.entertainmentRoom.lightIds ⟨q,hq⟩).toNat := by
    intro k hk
    obtain ⟨p,q,hq,hpq,hpos,-,hname,hid,-⟩ := h.framed k hk
    have hlt : q < s.house.entertainmentRoom.lightCounter.toNat := by
      by_contra hle
      exact hname (hn q hq (by omega))
    rw [h.house.stored q hq hlt] at hid
    exact ⟨q,hq,hpq ▸ hpos,hlt,hid⟩
  cases m with
  | «open» a => trivial
  | press a i =>
    intro hi
    obtain ⟨q,hq,hpos,hlt,hid⟩ := hroom i hi
    have hget := front_get s.house.entertainmentRoom.lightIds _ q hlt hq
    refine ⟨⟨_,List.mem_of_getElem? hget,hid⟩,fun j hj hsame => ?_⟩
    obtain ⟨q',hq',hpos',hlt',hid'⟩ := hroom j hj
    have hcell : s.house.entertainmentRoom.lightIds ⟨q',hq'⟩ =
        s.house.entertainmentRoom.lightIds ⟨q,hq⟩ := by
      have := hid'.symm.trans (hsame.trans hid)
      exact UInt8.toNat_inj.mp (by exact_mod_cast this)
    have hget' := front_get s.house.entertainmentRoom.lightIds _ q' hlt' hq'
    obtain ⟨hlen,-⟩ := List.getElem?_eq_some_iff.mp hget'
    have hsome := hget'.trans (hcell ▸ hget.symm)
    obtain rfl : q' = q := (List.getElem?_inj hlen h.house.distinct).mp hsome
    exact ht.unique j i q' hj hi hpos' hpos

theorem tidy_step (hn : NothingBehind s.house) (h : Sound s) (ht : Tidy s) (m : Move) :
    Ends (step s m) (fun t => NothingBehind t.house ∧ Sound t ∧ Tidy t) (fun _ => True) := by
  have hc := tidy_clean hn h ht m
  cases m with
  | «open» a =>
    cases ho : drawAllLights a s with
    | error e =>
      rw [step, ho]
      trivial
    | ok t =>
      obtain ⟨c,hfresh⟩ := opened_fresh ho
      rw [step, ho]
      exact ⟨hfresh.house ▸ hn,fresh_sound hfresh h.house h.list,fresh_tidy hfresh⟩
  | press a i =>
    rw [step]
    by_cases hi : Live s i
    · obtain ⟨t,he,hs,x,htog⟩ := light_sound h hc hi
      rw [he]
      exact ⟨htog.house ▸ hn,hs,toggled_tidy htog ht⟩
    · by_cases hd : ∃ d : Turn, (i.val:ℤ) < s.screen.buttonCount ∧
          (s.screen.buttons i).event = some d.event
      · obtain ⟨d,hk,hd⟩ := hd
        obtain ⟨t,w,he,hs,h4,hturned,hframed,hcount⟩ := turn_sound h hk hd
        rw [he]
        exact ⟨hturned.lists.1 ▸ hn,hs,turned_tidy ht hk hd h4 hturned hframed hcount⟩
      · rw [press_other a hi fun d he hk => hd ⟨d,hk,he⟩]
        exact ⟨hn,h,ht⟩

/-- After the list is opened on a sound selection, selection and buttons agree
through a run exactly when each light pressed belongs to the room and has no
second live button. Every run is of this kind when nothing is named behind the
room's lights. -/
theorem agrees_iff_clean {a : Answers} {ms : List Move} (h : drawAllLights a s = .ok t)
    (hh : Household s.house) (hl : Listing s) :
    (Runs step Agrees PathFull t ms ↔ Meets step Clean t ms) ∧
      (NothingBehind s.house → Meets step Clean t ms) := by
  obtain ⟨c,hc⟩ := opened_fresh h
  have hs := fresh_sound hc hh hl
  refine ⟨runs_iff_meets (fun _ h => sound_agrees h) (fun _ _ h hm => clean_sound h hm)
    (fun _ _ h hm => unclean_disagrees h hm) hs ms,fun hn => ?_⟩
  refine meets_of_invariant (I := fun s => NothingBehind s.house ∧ Sound s ∧ Tidy s)
    (fun s m h => tidy_clean h.1 h.2.1 h.2.2 m) (fun s m h => tidy_step h.1 h.2.1 h.2.2 m) ?_
  exact ⟨hc.house ▸ hn,hs,fresh_tidy hc⟩

/-- An answer of the bridge with the lights `1..n`, all in the entertainment room. -/
def lamps (n : ℕ) : Answers :=
  { entertainmentGroup := { lights := (List.range n).map fun i => UInt8.ofNat (i+1) }
    entertainmentStates := fun _ => { name := "Lampe" }
    allLights := (List.range n).map fun i => { id := UInt8.ofNat (i+1), name := "Lampe" } }

def listed (as : List Answers) : Eink :=
  (drawAllLights {} (RoomPaging.after as)).toOption.getD {}

theorem nothing_selected (as : List Answers) : Listing (RoomPaging.after as) :=
  ⟨by simp [RoomPaging.after, running],by simp [RoomPaging.after, selected, chosen, running],
    by simp [RoomPaging.after, selected, chosen, running]⟩

theorem six_lamps_agree : Runs step Agrees PathFull (listed [lamps 6])
    [.press {} 7,.press {} 4,.press {} 3,.press {} 4] := by
  have hopen : drawAllLights {} (RoomPaging.after [lamps 6]) = .ok (listed [lamps 6]) :=
    ok_getD {} (by decide +kernel)
  have hh : Household (RoomPaging.after [lamps 6]).house :=
    ⟨by decide +kernel,by decide +kernel,by decide +kernel,by decide +kernel,by decide +kernel⟩
  have hn : NothingBehind (RoomPaging.after [lamps 6]).house := by
    rw [NothingBehind]
    decide +kernel
  have hclean : Meets step Clean (listed [lamps 6])
      [.press {} 7,.press {} 4,.press {} 3,.press {} 4] :=
    (agrees_iff_clean hopen hh (nothing_selected [lamps 6])).2 hn
  exact (agrees_iff_clean hopen hh (nothing_selected [lamps 6])).1.mpr hclean

/-- The sixth lamp left the room, but its cell still is on the second page. -/
theorem removed_lamp_selected : ¬∀ (a : Answers) (s t : Eink) (ms : List Move),
    drawAllLights a s = .ok t → Household s.house → Listing s → Runs step Agrees PathFull t ms := by
  intro hall
  have hopen : drawAllLights {} (RoomPaging.after [lamps 6,lamps 5]) =
      .ok (listed [lamps 6,lamps 5]) := ok_getD {} (by decide +kernel)
  have hh : Household (RoomPaging.after [lamps 6,lamps 5]).house :=
    ⟨by decide +kernel,by decide +kernel,by decide +kernel,by decide +kernel,by decide +kernel⟩
  have hruns := runs_ends (hall {} _ _ [.press {} 7,.press {} 4] hopen hh (nothing_selected _))
  have hrun : run step (listed [lamps 6,lamps 5]) [.press {} 7,.press {} 4] =
      .ok ((run step (listed [lamps 6,lamps 5]) [.press {} 7,.press {} 4]).toOption.getD {}) :=
    ok_getD {} (by decide +kernel)
  rw [hrun, ends_ok] at hruns
  exact absurd (hruns.list.room 6 (by decide +kernel)) (by decide +kernel)

end THue.LightSelection
