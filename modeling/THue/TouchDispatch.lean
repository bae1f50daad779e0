import THue.ScreenPlan

/-!
# Touch dispatch

Whatever pages are drawn and whatever the screen and the dial open from them,
the buttons drawn have handlers and lie apart: the button that a touch finds
is the only one that holds the point.
-/

set_option autoImplicit false

namespace THue.TouchDispatch
open THue.Globals THue.Entertainment THue.BehaviorSettings THue.CheckedArray THue.FaultRun
open THue.TouchScreen THue.Bridge THue.Pages THue.PagedLists THue.PageDrawing THue.Navigation
open THue.Rectangles THue.ScreenPlan

/-- The buttons drawn fit the array and have handlers, and no point lies in two of them. -/
structure Dispatch (s : Screen) : Prop where
  count : 0 ≤ s.buttonCount ∧ s.buttonCount ≤ 30
  handled : ∀ x y (k : Fin 30), (k.val:ℤ) < s.buttonCount → inside x y (s.buttons k) = true →
    (s.buttons k).event ≠ none
  apart : ∀ x y (j k : Fin 30), (j.val:ℤ) < s.buttonCount → (k.val:ℤ) < s.buttonCount →
    inside x y (s.buttons j) = true → inside x y (s.buttons k) = true → j = k
  found : ∀ x y (k : Fin 30), (k.val:ℤ) < s.buttonCount → inside x y (s.buttons k) = true →
    onTouchEvent x y s = some k

theorem tidy_dispatch {s : Screen} (h : Tidy s) : Dispatch s := by
  obtain ⟨plan,c,hp,h30,hc,hcount,hfits⟩ := h.planned
  have hapart : ∀ x y (j k : Fin 30), (j.val:ℤ) < s.buttonCount → (k.val:ℤ) < s.buttonCount →
      inside x y (s.buttons j) = true → inside x y (s.buttons k) = true → j = k := by
    intro x y j k hj hk hxj hxk
    exact fits_unique hp hfits (by omega) (by omega) (inside_iff.mp hxj) (inside_iff.mp hxk)
  refine ⟨by omega,fun x y k _ hx hn => ?_,hapart,fun x y k hk hx => ?_⟩
  · exact not_mem_thin (h.handled k hn) (inside_iff.mp hx)
  · refine onTouchEvent_first hk hx fun j hj => ?_
    by_contra hxj
    exact absurd (hapart x y j k (by omega) hk (by simpa using hxj) hx) (by omega)

/-- The lists are short enough for their pages: a list without pagination fits the grid. -/
structure Stock (s : Eink) : Prop where
  behaviors : s.shared.play.behaviorCount.toNat ≤ 3
  lights : s.house.allLightsPagination = false → s.house.entertainmentRoom.lightCounter.toNat ≤ 4

structure Kept (s : Eink) : Prop where
  tidy : Tidy s.screen
  stock : Stock s

/-- Drawing has filled the slots of the plan up to `d`. -/
def Placed (plan : List (Rect ℤ)) (d : ℕ) (b t : Eink) : Prop :=
  ∃ u, t = { b with screen := u } ∧ Filled Steady plan d u

section Pages
variable {plan : List (Rect ℤ)} {c d : ℕ} {f : Screen → Except Fault Screen} {b s t : Eink}
variable {text : String} (a : Answers)

theorem onScreen_placed (hf : Fills Steady plan c d f) (h : Placed plan c b s) :
    Ends (onScreen f s) (Placed plan d b) Aside := by
  obtain ⟨u,rfl,hu⟩ := h
  exact ends_bind (hf u hu) fun v hv => ⟨v,rfl,hv⟩

theorem fresh_placed (rest : List (Rect ℤ)) (h : Fresh b.screen) : Placed (bar ++ rest) 2 b b :=
  ⟨b.screen,rfl,h rest⟩

theorem kept_screen (hb : Stock b) {u : Screen} (hu : Tidy u) : Kept { b with screen := u } :=
  ⟨hu,hb.behaviors,hb.lights⟩

theorem placed_kept (h : Placed plan d b t) (hp : plan.Pairwise Apart) (h30 : plan.length ≤ 30)
    (hd : d ≤ plan.length) (hb : Stock b) : Kept t := by
  obtain ⟨u,rfl,hu⟩ := h
  exact kept_screen hb (tidy_steady hp h30 hd hu)

theorem header_fresh {β : Type} {g : Eink → Except Fault β} {Q : β → Prop} (hs : Stock s)
    (hg : ∀ b, Fresh b.screen → Stock b → Ends (g b) Q Aside) :
    Ends (drawHeader text s >>= g) Q Aside := by
  refine ends_bind (drawHeader_ends (fun i => aside (by decide) i) text s) ?_
  rintro b ⟨nav,rfl⟩
  exact hg _ (headed_filled text s.screen) ⟨hs.behaviors,hs.lights⟩

theorem drawHome_kept (hs : Kept s) : Ends (drawHome a s) Kept Aside := by
  by_cases h1 : s.uiLevel = 1
  · rw [show drawHome a s = _ from if_pos h1]
    refine ends_bind (read_ends aside_data s.house.rooms 1 (by decide)) fun room _ => ?_
    rw [← bind_pure (drawHeader _ _)]
    refine header_fresh ⟨hs.stock.behaviors,hs.stock.lights⟩ fun b hf hb => ?_
    exact placed_kept (fresh_placed [] hf) (by decide) (by decide) (by decide) hb
  · by_cases h2 : 2 ≤ s.uiLevel
    · rw [show drawHome a s = _ from (if_neg h1).trans (if_pos h2)]
      refine header_fresh ⟨hs.stock.behaviors,hs.stock.lights⟩ fun b hf hb => ?_
      refine ends_bind (onScreen_placed (drawBitmap_fills _ _ (by simp [Steady, Turns]) rfl
        (within_refl _) (by decide)) (fresh_placed [⟨30,56,40,40⟩,⟨110,56,40,40⟩] hf))
        fun t ht => ?_
      split
      · refine ends_imp (onScreen_placed (drawBitmap_fills _ _ (by simp [Steady, Turns]) rfl
          (within_refl _) (by decide)) ht) fun u hu => ?_
        exact placed_kept hu (by decide) (by decide) (by decide) hb
      · exact placed_kept ht (by decide) (by decide) (by decide) hb
    · rw [show drawHome a s = _ from (if_neg h1).trans (if_neg h2)]
      exact ⟨hs.tidy,hs.stock.behaviors,hs.stock.lights⟩

theorem drawAllGroups_kept (hs : Stock s) : Ends (drawAllGroups a s) Kept Aside := by
  refine header_fresh ⟨hs.behaviors,hs.lights⟩ fun b hf hb => ?_
  exact list_tidy (l := .rooms) (f := fun d => drawRoomsFromArray 0 4 d.house)
    (g := fun d => drawRoomsFromArray 0 4 d.house) hf (fun d _ _ => first_lists .rooms d)
    (fun _ => ⟨4,first_lists .rooms b⟩) fun u hu => kept_screen hb hu

theorem drawRoom_kept (room : ℤ) (hs : Stock s) : Ends (drawRoom a room s) Kept Aside := by
  refine ends_bind (chooseRoom_ends aside_data room s.house) fun house hhouse => ?_
  have hlights : house.allLightsPagination = false →
      house.entertainmentRoom.lightCounter.toNat ≤ 4 := by
    rw [hhouse]
    exact hs.lights
  refine header_fresh ⟨hs.behaviors,hlights⟩ fun b hf hb => ?_
  refine ends_bind (getLightStatesFrom_ends aside_data (by decide) _ _ _ _ _) fun lights _ => ?_
  let d : Eink := { b with
    screen := { b.screen with currentPageOnScreen := "RUM" }
    shared := (logAction a (navigatedTo "drawRoom" house.currentRoom.name) b).shared
    house := { house with lights := lights, lightCount := house.currentRoom.lightCounter } }
  have hd : Stock d := ⟨hb.behaviors,hlights⟩
  have hfresh : Fresh d.screen := fun rest => ⟨(hf rest).count,(hf rest).fits,(hf rest).held⟩
  exact list_tidy (l := .lights) (b := d) (f := fun _ => drawLightsFromArray 0 4 d.house)
    (g := fun _ => drawLightsFromArray 0 4 d.house) hfresh (fun _ _ _ => first_lists .lights d)
    (fun _ => ⟨4,first_lists .lights d⟩) fun u hu => kept_screen hd hu

theorem drawAllLights_kept (hs : Stock s) : Ends (drawAllLights a s) Kept Aside := by
  refine header_fresh ⟨hs.behaviors,hs.lights⟩ fun b hf hb => ?_
  refine list_tidy (l := .selectable)
    (f := fun d => drawSelectableLightsFromArray 0 d.screen.topIndex.toNat d.house
      (running d.shared))
    (g := fun d => drawSelectableLightsFromArray 0 d.house.entertainmentRoom.lightCounter.toNat
      d.house (running d.shared)) hf (fun d htop _ => ?_) (fun hp => ?_)
    fun u hu => kept_screen hb hu
  · rw [htop]
    exact first_lists .selectable d
  · have hshort := hb.lights (by simpa using hp)
    exact ⟨_,draw_lists .selectable b 0 _ (by decide) (by omega)⟩

theorem drawScales_filled (light : Light) {u : Screen}
    (hu : Filled Steady (bar ++ [⟨64,36,48,48⟩,⟨14,152,70,70⟩,⟨92,152,70,70⟩]) 3 u) :
    Ends (drawScales light u) (fun t => ∃ d ≤ 5,
      Filled Steady (bar ++ [⟨64,36,48,48⟩,⟨14,152,70,70⟩,⟨92,152,70,70⟩]) d t) Aside := by
  rw [drawScales]
  split
  · exact ⟨3,by decide,hu⟩
  · have hsteady : Steady .toggleRGBMode := by simp [Steady, Turns]
    refine ends_bind (fills_add rfl hsteady rfl rfl (within_refl _) (by decide) u hu) fun t ht => ?_
    exact ends_imp (fills_add rfl hsteady rfl rfl (within_refl _) (by decide) t ht)
      fun v hv => ⟨5,le_refl 5,hv⟩

theorem drawLight_kept (lightId : ℤ) (hs : Stock s) : Ends (drawLight a lightId s) Kept Aside := by
  refine ends_bind (openLight_ends aside_data a lightId s) ?_
  rintro ⟨name,c⟩ ⟨light,log,hc⟩
  obtain rfl := hc
  refine header_fresh ⟨hs.behaviors,hs.lights⟩ fun b hf hb => ?_
  refine ends_bind (onScreen_placed (fills_add rfl (by simp [Steady, Turns]) rfl rfl (within_refl _)
    (by decide)) (fresh_placed [⟨64,36,48,48⟩,⟨14,152,70,70⟩,⟨92,152,70,70⟩] hf)) ?_
  rintro t ⟨u,rfl,hu⟩
  refine ends_bind (drawScales_filled b.house.currentLight hu) ?_
  rintro v ⟨d,hd,hv⟩
  exact placed_kept (b := b) ⟨v,rfl,hv⟩ (by decide) (by decide) hd hb

theorem drawAllBehaviors_kept (hs : Stock s) : Ends (drawAllBehaviors a s) Kept Aside := by
  refine header_fresh ⟨hs.behaviors,hs.lights⟩ fun b hf hb => ?_
  have hdraw : Fills Steady (bar ++ (List.range 3).map (cell 20 80)) 2
      (2+b.shared.play.behaviorCount.toNat) (drawBehaviorsFrom b.shared.play.behaviors
        b.shared.play.behaviorCount.toNat 0 20 56) :=
    drawBehaviorsFrom_fills (c := 2) (n := 3) (j := 0) (by simp [Steady, Turns]) _ (by decide)
      (by decide) (by rw [Nat.zero_add]; exact hb.behaviors) rfl rfl
  refine ends_imp (onScreen_placed hdraw (fresh_placed _ hf)) fun t ht => ?_
  exact placed_kept ht (by decide) (by decide) (Nat.add_le_add_left hb.behaviors 2) hb

theorem openBehaviorPage_kept (pageID : ℤ) (context : String) (id : ℤ) (hs : Stock s) :
    Ends (openBehaviorPage a pageID context id s) (fun p => Fresh p.2.screen ∧ Stock p.2)
      Aside := by
  refine ends_bind (read_ends aside_data s.shared.play.behaviors id (by decide))
    fun behavior _ => ?_
  refine header_fresh ⟨hs.behaviors,hs.lights⟩ fun b hf hb => ?_
  exact ⟨hf,hb.behaviors,hb.lights⟩

def editor (behavior : Behavior) : Option Event :=
  if behavior.behaviorId = repeatedBehavior then some .changeBehaviorForTraining
  else if behavior.behaviorId = timeBehavior then some .changeBehaviorForAlarm
  else if behavior.behaviorId = transitionBehavior then some .changeBehaviorForFest
  else none

theorem drawBehaviorButtons_eq (id : ℤ) (behavior : Behavior) (u : Screen) :
    drawBehaviorButtons id behavior u = (do
      let u ← drawSquare 23 65 130 30 "REDIGER PÆRER" .drawAllLights id u
      let u ← match editor behavior with
        | some e => drawSquare 23 110 130 30 "REDIGER OPFØRSEL" e id u
        | none => pure u
      let u ← drawSquare 14 184 74 40 "START" .toggleBehavior id u
      drawSquare 88 184 74 40 "STOP" .toggleBehavior id u) := by
  have h21 : repeatedBehavior ≠ timeBehavior := by decide
  have h23 : repeatedBehavior ≠ transitionBehavior := by decide
  have h13 : timeBehavior ≠ transitionBehavior := by decide
  rw [drawBehaviorButtons, editor]
  by_cases h2 : behavior.behaviorId = repeatedBehavior
  · simp [h2, h21, h23]
  · by_cases h1 : behavior.behaviorId = timeBehavior
    · simp [h1, h21.symm, h13]
    · by_cases h3 : behavior.behaviorId = transitionBehavior
      · simp [h3, h23.symm, h13.symm]
      · simp [h2, h1, h3]

theorem editor_steady {behavior : Behavior} {e : Event} (h : editor behavior = some e) :
    Steady e := by
  rintro (rfl | rfl)
  · simp [editor, ite_eq_iff] at h
  · simp [editor, ite_eq_iff] at h

theorem drawBehaviorButtons_kept (id : ℤ) (behavior : Behavior) (hf : Fresh b.screen)
    (hb : Stock b) : Ends (onScreen (drawBehaviorButtons id behavior) b) Kept Aside := by
  have hlights : Steady .drawAllLights := by simp [Steady, Turns]
  have htoggle : Steady .toggleBehavior := by simp [Steady, Turns]
  rw [show drawBehaviorButtons id behavior = _ from funext (drawBehaviorButtons_eq id behavior)]
  cases he : editor behavior with
  | some e =>
    refine ends_imp (onScreen_placed (d := 6) (fills_bind (drawSquare_fills hlights rfl
      (within_refl _) (by decide)) ?_) (fresh_placed
        [⟨23,65,130,30⟩,⟨23,110,130,30⟩,⟨14,184,74,40⟩,⟨88,184,74,40⟩] hf)) fun t ht => ?_
    · exact fills_bind (drawSquare_fills (editor_steady he) rfl (within_refl _) (by decide))
        (fills_bind (drawSquare_fills htoggle rfl (within_refl _) (by decide))
          (drawSquare_fills htoggle rfl (within_refl _) (by decide)))
    · exact placed_kept ht (by decide) (by decide) (by decide) hb
  | none =>
    refine ends_imp (onScreen_placed (d := 5) (fills_bind (drawSquare_fills hlights rfl
      (within_refl _) (by decide)) ?_) (fresh_placed
        [⟨23,65,130,30⟩,⟨14,184,74,40⟩,⟨88,184,74,40⟩] hf)) fun t ht => ?_
    · exact fills_bind fills_pure
        (fills_bind (drawSquare_fills htoggle rfl (within_refl _) (by decide))
          (drawSquare_fills htoggle rfl (within_refl _) (by decide)))
    · exact placed_kept ht (by decide) (by decide) (by decide) hb

theorem drawBehavior_kept (id : ℤ) (hs : Stock s) : Ends (drawBehavior a id s) Kept Aside := by
  refine ends_bind (openBehaviorPage_kept a _ _ id hs) ?_
  rintro ⟨behavior,b⟩ ⟨hf,hb⟩
  exact drawBehaviorButtons_kept id behavior (b := { b with
    screen := { b.screen with currentPageOnScreen := "drawBehavior" } })
    (fun rest => ⟨(hf rest).count,(hf rest).fits,(hf rest).held⟩) ⟨hb.behaviors,hb.lights⟩

def settings (y : ℤ) : List (Rect ℤ) := [⟨14,y,74,40⟩,⟨88,y,74,40⟩]

theorem drawSettingRow_fills {y : ℤ} {minus plus : Setting} {id : ℤ}
    (h1 : plan[c]? = some ⟨14,y,74,40⟩) (h2 : plan[c+1]? = some ⟨88,y,74,40⟩)
    (h30 : plan.length ≤ 30) : Fills Steady plan c (c+2) (drawSettingRow y minus plus id) :=
  fills_bind (drawSquare_fills (by simp [Steady, Turns]) h1 (within_refl _) h30)
    (drawSquare_fills (by simp [Steady, Turns]) h2 (within_refl _) h30)

theorem twoRows_kept {context : String} (id : ℤ) (minus plus minus' plus' : Setting)
    (hs : Stock s) : Ends (do
      let (_,s) ← openBehaviorPage a changeBehaviorID context id s
      let s ← onScreen (drawSettingRow 82 minus plus id) s
      onScreen (drawSettingRow 184 minus' plus' id) s) Kept Aside := by
  refine ends_bind (openBehaviorPage_kept a _ _ id hs) ?_
  rintro ⟨behavior,b⟩ ⟨hf,hb⟩
  refine ends_bind (onScreen_placed (drawSettingRow_fills rfl rfl (by decide))
    (fresh_placed (settings 82 ++ settings 184) hf)) fun t ht => ?_
  refine ends_imp (onScreen_placed (drawSettingRow_fills rfl rfl (by decide)) ht) fun u hu => ?_
  exact placed_kept hu (by decide) (by decide) (by decide) hb

theorem changeBehaviorForTraining_kept (id : ℤ) (hs : Stock s) :
    Ends (changeBehaviorForTraining a id s) Kept Aside := twoRows_kept a id _ _ _ _ hs

theorem changeBehaviorForAlarm_kept (id : ℤ) (hs : Stock s) :
    Ends (changeBehaviorForAlarm a id s) Kept Aside := twoRows_kept a id _ _ _ _ hs

theorem changeBehaviorForFest_kept (id : ℤ) (hs : Stock s) :
    Ends (changeBehaviorForFest a id s) Kept Aside := by
  refine ends_bind (openBehaviorPage_kept a _ _ id hs) ?_
  rintro ⟨behavior,b⟩ ⟨hf,hb⟩
  refine ends_imp (onScreen_placed (drawSettingRow_fills rfl rfl (by decide))
    (fresh_placed (settings 184) hf)) fun u hu => ?_
  exact placed_kept hu (by decide) (by decide) (by decide) hb

theorem tidy_congr {u v : Screen} (h : Tidy u) (hcount : v.buttonCount = u.buttonCount)
    (htop : v.topIndex = u.topIndex) (hrect : ∀ k, rect (v.buttons k) = rect (u.buttons k))
    (hevent : ∀ k, (v.buttons k).event = (u.buttons k).event) : Tidy v := by
  obtain ⟨plan,c,hp,h30,hc,hu,hfits⟩ := h.planned
  have hslots : (fun k => rect (v.buttons k)) = fun k => rect (u.buttons k) := funext hrect
  refine ⟨⟨plan,c,hp,h30,hc,hcount.trans hu,hslots ▸ hfits⟩,fun k hk => ?_,?_⟩
  · have hw := h.handled k ((hevent k).symm.trans hk)
    exact (congrArg Rect.width (hrect k)).trans hw
  · refine h.turns.imp (fun ht => ⟨hslots ▸ ht.fits,htop ▸ ht.top⟩) fun hsteady k e he => ?_
    exact hsteady k e ((hevent k).symm.trans he)

theorem kept_congr (hs : Kept s) (hscreen : t.screen = s.screen) (hhouse : t.house = s.house)
    (hplay : t.shared.play.behaviorCount = s.shared.play.behaviorCount) : Kept t :=
  ⟨hscreen ▸ hs.tidy,hplay ▸ hs.stock.behaviors,hhouse ▸ hs.stock.lights⟩

theorem goBack_kept (hs : Kept s) : Ends (goBack a s) Kept Aside := by
  refine ends_bind (Q := fun _ => True) ?_ fun pageID _ => ?_
  · rw [CheckedArray.read]
    split
    · trivial
    · exact aside (by decide) _
  let c : Eink := { s with nav := { s.nav with
    pagePageCounter := s.nav.pagePageCounter - 1, isGoingBack := true } }
  have hc : Kept c := kept_congr hs rfl rfl rfl
  split
  · exact drawHome_kept a hc
  split
  · exact drawAllGroups_kept a hc.stock
  split
  · exact drawRoom_kept a _ hc.stock
  split
  · exact drawLight_kept a 0 hc.stock
  split
  · exact drawAllLights_kept a hc.stock
  split
  · exact drawAllBehaviors_kept a hc.stock
  split
  · exact drawBehavior_kept a _ hc.stock
  · exact hc

/-- The lights of the entertainment room are among those of the bridge. -/
def Among (a : Answers) : Prop :=
  a.entertainmentGroup.lights.Subperm (a.allLights.map (·.id))

instance among_decidable (a : Answers) : Decidable (Among a) :=
  inferInstanceAs (Decidable (List.Subperm _ _))

theorem fetchHouse_lights {h i : House} (ha : Among a) (hi : fetchHouse a h = .ok i)
    (hp : i.allLightsPagination = false) : i.entertainmentRoom.lightCounter.toNat ≤ 4 := by
  obtain ⟨lights,-,hi⟩ := bind_ok.mp hi
  obtain ⟨g,hg,hi⟩ := bind_ok.mp hi
  obtain ⟨rooms,-,hg⟩ := bind_ok.mp hg
  obtain ⟨ids,hids,hi⟩ := bind_ok.mp hi
  cases hg
  cases hi
  have hall : a.allLights.length ≤ 50 := by
    by_cases hn : a.allLights = []
    · simp [hn]
    · have := (storeFrom_ok (i := 0) hids).1 hn
      omega
  have hroom := ha.length_le
  rw [List.length_map] at hroom
  simp only [decide_eq_false_iff_not, UInt8.lt_iff_toNat_lt, UInt8.toNat_ofNat',
    show (4:UInt8).toNat = 4 from rfl] at hp
  simp only [getGroup, UInt8.toNat_ofNat']
  omega

theorem fetchData_kept (ha : Among a) (hs : Kept s) : Ends (fetchData a s) Kept Aside := by
  have hfetch := ends_and (fetchHouse_ends aside_data a s.house) (ends_self (fetchHouse a s.house))
  refine ends_bind hfetch fun house hhouse => ?_
  exact drawHome_kept a ⟨hs.tidy,show (3:ℕ) ≤ 3 from le_refl 3,fetchHouse_lights a ha hhouse.2⟩

theorem selectLight_kept (lightId : ℤ) (i : Fin 30) (hs : Kept s) :
    Ends (selectLight a lightId i s) Kept Aside := by
  refine ends_bind (editSelection_ends aside_data lightId _ s.shared) ?_
  rintro shared ⟨-,hcount⟩
  refine ⟨tidy_congr hs.tidy rfl rfl (fun k => ?_) fun k => ?_,hcount ▸ hs.stock.behaviors,
    hs.stock.lights⟩
  · by_cases hk : k = i
    · subst hk
      simp only [logAction, Function.update_self, rect]
    · simp only [logAction, Function.update_of_ne hk]
  · by_cases hk : k = i
    · subst hk
      simp only [logAction, Function.update_self]
    · simp only [logAction, Function.update_of_ne hk]

theorem toggleBehavior_kept (id : ℤ) (i : Fin 30) (hs : Kept s) :
    Ends (toggleBehavior a id i s) Kept Aside := by
  refine ends_bind (read_ends aside_data s.shared.play.behaviors id (by decide))
    fun behavior _ => ?_
  split
  · refine kept_congr hs rfl rfl ?_
    simp only [toggleOff]
    split <;> rfl
  · split
    · exact kept_congr hs rfl rfl rfl
    · exact hs

theorem turn_kept {start last : ℤ} (hs : Kept s) (ht : Turnable s.screen) (hstart : start%4 = 0)
    (hlast : last = start+4) : Ends (turnPage start last s) Kept Aside :=
  turnPage_tidy hstart hlast hs.tidy ht fun _ hu => kept_screen hs.stock hu

theorem handle_kept {e : Event} (id : ℤ) (i : Fin 30) (ha : Among a) (hs : Kept s)
    (ht : Turns e → Turnable s.screen) : Ends (handle a id i s e) Kept Aside := by
  cases e with
  | drawAllGroups => exact drawAllGroups_kept a hs.stock
  | drawRoom => exact drawRoom_kept a id hs.stock
  | drawLight => exact drawLight_kept a id hs.stock
  | drawAllLights => exact drawAllLights_kept a hs.stock
  | drawAllBehaviors => exact drawAllBehaviors_kept a hs.stock
  | drawBehavior => exact drawBehavior_kept a id hs.stock
  | changeBehaviorForTraining => exact changeBehaviorForTraining_kept a id hs.stock
  | changeBehaviorForAlarm => exact changeBehaviorForAlarm_kept a id hs.stock
  | changeBehaviorForFest => exact changeBehaviorForFest_kept a id hs.stock
  | goBack => exact goBack_kept a hs
  | drawHomeFromHomeButton => exact drawHome_kept a (kept_congr hs rfl rfl rfl)
  | fetchData => exact fetchData_kept a ha hs
  | drawNextPage =>
    have htop := (ht (.inl rfl)).top
    exact turn_kept hs (ht (.inl rfl)) (by omega) rfl
  | drawPrevPage =>
    have htop := (ht (.inr rfl)).top
    exact turn_kept hs (ht (.inr rfl)) (by omega) (by omega)
  | switch => exact ⟨hs.tidy,hs.stock.behaviors,hs.stock.lights⟩
  | toggleRGBMode => exact kept_congr (t := toggleRGBMode a s) hs rfl rfl rfl
  | selectLight => exact selectLight_kept a id i hs
  | toggleBehavior => exact toggleBehavior_kept a id i hs
  | setting x => exact kept_congr hs rfl rfl (press_keeps x s.shared.play).2.1

/-- A touch, a press of the dial, or the drawing of any page. -/
inductive Act where
  | move (m : Pages.Move)
  | draw (a : Answers) (e : Event) (page : Opener e ∨ Homing e) (id : ℤ)

def told : Act → Answers
  | .move m => answers m
  | .draw a _ _ _ => a

def step (s : Eink) : Act → Except Fault Eink
  | .move m => Pages.step s m
  | .draw a e _ id => handle a id 0 s e

theorem page_turns {e : Event} (h : Opener e ∨ Homing e) : ¬Turns e := by
  rintro (rfl | rfl) <;> simp [Opener, Homing] at h

theorem step_kept {x : Act} (ha : Among (told x)) (hs : Kept s) : Ends (step s x) Kept Aside := by
  cases x with
  | draw a e page id => exact handle_kept a id 0 ha hs fun ht => absurd ht (page_turns page)
  | move m =>
    cases m with
    | dial a id =>
      rw [step, Pages.step, dialPress]
      split
      · exact drawLight_kept a id ⟨hs.stock.behaviors,hs.stock.lights⟩
      · exact hs
    | touch a x y =>
      rw [step, Pages.step, touch]
      split
      · exact hs
      · next k hk =>
        split
        · exact hs
        · next e he =>
          have hpress : Kept { s with pressedButton := s.screen.buttons k } :=
            kept_congr hs rfl rfl rfl
          refine handle_kept a _ k ha hpress fun ht => ?_
          exact hs.tidy.turns.resolve_right fun hsteady => hsteady k e he ht

end Pages

theorem blank_kept : Kept {} := by
  refine ⟨⟨⟨[],0,.nil,by decide,le_refl 0,rfl,fun k r h => ?_⟩,fun _ _ => rfl,
    .inr fun k e he => ?_⟩,
    by decide,fun _ => by decide⟩
  · cases h
  · cases he

/-- In every state of every run from the blank screen the buttons drawn fit
the array, have handlers and lie apart; no step writes a button outside it. -/
theorem touches_unambiguous (xs : List Act) (h : ∀ x ∈ xs, Among (told x)) :
    Runs step (fun s => Dispatch s.screen) Aside {} xs := by
  have hmeets : Meets step (fun _ x => Among (told x) ∧ True) {} xs :=
    meets_forall h (meets_of_invariant (I := fun _ => True) (fun _ _ _ => trivial)
      (fun s x _ => ends_true (step s x)) trivial)
  exact runs_of_meets (fun s hs => tidy_dispatch hs.tidy) (fun s x hs hx => step_kept hx.1 hs)
    blank_kept hmeets

def sevenLights : Answers where
  entertainmentGroup := { lights := [1,2,3,4,5,6] }
  entertainmentStates := fun _ => { name := "Lampe" }
  groups := List.replicate 7 { name := "Rum" }
  allLights := (List.range 7).map fun n => { id := UInt8.ofNat (n+1), name := "Lampe" }

def secondPage : List Act :=
  [.draw sevenLights .fetchData (.inr (.inl rfl)) 0,
    .move (.touch sevenLights 50 76),.move (.touch sevenLights 111 222)]

theorem second_page_unambiguous : ∃ t, run step {} secondPage = .ok t ∧
    t.screen.topIndex = 8 ∧ t.screen.buttonCount = 8 ∧ Dispatch t.screen := by
  have hrun := ok_getD {} (x := run step {} secondPage) (by decide +kernel)
  exact ⟨_,hrun,by decide +kernel,by decide +kernel,
    runs_last (P := fun s => Dispatch s.screen)
      (touches_unambiguous secondPage (by decide +kernel)) hrun⟩

end THue.TouchDispatch
