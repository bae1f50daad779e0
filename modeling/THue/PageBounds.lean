import THue.Navigation
import THue.Encoder
import THue.ListBounds

/-!
# The bounds of the pages

Every page function and handler reads the arrays of the bridge inside, as long
as the answers stored fit and the next page may start.
-/

set_option autoImplicit false

namespace THue.PageBounds
open THue.Globals THue.CheckedArray THue.FaultRun THue.Entertainment THue.BehaviorTask
open THue.BehaviorSettings THue.Firebase THue.TouchScreen THue.Bridge THue.Pages THue.PagedLists
open THue.PageDrawing THue.Navigation THue.Encoder THue.BridgeArrays THue.ListBounds

section Pages
variable {a : Answers} {s b : Eink} {text : String} {f : Screen → Except Fault Screen}

/-- A page without arrows. -/
def Quiet (h : House) (t : Eink) : Prop := t.house = h ∧ Holds Still t.screen

theorem quiet_ranged {t : Eink} {h : House} (hh : Fitted h) (ht : Quiet h t) : Ranged t :=
  ⟨ht.1.symm ▸ hh,still_paged ht.2⟩

theorem header_quiet {β : Type} {g : Eink → Except Fault β} {Q : β → Prop} (text : String)
    (s : Eink) (hg : ∀ b, Quiet s.house b → Ends (g b) Q Inside) :
    Ends (drawHeader text s >>= g) Q Inside := by
  refine ends_bind (drawHeader_ends (fun i => inside (by decide) i) text s) ?_
  rintro b ⟨nav,rfl⟩
  exact hg _ ⟨rfl,headed_holds text s.screen⟩

theorem onScreen_quiet {h : House} (hf : Adds Still f) (hb : Quiet h b) :
    Ends (onScreen f b) (Quiet h) Inside :=
  ends_bind (hf b.screen hb.2) fun _ ht => ⟨hb.1,ht.1⟩

theorem onScreen_ranged {h : House} (hh : Fitted h) (hf : Adds Still f) (hb : Quiet h b) :
    Ends (onScreen f b) Ranged Inside :=
  ends_imp (onScreen_quiet hf hb) fun _ ht => quiet_ranged hh ht

theorem drawHome_ranged (a : Answers) (hs : Ranged s) : Ends (drawHome a s) Ranged Inside := by
  by_cases h1 : s.uiLevel = 1
  · rw [show drawHome a s = _ from if_pos h1]
    refine ends_bind (inside_read s.house.rooms _ (by decide) (by decide)) ?_
    rintro room ⟨k,-,rfl⟩
    rw [← bind_pure (drawHeader _ _)]
    refine header_quiet _ _ fun b hb => quiet_ranged ?_ hb
    exact ⟨hs.house.rooms,hs.house.rooms k,hs.house.count,hs.house.entertainment,hs.house.all⟩
  · by_cases h2 : 2 ≤ s.uiLevel
    · rw [show drawHome a s = _ from (if_neg h1).trans (if_pos h2)]
      refine header_quiet _ _ fun b hb => ?_
      refine ends_bind (onScreen_quiet (adds_button rfl (by decide)) hb) fun t ht => ?_
      split
      · exact onScreen_ranged hs.house (adds_button rfl (by decide)) ht
      · exact quiet_ranged hs.house ht
    · rw [show drawHome a s = _ from (if_neg h1).trans (if_neg h2)]
      exact ⟨hs.house,hs.paged⟩

theorem opened_ranged {l : PagedList} {paged : Prop} [Decidable paged] {counter : UInt8}
    {f g : Eink → Screen → Except Fault Screen} (hb : Fitted b.house) (hq : Quiet b.house b)
    (hf : ∀ d : Eink, d.house = b.house → d.screen.topIndex = 4 → f d = l.draw d 0 4)
    (hg : ∀ u, Holds Still u → Ends (g b u) (Holds Still) Inside) :
    Ends (if paged then do
        let s ← onScreen (drawPaginationButtons counter)
          { b with screen := { b.screen with topIndex := 4 } }
        onScreen (f s) s
      else onScreen (g b) b) Ranged Inside := by
  split
  · refine ends_bind (Q := fun t => t.house = b.house ∧ t.screen.topIndex = 4 ∧
      Holds (fun k e => 7 ≤ k.val ∧ e = .drawNextPage) t.screen) ?_ ?_
    · exact ends_bind (row_opens (s := { b.screen with topIndex := 4 }) hq.2 rfl) fun t ht =>
        ⟨rfl,ht.2,ht.1⟩
    · rintro t ⟨hhouse,htop,hholds⟩
      rw [hf t hhouse htop]
      have hfirst : Upto t.house l 0 := Or.inl (by cases l <;> decide)
      refine ends_bind (draw_adds (i := 0) _ hfirst hholds) fun u hu => ?_
      obtain ⟨hheld,-,htop4⟩ := hu
      refine ⟨hhouse ▸ hb,fun k e he => ⟨fun ht => ((hheld k e he).1 ht).1,(hheld k e he).2⟩,
        fun k _ e he ht m hm => ?_⟩
      obtain ⟨-,rfl⟩ := (hheld k e he).1 ht
      rw [show u.topIndex = 4 from htop4]
      exact ⟨by decide,fun _ hl => hl ▸ by decide,fun hp => by cases hp⟩
  · exact ends_bind (hg b.screen hq.2) fun u hu => quiet_ranged hb ⟨rfl,hu⟩

theorem drawAllGroups_ranged (a : Answers) (hs : Fitted s.house) :
    Ends (drawAllGroups a s) Ranged Inside := by
  refine header_quiet _ _ fun b hb => ?_
  obtain ⟨hhouse,hholds⟩ := hb
  have hfit : Fitted b.house := hhouse ▸ hs
  exact opened_ranged (l := .rooms) (f := fun d => drawRoomsFromArray 0 4 d.house)
    (g := fun d => drawRoomsFromArray 0 4 d.house) hfit ⟨rfl,hholds⟩
    (fun d _ _ => rfl) fun u hu => ends_imp (draw_adds (l := .rooms) (s := b) (i := 0) _
      (Or.inl (by decide)) hu) fun _ ht => ht.1

theorem chooseRoom_inside {room : ℤ} {h : House} (hh : Fitted h)
    (hroom : h.lastRoom ≠ room → 0 ≤ room ∧ room < 50) :
    Ends (chooseRoom room h) (fun i => Fitted i) Inside := by
  rw [chooseRoom]
  split
  · next hne =>
    refine ends_bind (inside_read h.rooms _ (hroom hne).1 (hroom hne).2) ?_
    rintro r ⟨k,-,rfl⟩
    exact ⟨hh.rooms,hh.rooms k,hh.count,hh.entertainment,hh.all⟩
  · exact ⟨hh.rooms,hh.room,hh.count,hh.entertainment,hh.all⟩

theorem drawRoom_ranged (a : Answers) {room : ℤ} (hs : Fitted s.house)
    (hroom : s.house.lastRoom ≠ room → 0 ≤ room ∧ room < 50) :
    Ends (drawRoom a room s) Ranged Inside := by
  refine ends_bind (chooseRoom_inside hs hroom) fun house hh => ?_
  refine header_quiet _ _ fun b hb => ?_
  have hcount := hh.room
  refine ends_bind (getLightStatesFrom_inside _ _ _ _ 0 _ (by omega) (by omega)) fun lights _ => ?_
  let d : Eink := { b with
    screen := { b.screen with currentPageOnScreen := "RUM" }
    shared := (logAction a (navigatedTo "drawRoom" house.currentRoom.name) b).shared
    house := { house with lights := lights, lightCount := house.currentRoom.lightCounter } }
  have hd : Fitted d.house :=
    ⟨hh.rooms,hh.room,hh.room,hh.entertainment,hh.all⟩
  have hholds : Holds Still d.screen := hb.2
  refine opened_ranged (l := .lights) (b := d) (f := fun _ => drawLightsFromArray 0 4 d.house)
    (g := fun _ => drawLightsFromArray 0 4 d.house) hd ⟨rfl,hholds⟩
    (fun e he _ => ?_) fun u hu => ?_
  · rw [PagedList.draw, PagedList.itemAt, PagedList.bound, he]
    rfl
  · exact ends_imp (draw_adds (l := .lights) (s := d) (i := 0) _ (Or.inl (by decide)) hu)
      fun _ ht => ht.1

theorem findLight_inside (lights : Fin 50 → Light) (id : ℤ) {rounds i : ℕ} (found : Light)
    (h : i+rounds ≤ 50) : ∃ light, findLight lights id rounds i found = .ok light := by
  induction rounds generalizing i found with
  | zero => exact ⟨found,rfl⟩
  | succ rounds ih =>
    obtain ⟨light,hlight⟩ := ih (i := i+1) (if (lights ⟨i,by omega⟩).id.toNat = id then
      lights ⟨i,by omega⟩ else found) (by omega)
    exact ⟨light,bind_ok.mpr ⟨_,read_inside lights _ i (by omega),hlight⟩⟩

theorem openLight_ok (a : Answers) (id : ℤ) (hs : Fitted s.house) :
    ∃ name c, openLight a id s = .ok (name,c) ∧ Fitted c.house ∧ c.nav = s.nav := by
  have hfind : ∀ id : ℤ, ∃ light, findLight s.house.lights id s.house.allLightCount.toNat 0
      s.house.currentLight = .ok light := fun id => by
    have hall := hs.all
    exact findLight_inside s.house.lights id _ (by omega)
  have hfit : ∀ light, Fitted { s.house with currentLight := light } :=
    fun _ => ⟨hs.rooms,hs.room,hs.count,hs.entertainment,hs.all⟩
  rw [openLight]
  split
  · obtain ⟨light,hlight⟩ := hfind id
    exact ⟨_,_,bind_ok.mpr ⟨light,hlight,rfl⟩,hfit light,rfl⟩
  · obtain ⟨light,hlight⟩ := hfind s.pressedButton.id
    exact ⟨_,_,bind_ok.mpr ⟨light,hlight,rfl⟩,hfit light,rfl⟩

theorem drawScales_adds (light : Light) : Adds Still (drawScales light) := by
  intro u hu
  rw [drawScales]
  split
  · exact ⟨hu,rfl,rfl⟩
  · exact adds_bind (adds_button rfl (by decide)) (adds_button rfl (by decide)) u hu

theorem drawLight_ranged (a : Answers) (id : ℤ) (hs : Fitted s.house) :
    Ends (drawLight a id s) Ranged Inside := by
  obtain ⟨name,c,hopen,hc,-⟩ := openLight_ok a id hs
  refine ends_bind_ok hopen ?_
  refine header_quiet _ _ fun b hb => ?_
  refine ends_bind (onScreen_quiet (adds_button rfl (by decide)) hb) fun t ht => ?_
  exact onScreen_ranged hc (drawScales_adds _) ht

theorem addPage_blocked (n : Nav) :
    Ends (addPageToPagePath n) (fun _ => ¬Blocked n) (fun _ => Blocked n) := by
  refine ends_imp (addPage_ends n) fun m hm hb => ?_
  obtain ⟨c,hc,hcount,-⟩ := hm.1.pushed hb.1
  exact hb.2 (by omega)

theorem drawLight_blocked (a : Answers) (id : ℤ) (hs : Fitted s.house) :
    Ends (drawLight a id s) (fun _ => ¬Blocked s.nav) (fun _ => Blocked s.nav) := by
  obtain ⟨name,c,hopen,-,hnav⟩ := openLight_ok a id hs
  refine ends_bind_ok hopen ?_
  have hcount : (headed name c.screen).buttonCount = ((2:ℕ):ℤ) := rfl
  have hheader : Ends (drawHeader name { c with
      nav := { c.nav with currentScreenType := .light, currentRoomID := drawLightID } })
      (fun b => ¬Blocked s.nav ∧ b.screen = headed name c.screen) (fun _ => Blocked s.nav) := by
    rw [← hnav]
    refine ends_bind (addPage_blocked { c.nav with
      currentScreenType := .light, currentRoomID := drawLightID }) fun nav hn => ?_
    exact ends_bind_ok (drawNavbar_eq name c.screen) ⟨hn,rfl⟩
  refine ends_bind hheader ?_
  rintro b ⟨hb,hscreen⟩
  refine ends_bind_ok (bind_ok.mpr ⟨_,addButton_at _ 2 (by decide) (hscreen ▸ hcount),rfl⟩) ?_
  refine ends_bind (Q := fun _ => True) ?_ fun _ _ => hb
  rw [drawScales]
  split
  · trivial
  · exact ends_bind_ok (addButton_at _ 3 (by decide) rfl)
      (by rw [drawCircle, addButton_at _ 4 (by decide) rfl]; trivial)

theorem drawAllLights_ranged (a : Answers) (hs : Fitted s.house) :
    Ends (drawAllLights a s) Ranged Inside := by
  refine header_quiet _ _ fun b hb => ?_
  obtain ⟨hhouse,hholds⟩ := hb
  have hfit : Fitted b.house := hhouse ▸ hs
  refine opened_ranged (l := .selectable)
    (f := fun d => drawSelectableLightsFromArray 0 d.screen.topIndex.toNat d.house
      (running d.shared))
    (g := fun d => drawSelectableLightsFromArray 0 d.house.entertainmentRoom.lightCounter.toNat
      d.house (running d.shared)) hfit ⟨rfl,hholds⟩ (fun d _ htop => ?_) fun u hu => ?_
  · rw [htop]
    rfl
  · have hcount := hfit.entertainment
    refine ends_imp (list_adds (readable_inside (l := .selectable) (s := b) (le_refl 0) ?_) hu)
      fun _ ht => ht.1
    show _ ≤ ((20:ℕ):ℤ)
    omega

theorem drawBehaviorsFrom_adds (behaviors : Fin 20 → Behavior) (rounds i : ℕ) (x y : ℤ) :
    Adds Still (drawBehaviorsFrom behaviors rounds i x y) := by
  induction rounds generalizing i x y with
  | zero => exact adds_pure
  | succ rounds ih =>
    intro u hu
    refine ends_bind (other_read behaviors i (by decide)) fun behavior _ => ?_
    refine adds_bind (adds_button rfl (by decide)) (fun v hv => ?_) u hu
    split <;> exact ih _ _ _ v hv

theorem drawAllBehaviors_ranged (a : Answers) (hs : Fitted s.house) :
    Ends (drawAllBehaviors a s) Ranged Inside := by
  exact header_quiet _ _ fun b hb => onScreen_ranged hs (drawBehaviorsFrom_adds _ _ _ _ _) hb

theorem openBehaviorPage_quiet (a : Answers) (pageID : ℤ) (context : String) (id : ℤ) (s : Eink) :
    Ends (openBehaviorPage a pageID context id s) (fun p => Quiet s.house p.2) Inside := by
  refine ends_bind (other_read s.shared.play.behaviors id (by decide)) fun behavior _ => ?_
  exact header_quiet _ _ fun b hb => hb

theorem drawBehaviorButtons_adds (id : ℤ) (behavior : Behavior) :
    Adds Still (drawBehaviorButtons id behavior) := by
  have hbutton : ∀ (x y w h : ℤ) (text : String) (e : Event), Usual e →
      Adds Still (drawSquare x y w h text e id) := fun _ _ _ _ _ _ hu => adds_button rfl hu
  refine adds_bind (hbutton _ _ _ _ _ _ (by decide)) ?_
  refine adds_when (hbutton _ _ _ _ _ _ (by decide)) ?_
  refine adds_when (hbutton _ _ _ _ _ _ (by decide)) ?_
  refine adds_when (hbutton _ _ _ _ _ _ (by decide)) ?_
  exact adds_bind (hbutton _ _ _ _ _ _ (by decide)) (hbutton _ _ _ _ _ _ (by decide))

theorem drawBehavior_ranged (a : Answers) (id : ℤ) (hs : Fitted s.house) :
    Ends (drawBehavior a id s) Ranged Inside := by
  refine ends_bind (openBehaviorPage_quiet a _ _ id s) ?_
  rintro ⟨behavior,b⟩ ⟨hhouse,hholds⟩
  exact onScreen_ranged (b := { b with
    screen := { b.screen with currentPageOnScreen := "drawBehavior" } }) hs
    (drawBehaviorButtons_adds id behavior) ⟨hhouse,hholds⟩

theorem drawSettingRow_adds (y : ℤ) (minus plus : Setting) (id : ℤ) :
    Adds Still (drawSettingRow y minus plus id) := by
  have hsetting : ∀ x : Setting, Usual (.setting x) := fun x =>
    ⟨by simp [Turns],by simp⟩
  exact adds_bind (adds_button rfl (hsetting minus)) (adds_button rfl (hsetting plus))

theorem lastRow_ranged {h : House} (hh : Fitted h) (hb : Quiet h b) (y : ℤ)
    (minus plus : Setting) (id : ℤ) :
    Ends (onScreen (drawSettingRow y minus plus id) b) Ranged Inside :=
  onScreen_ranged hh (drawSettingRow_adds _ _ _ _) hb

theorem twoRows_ranged (a : Answers) (context : String) (id : ℤ)
    (minus plus minus' plus' : Setting) (hs : Fitted s.house) : Ends (do
      let (_,s) ← openBehaviorPage a changeBehaviorID context id s
      let s ← onScreen (drawSettingRow 82 minus plus id) s
      onScreen (drawSettingRow 184 minus' plus' id) s) Ranged Inside := by
  refine ends_bind (openBehaviorPage_quiet a _ _ id s) ?_
  rintro ⟨behavior,b⟩ hb
  exact ends_bind (onScreen_quiet (drawSettingRow_adds _ _ _ _) hb) fun t ht =>
    lastRow_ranged hs ht _ _ _ _

theorem changeBehaviorForFest_ranged (a : Answers) (id : ℤ) (hs : Fitted s.house) :
    Ends (changeBehaviorForFest a id s) Ranged Inside := by
  refine ends_bind (openBehaviorPage_quiet a _ _ id s) ?_
  rintro ⟨behavior,b⟩ hb
  exact lastRow_ranged hs hb _ _ _ _

end Pages

section Handlers
variable {a : Answers} {s t : Eink}

theorem ranged_congr (hs : Ranged s) (hhouse : t.house = s.house) (hscreen : t.screen = s.screen) :
    Ranged t := ⟨hhouse ▸ hs.house,hscreen ▸ hs.paged⟩

theorem dialled_ranged (hs : Ranged s) (hd : Dialled s t) : Ranged t := by
  obtain ⟨-,hscreen,-,hhouse⟩ := hd
  refine ⟨?_,hscreen ▸ hs.paged⟩
  rw [hhouse]
  exact ⟨hs.house.rooms,hs.house.room,hs.house.count,hs.house.entertainment,hs.house.all⟩

theorem goBack_ranged (a : Answers) (hs : Ranged s) : Ends (goBack a s) Ranged Inside := by
  refine ends_bind (other_read s.nav.pagePath _ (by decide)) fun pageID _ => ?_
  let c : Eink := { s with nav := { s.nav with
    pagePageCounter := s.nav.pagePageCounter - 1, isGoingBack := true } }
  have hc : Ranged c := ranged_congr hs rfl rfl
  split
  · exact drawHome_ranged a hc
  split
  · exact drawAllGroups_ranged a hc.house
  split
  · exact drawRoom_ranged a hc.house fun hne => absurd rfl hne
  split
  · exact drawLight_ranged a 0 hc.house
  split
  · exact drawAllLights_ranged a hc.house
  split
  · exact drawAllBehaviors_ranged a hc.house
  split
  · exact drawBehavior_ranged a _ hc.house
  · exact hc

theorem fetchData_ranged (hl : Limited a) (ha : Fits a) (hs : Ranged s) :
    Ends (fetchData a s) Ranged Inside := by
  obtain ⟨house,hx⟩ := fetchHouse_ok hl ha s.house
  have hfetched : Fetched a s.house house := ends_of_ok (fetchHouse_fetched hl s.house) hx
  exact ends_bind_ok hx (drawHome_ranged (s := { s with
    house := house
    shared := { s.shared with
      play := initBehaviors a.unset s.shared.play
      log := deref (begin (firebaseEnd (getNewIds a.known s.shared.log))) }
    uiLevel := a.level.getD s.uiLevel }) a ⟨fetched_fitted hl ha hs.house hfetched,hs.paged⟩)

theorem editSelection_inside (lightId : ℤ) (isSelected : Bool) (x : Shared) :
    Ends (editSelection lightId isSelected x) (fun _ => True) Inside := by
  cases isSelected with
  | true =>
    refine ends_bind (Q := fun _ => True) ?_ fun _ _ => trivial
    rw [removeLight]
    split
    · exact inside (by decide) _
    · split
      · trivial
      · exact fun _ _ _ h => Fault.noConfusion h
  | false =>
    refine ends_bind (Q := fun _ => True) ?_ fun _ _ => trivial
    exact ends_bind (other_write _ _ _ (by decide)) fun _ _ => trivial

theorem selectLight_ranged (a : Answers) (lightId : ℤ) (i : Fin 30) (hs : Ranged s) :
    Ends (selectLight a lightId i s) Ranged Inside := by
  refine ends_bind (editSelection_inside lightId _ s.shared) fun shared _ => ?_
  have hsame : ∀ k : Fin 30, (Function.update s.screen.buttons i
      { s.screen.buttons i with isSelected := !(s.screen.buttons i).isSelected } k).event =
        (s.screen.buttons k).event := by
    intro k
    by_cases hk : k = i
    · subst hk
      rw [Function.update_self]
    · rw [Function.update_of_ne hk]
  refine ⟨hs.house,holds_update hs.paged.holds fun e he => hs.paged.holds i e he,
    fun k hk e he => hs.paged.live k hk e ((hsame k).symm.trans he)⟩

theorem toggleBehavior_ranged (a : Answers) (id : ℤ) (i : Fin 30) (hs : Ranged s) :
    Ends (toggleBehavior a id i s) Ranged Inside := by
  refine ends_bind (other_read s.shared.play.behaviors id (by decide)) fun behavior _ => ?_
  split
  · exact ranged_congr hs rfl rfl
  · split
    · exact ranged_congr hs rfl rfl
    · exact hs

def Continues (s : Eink) : Prop :=
  ∀ l : PagedList, s.screen.currentPageOnScreen = l.text → Upto s.house l s.screen.topIndex.toNat

instance continues_decidable (s : Eink) : Decidable (Continues s) :=
  decidable_of_iff (∀ l ∈ [PagedList.rooms,.lights,.selectable],
      s.screen.currentPageOnScreen = l.text → Upto s.house l s.screen.topIndex.toNat)
    ⟨fun h l => h l (by cases l <;> decide),fun h l _ => h l⟩

theorem drawNextPage_ranged (hs : Ranged s)
    (ht : ∀ l : PagedList, s.screen.currentPageOnScreen = l.text →
      Leads l s.screen.topIndex .drawNextPage) (hc : Continues s) :
    Ends (drawNextPage s) Ranged Inside :=
  turnPage_ranged hs fun l hl => ⟨_,rfl,rfl,(ht l hl).four.1,hc l hl⟩

theorem drawNextPage_outside (ht : ∀ l : PagedList, s.screen.currentPageOnScreen = l.text →
      Leads l s.screen.topIndex .drawNextPage) (hc : ¬Continues s) :
    Ends (drawNextPage s) (fun _ => False) (fun e => ¬Inside e) := by
  obtain ⟨l,hl,hupto⟩ : ∃ l : PagedList, s.screen.currentPageOnScreen = l.text ∧
      ¬Upto s.house l s.screen.topIndex.toNat := by
    by_contra hn
    exact hc fun l hl => not_not.mp fun h => hn ⟨l,hl,h⟩
  obtain ⟨hfour,hnext,-⟩ := ht l hl
  have hlights : l ≠ .lights := fun h => hupto (Or.inl (hnext rfl h))
  rw [drawNextPage, turnPage_eq _ _ hl]
  refine ends_bind (Q := fun _ => False) ?_ fun _ h => h.elim
  exact ends_bind (items_leave (c := 3) (page_leaves hlights hfour.1 hupto) rfl (by
    cases l with
    | lights => exact absurd rfl hlights
    | rooms | selectable =>
      simp only [PagedList.bound]
      omega)) fun _ h => h.elim

theorem drawPrevPage_ranged (hs : Ranged s)
    (ht : ∀ l : PagedList, s.screen.currentPageOnScreen = l.text →
      Leads l s.screen.topIndex .drawPrevPage) :
    Ends (drawPrevPage s) Ranged Inside := by
  refine turnPage_ranged hs fun l hl => ?_
  obtain ⟨⟨hfour,-⟩,-,hprev⟩ := ht l hl
  obtain ⟨h8,hcells⟩ := hprev rfl
  exact ⟨s.screen.topIndex.toNat-8,by omega,by omega,by omega,Or.inl (by omega)⟩

structure Finds (s : Eink) (e : Event) (id : ℤ) : Prop where
  turn : Turns e → ∀ l : PagedList, s.screen.currentPageOnScreen = l.text →
    Leads l s.screen.topIndex e
  room : e = .drawRoom → 0 ≤ id ∧ id < 50

/-- The two handlers whose indices depend on what the bridge has answered. -/
structure Admits (a : Answers) (s : Eink) (e : Event) : Prop where
  fetch : e = .fetchData → Fits a
  next : e = .drawNextPage → Continues s

instance admits_decidable (a : Answers) (s : Eink) (e : Event) : Decidable (Admits a s e) :=
  decidable_of_iff ((e = .fetchData → Fits a) ∧ (e = .drawNextPage → Continues s))
    ⟨fun h => ⟨h.1,h.2⟩,fun h => ⟨h.fetch,h.next⟩⟩

theorem handle_ranged {e : Event} {id : ℤ} (i : Fin 30) (hs : Ranged s) (hf : Finds s e id)
    (hl : e = .fetchData → Limited a) (ha : Admits a s e) :
    Ends (handle a id i s e) Ranged Inside := by
  cases e with
  | fetchData => exact fetchData_ranged (hl rfl) (ha.fetch rfl) hs
  | drawAllGroups => exact drawAllGroups_ranged a hs.house
  | drawRoom => exact drawRoom_ranged a hs.house fun _ => hf.room rfl
  | drawLight => exact drawLight_ranged a id hs.house
  | drawAllLights => exact drawAllLights_ranged a hs.house
  | drawAllBehaviors => exact drawAllBehaviors_ranged a hs.house
  | drawBehavior => exact drawBehavior_ranged a id hs.house
  | changeBehaviorForTraining => exact twoRows_ranged a _ id _ _ _ _ hs.house
  | changeBehaviorForAlarm => exact twoRows_ranged a _ id _ _ _ _ hs.house
  | changeBehaviorForFest => exact changeBehaviorForFest_ranged a id hs.house
  | goBack => exact goBack_ranged a hs
  | drawHomeFromHomeButton =>
    exact drawHome_ranged a (s := { s with nav := { s.nav with pagePageCounter := 0 } })
      (ranged_congr hs rfl rfl)
  | drawNextPage => exact drawNextPage_ranged hs (hf.turn (Or.inl rfl)) (ha.next rfl)
  | drawPrevPage => exact drawPrevPage_ranged hs (hf.turn (Or.inr rfl))
  | switch => exact dialled_ranged (t := switch a s) hs ⟨rfl,rfl,rfl,rfl⟩
  | toggleRGBMode => exact ranged_congr (t := toggleRGBMode a s) hs rfl rfl
  | selectLight => exact selectLight_ranged a id i hs
  | toggleBehavior => exact toggleBehavior_ranged a id i hs
  | setting x => exact ranged_congr hs rfl rfl

theorem touch_ranged {x y : ℤ} (hs : Ranged s)
    (hl : handler s (.touch a x y) = some .fetchData → Limited a)
    (ha : ∀ e, handler s (.touch a x y) = some e → Admits a s e) :
    Ends (touch a x y s) Ranged Inside := by
  rw [touch]
  cases hi : onTouchEvent x y s.screen with
  | none => exact hs
  | some i =>
    dsimp only
    cases he : (s.screen.buttons i).event with
    | none => exact hs
    | some e =>
      have hh : handler s (.touch a x y) = some e := by simp [handler, hi, he]
      obtain ⟨-,hroom⟩ := hs.paged.holds i e he
      exact handle_ranged (s := { s with pressedButton := s.screen.buttons i }) i
        (ranged_congr hs rfl rfl)
        ⟨fun ht => hs.paged.live i (onTouchEvent_live hi) e he ht,hroom⟩
        (fun h => hl (hh.trans (congrArg some h))) ⟨(ha e hh).fetch,(ha e hh).next⟩

end Handlers

end THue.PageBounds
