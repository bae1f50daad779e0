import THue.PagedLists

/-!
# What each page leaves

Every page function enters its page into the path and draws buttons whose
handlers belong to that page. A fault is either a read outside another array,
or comes from a path that takes no further entry.
-/

set_option autoImplicit false

namespace THue.PageDrawing
open THue.Globals THue.Firebase THue.Entertainment THue.BehaviorTask THue.BehaviorSettings
open THue.CheckedArray THue.FaultRun THue.TouchScreen THue.Bridge THue.Pages THue.PagedLists

inductive PageKind where
  | home
  | rooms
  | room
  | light
  | allLights
  | behaviors
  | behavior
  | edit
  deriving DecidableEq, Repr

/-- The id a page enters into the path; the home page of level 1 enters that of the room list. -/
def PageKind.id (level : ℤ) : PageKind → ℤ
  | .home => if level = 1 then drawAllRoomsID else drawHomeID
  | .rooms => drawAllRoomsID
  | .room => drawRoomID
  | .light => drawLightID
  | .allLights => drawAllLightsID
  | .behaviors => drawAllBehaviorID
  | .behavior => drawBehaviorID
  | .edit => changeBehaviorID

theorem id_inj {level : ℤ} (h : level ≠ 1) {p q : PageKind} (hpq : p.id level = q.id level) :
    p = q := by
  cases p <;> cases q <;> first
    | rfl
    | simp only [PageKind.id, if_neg h] at hpq
      exact absurd hpq (by decide)

theorem id_level {k : PageKind} (hk : k ≠ .home) (level : ℤ) : k.id level = k.id 0 := by
  cases k with
  | home => exact absurd rfl hk
  | rooms | room | light | allLights | behaviors | behavior | edit => rfl

/-- At any level, but for the two pages that share an id at level 1. -/
theorem id_iff {k p : PageKind} (hp : p ≠ .home) (hr : p ≠ .rooms) (level : ℤ) :
    k.id level = p.id level ↔ k = p := by
  refine ⟨fun h => ?_,fun h => h ▸ rfl⟩
  rw [id_level hp] at h
  by_cases hk : k = .home
  · subst hk
    rw [PageKind.id] at h
    split at h
    · exact absurd (id_inj (by decide) (show PageKind.id 0 .rooms = p.id 0 from h)).symm hr
    · exact absurd (id_inj (by decide) (show PageKind.id 0 .home = p.id 0 from h)).symm hp
  · rw [id_level hk] at h
    exact id_inj (by decide) h

def PageKind.type : PageKind → Option ScreenType
  | .home => some .home
  | .rooms => some .rooms
  | .room => some .room
  | .light => some .light
  | .allLights | .behaviors | .behavior | .edit => none

/-- A room page opens its room, a light page its light, and the home page of
level 1 the only room; the other pages leave the house as it is. -/
def KeepsHouse (level : ℤ) (h i : House) : PageKind → Prop
  | .home => i = { h with currentRoom := if level = 1 then i.currentRoom else h.currentRoom }
  | .room => i = { h with
      currentRoom := i.currentRoom, lastRoom := i.lastRoom, lights := i.lights
      lightCount := i.lightCount }
  | .light => i = { h with currentLight := i.currentLight }
  | .rooms | .allLights | .behaviors | .behavior | .edit => i = h

def PageKind.list : PageKind → Option PagedList
  | .rooms => some .rooms
  | .room => some .lights
  | .allLights => some .selectable
  | _ => none

def Bar (e : Event) : Prop := e = .goBack ∨ e = .drawHomeFromHomeButton ∨ e = .fetchData

def Turns (e : Event) : Prop := e = .drawNextPage ∨ e = .drawPrevPage

/-- The handlers on a page, with the ids they are called with where these matter. -/
def Offers (level : ℤ) (last : Fin 20) : PageKind → Event → ℤ → Prop
  | .home, e, _ => e = .drawHomeFromHomeButton ∨ e = .fetchData ∨
      (2 ≤ level ∧ (e = .drawAllGroups ∨ e = .drawAllBehaviors))
  | .rooms, e, _ => Bar e ∨ e = .drawRoom ∨ Turns e
  | .room, e, _ => Bar e ∨ e = .drawLight ∨ Turns e
  | .light, e, _ => Bar e ∨ e = .switch ∨ e = .toggleRGBMode
  | .allLights, e, _ => Bar e ∨ e = .selectLight ∨ Turns e
  | .behaviors, e, _ => Bar e ∨ e = .drawBehavior
  | .behavior, e, id => Bar e ∨ e = .drawAllLights ∨ e = .toggleBehavior ∨
      (id = last.val ∧ (e = .changeBehaviorForTraining ∨ e = .changeBehaviorForAlarm ∨
        e = .changeBehaviorForFest))
  | .edit, e, _ => Bar e ∨ ∃ x, e = .setting x

/-- Every button of the screen has a handler that `S` allows. -/
def Presents (S : Event → ℤ → Prop) (s : Screen) : Prop :=
  ∀ i e, (s.buttons i).event = some e → S e (s.buttons i).id

/-- A fault other than an index outside the path. -/
def Elsewhere (e : Fault) : Prop := ∀ i, e ≠ .outside .pagePath i

theorem elsewhere {n : ArrayName} (hn : n ≠ .pagePath) (i : ℤ) : Elsewhere (.outside n i) := by
  intro j h
  cases h
  exact hn rfl

def Data (E : Fault → Prop) : Prop :=
  E .diverges ∧ ∀ n i, n ≠ .buttons ∧ n ≠ .pagePath → E (.outside n i)

theorem elsewhere_data : Data Elsewhere :=
  ⟨fun _ h => Fault.noConfusion h,fun _ i hn => elsewhere hn.2 i⟩

theorem read_ends {α : Type} {n : ℕ} {name : ArrayName} {E : Fault → Prop} (hE : Data E)
    (a : Fin n → α) (i : ℤ) (hn : name ≠ .buttons ∧ name ≠ .pagePath) :
    Ends (read a i (.outside name i)) (fun _ => 0 ≤ i ∧ i < n) E := by
  rw [CheckedArray.read]
  split
  · assumption
  · exact hE.2 name i hn

theorem write_ends {α : Type} {n : ℕ} {name : ArrayName} {E : Fault → Prop} (hE : Data E)
    (a : Fin n → α) (i : ℤ) (v : α) (hn : name ≠ .buttons ∧ name ≠ .pagePath) :
    Ends (write a i v (.outside name i)) (fun _ => True) E := by
  rw [write]
  split
  · trivial
  · exact hE.2 name i hn

def Keeps (S : Event → ℤ → Prop) (f : Screen → Except Fault Screen) : Prop :=
  ∀ s, Presents S s → Ends (f s)
    (fun t => Presents S t ∧ t.currentPageOnScreen = s.currentPageOnScreen) Elsewhere

section Keeps
variable {S : Event → ℤ → Prop} {f g : Screen → Except Fault Screen}

theorem presents_update {s : Screen} {b : Button} {i : Fin 30} (hs : Presents S s)
    (hb : ∀ e, b.event = some e → S e b.id) :
    Presents S { s with buttons := Function.update s.buttons i b } := by
  intro j e he
  simp only at he ⊢
  by_cases hj : j = i
  · subst hj
    rw [Function.update_self] at he ⊢
    exact hb e he
  · rw [Function.update_of_ne hj] at he ⊢
    exact hs j e he

theorem keeps_add {b : Button} (hb : ∀ e, b.event = some e → S e b.id) :
    Keeps S (addButtonToArray b) := by
  intro s hs
  rw [addButtonToArray, write]
  split
  · exact ⟨presents_update hs hb,rfl⟩
  · exact elsewhere (by decide) _

theorem keeps_pure : Keeps S pure := fun _ hs => ⟨hs,rfl⟩

theorem keeps_bind (hf : Keeps S f) (hg : Keeps S g) : Keeps S (fun s => f s >>= g) := by
  intro s hs
  refine ends_bind (hf s hs) fun t ht => ends_imp (hg t ht.1) fun u hu => ?_
  exact ⟨hu.1,hu.2.trans ht.2⟩

theorem keeps_ite {c : Prop} [Decidable c] (hf : Keeps S f) (hg : Keeps S g) :
    Keeps S (fun s => if c then f s else g s) := by
  intro s hs
  by_cases hc : c
  · simp only [hc, if_true]
    exact hf s hs
  · simp only [hc, if_false]
    exact hg s hs

theorem keeps_when {c : Prop} [Decidable c] (hf : Keeps S f) (hg : Keeps S g) :
    Keeps S (fun s => if c then f s >>= g else pure s >>= g) :=
  keeps_ite (keeps_bind hf hg) (keeps_bind keeps_pure hg)

theorem keeps_items {itemAt : ℤ → Except Fault Item} {width height : ℤ}
    (hi : ∀ i, Ends (itemAt i) (fun item => S item.event item.id) Elsewhere) (rounds : ℕ)
    (i x y : ℤ) : Keeps S (drawItems itemAt width height rounds i x y) := by
  induction rounds generalizing i x y with
  | zero => exact keeps_pure
  | succ rounds ih =>
    intro s hs
    refine ends_bind (hi i) fun item hitem => ?_
    by_cases hn : item.name = ""
    · rw [if_pos hn]
      exact ⟨hs,rfl⟩
    · rw [if_neg hn]
      have hadd := keeps_add (S := S)
        (b := { x := x - 0/2, y := y - 0/2, width := width + 0, height := height + 0,
                event := some item.event, id := item.id, name := item.name, on := item.on,
                brightness := item.brightness, isSelected := item.isSelected,
                position := some i }) (fun e he => Option.some.inj he ▸ hitem)
        { s with drawn := s.drawn ++ [i] } hs
      refine ends_bind hadd fun t ht => ?_
      split
      · exact ends_imp (ih _ _ _ t ht.1) fun u hu => ⟨hu.1,hu.2.trans ht.2⟩
      · exact ends_imp (ih _ _ _ t ht.1) fun u hu => ⟨hu.1,hu.2.trans ht.2⟩

theorem keeps_list {itemAt : ℤ → Except Fault Item}
    (hi : ∀ i, Ends (itemAt i) (fun item => S item.event item.id) Elsewhere)
    (width height start last bound : ℤ) :
    Keeps S (drawListFromArray itemAt width height start last bound) := by
  intro s hs
  exact keeps_items hi _ _ _ _
    { s with topIndex := Entertainment.toUInt8 last, drawn := [] } hs

theorem keeps_row (hprev : S .drawPrevPage 1) (hnext : S .drawNextPage 1) (counter : UInt8) :
    Keeps S (drawPaginationButtons counter) := by
  intro s hs
  have hp : ∀ e, (arrow 29 .drawPrevPage).event = some e → S e (arrow 29 .drawPrevPage).id :=
    fun e he => Option.some.inj he ▸ hprev
  have hn : ∀ e, (arrow 84 .drawNextPage).event = some e → S e (arrow 84 .drawNextPage).id :=
    fun e he => Option.some.inj he ▸ hnext
  rw [drawPaginationButtons_eq, ends_ok]
  split
  · split
    · exact ⟨presents_update (presents_update hs hp) hn,rfl⟩
    · exact ⟨presents_update hs hp,rfl⟩
  · split
    · exact ⟨presents_update hs hn,rfl⟩
    · exact ⟨hs,rfl⟩

end Keeps

def Blocked (n : Nav) : Prop :=
  n.isGoingBack = false ∧ ¬(0 ≤ n.pagePageCounter ∧ n.pagePageCounter < 10)

instance blocked_decidable (n : Nav) : Decidable (Blocked n) :=
  inferInstanceAs (Decidable (_ ∧ ¬_))

structure Entered (q : ℤ) (n m : Nav) : Prop where
  id : m.currentRoomID = q
  back : m.isGoingBack = false
  kept : n.isGoingBack = true →
    m.pagePath = n.pagePath ∧ m.pagePageCounter = n.pagePageCounter
  pushed : n.isGoingBack = false → ∃ (c : ℕ) (hc : c < 10), n.pagePageCounter = c ∧
    m.pagePath = Function.update n.pagePath ⟨c,hc⟩ q ∧ m.pagePageCounter = c+1

theorem addPage_ends (n : Nav) : Ends (addPageToPagePath n)
    (fun m => Entered n.currentRoomID n m ∧ m.currentScreenType = n.currentScreenType)
    (fun _ => Blocked n) := by
  rw [addPageToPagePath]
  by_cases hb : n.isGoingBack = true
  · rw [if_pos hb]
    exact ⟨⟨rfl,rfl,fun _ => ⟨rfl,rfl⟩,fun h => absurd (hb.symm.trans h) (by decide)⟩,rfl⟩
  · rw [if_neg hb]
    have hf := eq_false_of_ne_true hb
    by_cases hc : 0 ≤ n.pagePageCounter ∧ n.pagePageCounter < 10
    · obtain ⟨c,hn⟩ := Int.eq_ofNat_of_zero_le hc.1
      rw [hn, write_inside n.pagePath n.currentRoomID _ c (by omega)]
      exact ⟨⟨rfl,rfl,fun h => absurd (hf.symm.trans h) (by decide),
        fun _ => ⟨c,by omega,hn,rfl,rfl⟩⟩,rfl⟩
    · rw [write_outside n.pagePath n.currentRoomID _ n.pagePageCounter (by omega)]
      exact ⟨hf,hc⟩

/-- What a page function leaves: the page entered, and only its own handlers on screen. -/
structure Shown (k : PageKind) (room : ℤ) (last : Fin 20) (s t : Eink) : Prop where
  nav : Entered (k.id s.uiLevel) s.nav t.nav
  level : t.uiLevel = s.uiLevel
  offers : Presents (Offers s.uiLevel last k) t.screen
  text : ∀ l, k.list = some l → t.screen.currentPageOnScreen = l.text
  type : t.nav.currentScreenType = k.type.getD s.nav.currentScreenType
  room : t.house.lastRoom = room
  behavior : t.shared.play.lastBehaviorId = last
  mode : t.RGBMode = s.RGBMode
  house : KeepsHouse s.uiLevel s.house t.house k

def PageFault (s : Eink) (e : Fault) : Prop := Elsewhere e ∨ Blocked s.nav

structure Dressed (S : Event → ℤ → Prop) (b t : Eink) : Prop where
  nav : t.nav = b.nav
  level : t.uiLevel = b.uiLevel
  mode : t.RGBMode = b.RGBMode
  house : t.house = b.house
  behavior : t.shared.play.lastBehaviorId = b.shared.play.lastBehaviorId
  presents : Presents S t.screen
  page : t.screen.currentPageOnScreen = b.screen.currentPageOnScreen

section Pages
variable {S : Event → ℤ → Prop} {f : Screen → Except Fault Screen} {b c s : Eink}
variable {k : PageKind} {text : String} {room : ℤ} {last : Fin 20} {E : Fault → Prop}

theorem onScreen_dressed (hf : Keeps S f) (h : Dressed S b c) :
    Ends (onScreen f c) (Dressed S b) Elsewhere := by
  refine ends_bind (hf c.screen h.presents) fun t ht => ?_
  exact ⟨h.nav,h.level,h.mode,h.house,h.behavior,ht.1,ht.2.trans h.page⟩

theorem headed_presents (hback : text ≠ "HJEM" → S .goBack 12) (hfetch : S .fetchData 12)
    (hhome : S .drawHomeFromHomeButton 12) (screen : Screen) : Presents S (headed text screen) := by
  rw [headed]
  refine presents_update (presents_update (s := { screen with
    buttons := fun _ => {}, buttonCount := 2, currentPageOnScreen := text }) ?_ ?_) ?_
  · exact fun i e he => by cases he
  · intro e he
    obtain rfl := Option.some.inj he
    by_cases ht : text ≠ "HJEM"
    · rw [if_pos ht]
      exact hback ht
    · rw [if_neg ht]
      exact hfetch
  · intro e he
    obtain rfl := Option.some.inj he
    exact hhome

theorem offers_bar (level : ℤ) (last : Fin 20) (hk : k ≠ .home) {e : Event} (he : Bar e) (id : ℤ) :
    Offers level last k e id := by
  cases k with
  | home => exact absurd rfl hk
  | rooms | room | light | allLights | behaviors | behavior | edit => exact Or.inl he

structure Heading (k : PageKind) (text : String) (s b : Eink) : Prop where
  nav : Entered (k.id s.uiLevel) s.nav b.nav
  level : b.uiLevel = s.uiLevel
  mode : b.RGBMode = s.RGBMode
  page : b.screen.currentPageOnScreen = text
  presents : ∀ last, (k = .home → text = "HJEM") → Presents (Offers s.uiLevel last k) b.screen

/-- A page function is a header and what it draws below. The header runs in a
state `c` that has noted the page but not touched the path. -/
theorem header_ends {β : Type} {g : Eink → Except Fault β} {Q : β → Prop}
    (hid : c.nav.currentRoomID = k.id s.uiLevel) (hpath : c.nav.pagePath = s.nav.pagePath)
    (hcount : c.nav.pagePageCounter = s.nav.pagePageCounter)
    (hback : c.nav.isGoingBack = s.nav.isGoingBack) (hlevel : c.uiLevel = s.uiLevel)
    (hmode : c.RGBMode = s.RGBMode)
    (hg : ∀ b, Heading k text s b → b.nav.currentScreenType = c.nav.currentScreenType →
      b.house = c.house → b.shared = c.shared → Ends (g b) Q Elsewhere) :
    Ends (drawHeader text c >>= g) Q (PageFault s) := by
  have hadd := addPage_ends c.nav
  cases hn : addPageToPagePath c.nav with
  | error e =>
    rw [hn] at hadd
    have he : drawHeader text c = .error e := by
      rw [drawHeader, hn]
      rfl
    rw [he]
    refine Or.inr ?_
    rw [Blocked, hcount, hback] at hadd
    exact hadd
  | ok nav =>
    rw [hn] at hadd
    obtain ⟨hen,htype⟩ := hadd
    rw [drawHeader_ok.mpr ⟨nav,hn,rfl⟩]
    have hentered : Entered (k.id s.uiLevel) s.nav nav := by
      refine ⟨hen.id.trans hid,hen.back,fun h => ?_,fun h => ?_⟩
      · rw [← hpath, ← hcount]
        exact hen.kept (hback.trans h)
      · rw [← hpath, ← hcount, ← hid]
        exact hen.pushed (hback.trans h)
    refine ends_mono (hg _ ⟨hentered,hlevel,hmode,rfl,fun last hh => ?_⟩ htype rfl rfl)
      (fun _ h => h) fun _ h => Or.inl h
    by_cases hk : k = .home
    · subst hk
      exact headed_presents (fun ht => absurd (hh rfl) ht) (Or.inr (Or.inl rfl)) (Or.inl rfl) _
    · exact headed_presents (fun _ => offers_bar _ _ hk (Or.inl rfl) 12)
        (offers_bar _ _ hk (Or.inr (Or.inr rfl)) 12) (offers_bar _ _ hk (Or.inr (Or.inl rfl)) 12) _

theorem heading_of {d : Eink} (hh : Heading k text s b) (hk : k ≠ .home) (hnav : d.nav = b.nav)
    (hlevel : d.uiLevel = b.uiLevel) (hmode : d.RGBMode = b.RGBMode)
    (hbuttons : d.screen.buttons = b.screen.buttons) :
    Heading k d.screen.currentPageOnScreen s d := by
  refine ⟨hnav ▸ hh.nav,hlevel.trans hh.level,hmode.trans hh.mode,rfl,fun last _ i e he => ?_⟩
  rw [hbuttons] at he ⊢
  exact hh.presents last (fun h => absurd h hk) i e he

theorem heading_dressed (hh : Heading k text s b) (last : Fin 20) (hk : k ≠ .home) :
    Dressed (Offers s.uiLevel last k) b b :=
  ⟨rfl,rfl,rfl,rfl,rfl,hh.presents last fun h => absurd h hk,rfl⟩

theorem dressed_ends {x : Except Fault Eink} (hh : Heading k text s b)
    (hx : Ends x (Dressed (Offers s.uiLevel last k) b) Elsewhere)
    (htext : ∀ l, k.list = some l → b.screen.currentPageOnScreen = l.text)
    (htype : b.nav.currentScreenType = k.type.getD s.nav.currentScreenType)
    (hroom : b.house.lastRoom = room) (hlast : b.shared.play.lastBehaviorId = last)
    (hhouse : KeepsHouse s.uiLevel s.house b.house k) :
    Ends x (Shown k room last s) Elsewhere := by
  refine ends_imp hx fun t hd => ?_
  exact ⟨hd.nav ▸ hh.nav,hd.level.trans hh.level,hd.presents,fun l hl => hd.page.trans (htext l hl),
    hd.nav ▸ htype,hd.house ▸ hroom,hd.behavior.trans hlast,hd.mode.trans hh.mode,
    hd.house ▸ hhouse⟩

theorem dressed_top (h : Dressed S b c) (top : UInt8) :
    Dressed S b { c with screen := { c.screen with topIndex := top } } :=
  ⟨h.nav,h.level,h.mode,h.house,h.behavior,h.presents,h.page⟩

theorem offers_list {l : PagedList} (hl : k.list = some l) (level : ℤ) (last : Fin 20) (id : ℤ) :
    Offers level last k l.event id ∧ Offers level last k .drawNextPage id ∧
      Offers level last k .drawPrevPage id := by
  cases k with
  | rooms | room | allLights =>
    cases hl
    exact ⟨Or.inr (Or.inl rfl),Or.inr (Or.inr (Or.inl rfl)),Or.inr (Or.inr (Or.inr rfl))⟩
  | home | light | behaviors | behavior | edit => cases hl

theorem selectedFrom_ends (hE : Data E) (x : Behavior) (id : UInt8) (rounds p : ℕ) :
    Ends (selectedFrom x id rounds p) (fun _ => True) E := by
  induction rounds generalizing p with
  | zero => trivial
  | succ rounds ih =>
    exact ends_bind (read_ends hE x.lightIds p (by decide)) fun _ _ =>
      ends_bind (ih (p+1)) fun _ _ => trivial

theorem itemAt_ends (hE : Data E) (l : PagedList) (s : Eink) (i : ℤ) :
    Ends (l.itemAt s i) (fun item => item.event = l.event) E := by
  cases l with
  | rooms => exact ends_bind (read_ends hE s.house.rooms i (by decide)) fun _ _ => rfl
  | lights => exact ends_bind (read_ends hE s.house.lights i (by decide)) fun _ _ => rfl
  | selectable =>
    refine ends_bind (read_ends hE s.house.entertainmentLights i (by decide)) fun light _ => ?_
    split
    · rfl
    · exact ends_bind (selectedFrom_ends hE _ _ _ _) fun _ _ => rfl

theorem draw_keeps {l : PagedList} (hl : k.list = some l) (level : ℤ) (last : Fin 20) (d : Eink)
    (start bound : ℤ) : Keeps (Offers level last k) (l.draw d start bound) :=
  keeps_list (fun i => ends_imp (itemAt_ends elsewhere_data l d i)
    (fun item hi => hi ▸ (offers_list hl level last item.id).1)) _ _ _ _ _

theorem row_keeps {l : PagedList} (hl : k.list = some l) (level : ℤ) (last : Fin 20)
    (counter : UInt8) : Keeps (Offers level last k) (drawPaginationButtons counter) :=
  keeps_row (offers_list hl level last 1).2.2 (offers_list hl level last 1).2.1 counter

theorem list_dressed {l : PagedList} {paged : Prop} [Decidable paged] {counter : UInt8}
    {f g : Eink → Screen → Except Fault Screen} (hl : k.list = some l) {level : ℤ}
    {last : Fin 20} (h : Dressed (Offers level last k) b c)
    (hf : ∀ d, Keeps (Offers level last k) (f d)) (hg : ∀ d, Keeps (Offers level last k) (g d)) :
    Ends (if paged then do
        let s ← onScreen (drawPaginationButtons counter)
          { c with screen := { c.screen with topIndex := 4 } }
        onScreen (f s) s
      else onScreen (g c) c) (Dressed (Offers level last k) b) Elsewhere := by
  split
  · exact ends_bind (onScreen_dressed (row_keeps hl level last counter) (dressed_top h 4))
      fun d hd => onScreen_dressed (hf d) hd
  · exact onScreen_dressed (hg c) h

theorem drawAllGroups_shown (a : Answers) (s : Eink) :
    Ends (drawAllGroups a s) (Shown .rooms s.house.lastRoom s.shared.play.lastBehaviorId s)
      (PageFault s) := by
  refine header_ends (k := .rooms) rfl rfl rfl rfl rfl rfl fun b hb htype hhouse hshared => ?_
  have hdraw := fun d : Eink => draw_keeps (k := .rooms) rfl s.uiLevel
    s.shared.play.lastBehaviorId d 0 4
  refine dressed_ends hb ?_ (fun l hl => ?_) htype (by rw [hhouse]; rfl) (by rw [hshared]; rfl)
    hhouse
  · exact list_dressed (f := fun d => drawRoomsFromArray 0 4 d.house)
      (g := fun d => drawRoomsFromArray 0 4 d.house) rfl (heading_dressed hb _ (by decide)) hdraw
      hdraw
  · cases hl
    exact hb.page

theorem chooseRoom_ends (hE : Data E) (room : ℤ) (h : House) :
    Ends (chooseRoom room h)
      (fun i => i = { h with currentRoom := i.currentRoom, lastRoom := room }) E := by
  rw [chooseRoom]
  split
  · exact ends_bind (read_ends hE h.rooms room (by decide)) fun _ _ => rfl
  · rfl

theorem getLightStatesFrom_ends {n : ℕ} {name : ArrayName} (hE : Data E)
    (hn : name ≠ .buttons ∧ name ≠ .pagePath) (states : ℕ → Light) (ids : Fin 20 → UInt8)
    (rounds i : ℕ) (lights : Fin n → Light) :
    Ends (getLightStatesFrom (.outside name) states ids rounds i lights) (fun _ => True) E := by
  induction rounds generalizing i lights with
  | zero => trivial
  | succ rounds ih =>
    refine ends_bind (read_ends hE ids i (by decide)) fun id _ => ?_
    exact ends_bind (write_ends hE _ _ _ hn) fun lights _ => ih (i+1) lights

theorem drawRoom_shown (a : Answers) (room : ℤ) (s : Eink) :
    Ends (drawRoom a room s) (Shown .room room s.shared.play.lastBehaviorId s) (PageFault s) := by
  refine ends_bind (Q := fun i => ∃ r, i = { s.house with currentRoom := r, lastRoom := room })
    (ends_mono (chooseRoom_ends elsewhere_data room s.house)
      (fun _ h => ⟨_,h⟩) fun _ h => Or.inl h) ?_
  rintro house ⟨current,rfl⟩
  refine header_ends (k := .room) rfl rfl rfl rfl rfl rfl fun b hb htype hhouse hshared => ?_
  refine ends_bind (Q := fun _ => True)
    (getLightStatesFrom_ends elsewhere_data (by decide) _ _ _ _ _) fun lights _ => ?_
  let d : Eink := { b with
    screen := { b.screen with currentPageOnScreen := "RUM" }
    shared := (logAction a (navigatedTo "drawRoom" current.name) b).shared
    house := { s.house with
      currentRoom := current
      lastRoom := room
      lights := lights
      lightCount := current.lightCounter } }
  have hd : Heading .room "RUM" s d := heading_of (d := d) hb (by decide) rfl rfl rfl rfl
  have hdraw := fun e : Eink => draw_keeps (k := .room) rfl s.uiLevel
    s.shared.play.lastBehaviorId d 0 4
  refine dressed_ends hd ?_ (fun l hl => ?_) htype rfl (by simp only [d, logAction, hshared]) rfl
  · exact list_dressed (c := d) (f := fun _ => drawLightsFromArray 0 4 d.house)
      (g := fun _ => drawLightsFromArray 0 4 d.house) rfl (heading_dressed hd _ (by decide)) hdraw
      hdraw
  · cases hl
    exact hd.page

theorem drawAllLights_shown (a : Answers) (s : Eink) :
    Ends (drawAllLights a s) (Shown .allLights s.house.lastRoom s.shared.play.lastBehaviorId s)
      (PageFault s) := by
  refine header_ends (k := .allLights) rfl rfl rfl rfl rfl rfl fun b hb htype hhouse hshared => ?_
  have hdraw := fun (d : Eink) (last : ℤ) => draw_keeps (k := .allLights) rfl s.uiLevel
    s.shared.play.lastBehaviorId d 0 last
  refine dressed_ends hb ?_ (fun l hl => ?_) htype (by rw [hhouse]; rfl) (by rw [hshared]; rfl)
    hhouse
  · exact list_dressed
      (f := fun d => drawSelectableLightsFromArray 0 d.screen.topIndex.toNat d.house
        (running d.shared))
      (g := fun d => drawSelectableLightsFromArray 0 d.house.entertainmentRoom.lightCounter.toNat
        d.house (running d.shared))
      rfl (heading_dressed hb _ (by decide)) (fun d => hdraw d _) (fun d => hdraw d _)
  · cases hl
    exact hb.page

theorem findLight_ends (hE : Data E) (lights : Fin 50 → Light) (id : ℤ) (rounds i : ℕ)
    (found : Light) : Ends (findLight lights id rounds i found) (fun _ => True) E := by
  induction rounds generalizing i found with
  | zero => trivial
  | succ rounds ih =>
    exact ends_bind (read_ends hE lights i (by decide)) fun _ _ => ih (i+1) _

theorem openLight_ends (hE : Data E) (a : Answers) (lightId : ℤ) (s : Eink) :
    Ends (openLight a lightId s) (fun p => ∃ light log, p.2 = { s with
      house := { s.house with currentLight := light }
      shared := { s.shared with log := log } }) E := by
  rw [openLight]
  split
  · exact ends_bind (findLight_ends hE _ _ _ _ _) fun light _ => ⟨light,s.shared.log,rfl⟩
  · exact ends_bind (findLight_ends hE _ _ _ _ _) fun light _ => ⟨light,_,rfl⟩

theorem drawScales_keeps (light : Light) (level : ℤ) (last : Fin 20) :
    Keeps (Offers level last .light) (drawScales light) := by
  have hcircle : ∀ x y radio name on, Keeps (Offers level last .light)
      (drawCircle x y radio name .toggleRGBMode light.id.toNat on) := fun _ _ _ _ _ =>
    keeps_add fun e he => Option.some.inj he ▸ Or.inr (Or.inr rfl)
  exact keeps_ite keeps_pure (keeps_bind (hcircle _ _ _ _ _) (hcircle _ _ _ _ _))

theorem drawLight_shown (a : Answers) (lightId : ℤ) (s : Eink) :
    Ends (drawLight a lightId s)
      (Shown .light s.house.lastRoom s.shared.play.lastBehaviorId s) (PageFault s) := by
  refine ends_bind (ends_mono (openLight_ends elsewhere_data a lightId s) (fun _ h => h)
    fun _ h => Or.inl h) ?_
  rintro ⟨name,c⟩ ⟨light,log,hc⟩
  obtain rfl := hc
  refine header_ends (k := .light) rfl rfl rfl rfl rfl rfl fun b hb htype hhouse hshared => ?_
  refine dressed_ends hb ?_ nofun htype (by rw [hhouse]) (by rw [hshared])
    (by rw [hhouse, KeepsHouse])
  refine ends_bind (onScreen_dressed (keeps_add fun e he => ?_) (heading_dressed hb _ (by decide)))
    fun d hd => onScreen_dressed (drawScales_keeps _ _ _) hd
  exact Option.some.inj he ▸ Or.inr (Or.inl rfl)

theorem home_dressed (hh : Heading .home "HJEM" s b) (last : Fin 20) :
    Dressed (Offers s.uiLevel last .home) b b :=
  ⟨rfl,rfl,rfl,rfl,rfl,hh.presents last fun _ => rfl,rfl⟩

theorem drawHome_shown (a : Answers) (s : Eink) (hlevel : 1 ≤ s.uiLevel) :
    Ends (drawHome a s) (Shown .home s.house.lastRoom s.shared.play.lastBehaviorId s)
      (PageFault s) := by
  by_cases h1 : s.uiLevel = 1
  · rw [show drawHome a s = _ from if_pos h1]
    refine ends_bind (ends_mono (read_ends elsewhere_data s.house.rooms 1 (by decide))
      (fun _ h => h) fun _ h => Or.inl h) fun room _ => ?_
    rw [← bind_pure (drawHeader _ _)]
    refine header_ends (k := .home) (if_pos h1).symm rfl rfl rfl rfl rfl
      fun b hb htype hhouse hshared => ?_
    refine dressed_ends hb (home_dressed hb _) nofun htype (by rw [hhouse]; rfl)
      (by rw [hshared]; rfl) ?_
    rw [hhouse, KeepsHouse, if_pos h1]
    rfl
  · have h2 : 2 ≤ s.uiLevel := by omega
    rw [show drawHome a s = _ from (if_neg h1).trans (if_pos h2)]
    refine header_ends (k := .home) (if_neg h1).symm rfl rfl rfl rfl rfl
      fun b hb htype hhouse hshared => ?_
    refine dressed_ends hb ?_ nofun htype (by rw [hhouse]; rfl) (by rw [hshared]; rfl)
      (by rw [hhouse, KeepsHouse, if_neg h1]; rfl)
    refine ends_bind (onScreen_dressed (keeps_add fun e he => ?_)
      (home_dressed hb s.shared.play.lastBehaviorId)) fun d hd => ?_
    · exact Option.some.inj he ▸ Or.inr (Or.inr ⟨h2,Or.inl rfl⟩)
    · split
      · exact onScreen_dressed (keeps_add fun e he => Option.some.inj he ▸
          Or.inr (Or.inr ⟨h2,Or.inr rfl⟩)) hd
      · exact hd

theorem openBehaviorPage_ends (a : Answers) (pageID : ℤ) (context : String) (id : ℤ) (s : Eink)
    (hk : k ≠ .home) (hid : pageID = k.id s.uiLevel) :
    Ends (openBehaviorPage a pageID context id s) (fun p => (∃ text, Heading k text s p.2) ∧
      p.2.nav.currentScreenType = s.nav.currentScreenType ∧
      p.2.house = s.house ∧ p.2.shared.play.lastBehaviorId = Fin.ofNat 20 id.toNat ∧
      id = (Fin.ofNat 20 id.toNat : Fin 20).val) (PageFault s) := by
  refine ends_bind (ends_mono (read_ends elsewhere_data s.shared.play.behaviors id (by decide))
    (fun _ h => h) fun _ h => Or.inl h) fun behavior hin => ?_
  refine header_ends (k := k) hid rfl rfl rfl rfl rfl fun b hb htype hhouse hshared => ?_
  refine ⟨⟨_,heading_of hb hk rfl rfl rfl rfl⟩,htype,hhouse,?_,?_⟩
  · simp only [logAction, hshared]
  · rw [Fin.val_ofNat]
    omega

theorem drawSquare_keeps {S : Event → ℤ → Prop} {e : Event} {id : ℤ} (h : S e id)
    (x y width height : ℤ) (text : String) : Keeps S (drawSquare x y width height text e id) :=
  keeps_add fun _ he => Option.some.inj he ▸ h

theorem drawBehaviorButtons_keeps (id : ℤ) (behavior : Behavior) (level : ℤ) (last : Fin 20)
    (hid : id = last.val) :
    Keeps (Offers level last .behavior) (drawBehaviorButtons id behavior) := by
  have hedit : ∀ e, e = .changeBehaviorForTraining ∨ e = .changeBehaviorForAlarm ∨
      e = .changeBehaviorForFest → Offers level last .behavior e id :=
    fun e he => Or.inr (Or.inr (Or.inr ⟨hid,he⟩))
  have htoggle : Offers level last .behavior .toggleBehavior id := Or.inr (Or.inr (Or.inl rfl))
  refine keeps_bind (drawSquare_keeps (Or.inr (Or.inl rfl)) _ _ _ _ _) ?_
  refine keeps_when (drawSquare_keeps (hedit _ (Or.inl rfl)) _ _ _ _ _) ?_
  refine keeps_when (drawSquare_keeps (hedit _ (Or.inr (Or.inl rfl))) _ _ _ _ _) ?_
  refine keeps_when (drawSquare_keeps (hedit _ (Or.inr (Or.inr rfl))) _ _ _ _ _) ?_
  exact keeps_bind (drawSquare_keeps htoggle _ _ _ _ _) (drawSquare_keeps htoggle _ _ _ _ _)

theorem drawBehavior_shown (a : Answers) (id : ℤ) (s : Eink) :
    Ends (drawBehavior a id s) (Shown .behavior s.house.lastRoom (Fin.ofNat 20 id.toNat) s)
      (PageFault s) := by
  refine ends_bind (openBehaviorPage_ends (k := .behavior) a _ _ id s (by decide) rfl) ?_
  rintro ⟨behavior,b⟩ ⟨⟨text,hb⟩,htype,hhouse,hlast,hid⟩
  simp only at hb htype hhouse hlast
  let d : Eink := { b with screen := { b.screen with currentPageOnScreen := "drawBehavior" } }
  have hd : Heading .behavior "drawBehavior" s d :=
    heading_of (d := d) hb (by decide) rfl rfl rfl rfl
  refine ends_mono (dressed_ends hd ?_ nofun htype (congrArg _ hhouse) hlast hhouse)
    (fun _ h => h) fun _ h => Or.inl h
  exact onScreen_dressed (drawBehaviorButtons_keeps id behavior _ _ hid)
    (heading_dressed hd _ (by decide))

theorem drawSettingRow_keeps (level : ℤ) (last : Fin 20) (y : ℤ) (minus plus : Setting) (id : ℤ) :
    Keeps (Offers level last .edit) (drawSettingRow y minus plus id) :=
  keeps_bind (drawSquare_keeps (Or.inr ⟨minus,rfl⟩) _ _ _ _ _)
    (drawSquare_keeps (Or.inr ⟨plus,rfl⟩) _ _ _ _ _)

theorem changeBehavior_shown {a : Answers} {context : String} {id : ℤ}
    {g : Behavior × Eink → Except Fault Eink} (s : Eink)
    (hg : ∀ p S, Dressed (Offers s.uiLevel S .edit) p.2 p.2 →
      Ends (g p) (Dressed (Offers s.uiLevel S .edit) p.2) Elsewhere) :
    Ends (openBehaviorPage a changeBehaviorID context id s >>= g)
      (Shown .edit s.house.lastRoom (Fin.ofNat 20 id.toNat) s) (PageFault s) := by
  refine ends_bind (openBehaviorPage_ends (k := .edit) a _ _ id s (by decide) rfl) ?_
  rintro ⟨behavior,b⟩ ⟨⟨text,hb⟩,htype,hhouse,hlast,-⟩
  simp only at hb htype hhouse hlast
  exact ends_mono (dressed_ends hb (hg (behavior,b) _ (heading_dressed hb _ (by decide))) nofun
    htype (congrArg _ hhouse) hlast hhouse) (fun _ h => h) fun _ h => Or.inl h

theorem changeBehaviorForTraining_shown (a : Answers) (id : ℤ) (s : Eink) :
    Ends (changeBehaviorForTraining a id s)
      (Shown .edit s.house.lastRoom (Fin.ofNat 20 id.toNat) s) (PageFault s) :=
  changeBehavior_shown s fun _ _ hd =>
    ends_bind (onScreen_dressed (drawSettingRow_keeps _ _ _ _ _ _) hd) fun _ he =>
      onScreen_dressed (drawSettingRow_keeps _ _ _ _ _ _) he

theorem changeBehaviorForAlarm_shown (a : Answers) (id : ℤ) (s : Eink) :
    Ends (changeBehaviorForAlarm a id s)
      (Shown .edit s.house.lastRoom (Fin.ofNat 20 id.toNat) s) (PageFault s) :=
  changeBehavior_shown s fun _ _ hd =>
    ends_bind (onScreen_dressed (drawSettingRow_keeps _ _ _ _ _ _) hd) fun _ he =>
      onScreen_dressed (drawSettingRow_keeps _ _ _ _ _ _) he

theorem changeBehaviorForFest_shown (a : Answers) (id : ℤ) (s : Eink) :
    Ends (changeBehaviorForFest a id s)
      (Shown .edit s.house.lastRoom (Fin.ofNat 20 id.toNat) s) (PageFault s) :=
  changeBehavior_shown s fun _ _ hd => onScreen_dressed (drawSettingRow_keeps _ _ _ _ _ _) hd

theorem drawBehaviorsFrom_keeps (behaviors : Fin 20 → Behavior) (level : ℤ) (last : Fin 20)
    (rounds i : ℕ) (x y : ℤ) :
    Keeps (Offers level last .behaviors) (drawBehaviorsFrom behaviors rounds i x y) := by
  induction rounds generalizing i x y with
  | zero => exact keeps_pure
  | succ rounds ih =>
    intro s hs
    refine ends_bind (read_ends elsewhere_data behaviors i (by decide)) fun behavior _ => ?_
    have hadd : Keeps (Offers level last .behaviors) (drawBitmap x y 0 0 48 48 behavior.name
        .drawBehavior i false false 0 false none) :=
      keeps_add fun e he => Option.some.inj he ▸ Or.inr rfl
    refine keeps_bind hadd ?_ s hs
    exact keeps_ite (ih _ _ _) (ih _ _ _)

theorem drawAllBehaviors_shown (a : Answers) (s : Eink) :
    Ends (drawAllBehaviors a s)
      (Shown .behaviors s.house.lastRoom s.shared.play.lastBehaviorId s) (PageFault s) := by
  refine header_ends (k := .behaviors) rfl rfl rfl rfl rfl rfl fun b hb htype hhouse hshared => ?_
  refine dressed_ends hb ?_ nofun htype (by rw [hhouse]; rfl) (by rw [hshared]; rfl)
    hhouse
  exact onScreen_dressed (drawBehaviorsFrom_keeps _ _ _ _ _ _ _) (heading_dressed hb _ (by decide))

theorem storeFrom_ends {α : Type} {n : ℕ} {name : ArrayName} (hE : Data E)
    (hn : name ≠ .buttons ∧ name ≠ .pagePath) (i : ℤ) (xs : List α) (arr : Fin n → α) :
    Ends (storeFrom (.outside name) i xs arr) (fun _ => True) E := by
  induction xs generalizing i arr with
  | nil => trivial
  | cons x xs ih => exact ends_bind (write_ends hE _ _ _ hn) fun arr _ => ih (i+1) arr

theorem fetchHouse_ends (hE : Data E) (a : Answers) (h : House) :
    Ends (fetchHouse a h) (fun _ => True) E := by
  refine ends_bind (getLightStatesFrom_ends hE (by decide) _ _ _ _ _) fun _ _ => ?_
  refine ends_bind (Q := fun _ => True) ?_ fun _ _ => ?_
  · exact ends_bind (storeFrom_ends hE (by decide) _ _ _) fun _ _ => trivial
  · exact ends_bind (storeFrom_ends hE (by decide) _ _ _) fun _ _ => trivial

theorem fetchData_shown (a : Answers) (s : Eink) (hlevel : 1 ≤ a.level.getD s.uiLevel) :
    Ends (fetchData a s) (fun t => ∃ c, c.nav = s.nav ∧ c.uiLevel = a.level.getD s.uiLevel ∧
      Shown .home c.house.lastRoom c.shared.play.lastBehaviorId c t) (PageFault s) := by
  refine ends_bind (ends_mono (fetchHouse_ends elsewhere_data a s.house) (fun _ h => h)
    fun _ h => Or.inl h) fun house _ => ?_
  refine ends_imp (drawHome_shown a _ hlevel) fun t ht => ?_
  refine ⟨_,?_,?_,ht⟩
  · rfl
  · rfl

/-- Beside the pages a handler draws on the page on screen and edits the
records of the other tasks. -/
def Remains (s t : Eink) : Prop := t = { s with screen := t.screen, shared := t.shared }

theorem remains_trans {t u : Eink} (h : Remains s t) (g : Remains t u) : Remains s u := by
  rw [Remains, h] at g
  exact g

theorem onScreen_remains (f : Screen → Except Fault Screen) (s : Eink) :
    Ends (onScreen f s) (Remains s) (fun _ => True) :=
  ends_bind (ends_true _) fun _ _ => rfl

theorem turnPage_remains (start last : ℤ) (s : Eink) :
    Ends (turnPage start last s) (Remains s) (fun _ => True) := by
  let c : Eink := { s with screen := { s.screen with buttonCount := 3 } }
  have htwice : ∀ (f : Screen → Except Fault Screen) (g : Eink → Screen → Except Fault Screen),
      Ends (onScreen f c >>= fun t => onScreen (g t) t) (Remains s) (fun _ => True) := fun f g =>
    ends_bind (onScreen_remains f c) fun d hd => ends_imp (onScreen_remains (g d) d) fun _ ht =>
      remains_trans (t := c) rfl (remains_trans hd ht)
  rw [turnPage]
  dsimp only
  split
  · exact htwice _ fun t => drawPaginationButtons t.house.roomsCount
  split
  · exact htwice _ fun t => drawPaginationButtons t.house.lightCount
  split
  · exact htwice _ fun t => drawPaginationButtons t.house.allLightCount
  · exact rfl

theorem selectLight_remains (a : Answers) (lightId : ℤ) (i : Fin 30) (s : Eink) :
    Ends (selectLight a lightId i s) (Remains s) (fun _ => True) :=
  ends_bind (ends_true _) fun _ _ => rfl

theorem toggleBehavior_remains (a : Answers) (id : ℤ) (i : Fin 30) (s : Eink) :
    Ends (toggleBehavior a id i s) (Remains s) (fun _ => True) := by
  refine ends_bind (ends_true _) fun behavior _ => ?_
  split
  · exact rfl
  · split
    · exact rfl
    · exact rfl

/-- The page a handler opens. -/
def pageOf : Event → Option PageKind
  | .drawAllGroups => some .rooms
  | .drawRoom => some .room
  | .drawLight => some .light
  | .drawAllLights => some .allLights
  | .drawAllBehaviors => some .behaviors
  | .drawBehavior => some .behavior
  | .changeBehaviorForTraining | .changeBehaviorForAlarm | .changeBehaviorForFest => some .edit
  | _ => none

theorem handle_shown {e : Event} (hk : pageOf e = some k) (a : Answers) (id : ℤ) (i : Fin 30)
    (s : Eink) : Ends (handle a id i s e)
      (Shown k (if k = .room then id else s.house.lastRoom)
        (if k = .behavior ∨ k = .edit then Fin.ofNat 20 id.toNat
          else s.shared.play.lastBehaviorId) s) (PageFault s) := by
  cases e with
  | drawAllGroups => cases hk; exact drawAllGroups_shown a s
  | drawRoom => cases hk; exact drawRoom_shown a id s
  | drawLight => cases hk; exact drawLight_shown a id s
  | drawAllLights => cases hk; exact drawAllLights_shown a s
  | drawAllBehaviors => cases hk; exact drawAllBehaviors_shown a s
  | drawBehavior => cases hk; exact drawBehavior_shown a id s
  | changeBehaviorForTraining => cases hk; exact changeBehaviorForTraining_shown a id s
  | changeBehaviorForAlarm => cases hk; exact changeBehaviorForAlarm_shown a id s
  | changeBehaviorForFest => cases hk; exact changeBehaviorForFest_shown a id s
  | _ => cases hk

/-- The page that going back finds below. -/
def reopened (s : Eink) : Eink :=
  { s with nav := { s.nav with
    pagePageCounter := s.nav.pagePageCounter - 1, isGoingBack := true } }

theorem goBack_page {a : Answers} {v : ℤ} (hread : CheckedArray.read s.nav.pagePath
      (s.nav.pagePageCounter-2) (Fault.outside .pagePath (s.nav.pagePageCounter-2)) = .ok v) :
    goBack a s =
      if v = drawHomeID then drawHome a (reopened s)
      else if v = drawAllRoomsID then drawAllGroups a (reopened s)
      else if v = drawRoomID then drawRoom a s.house.lastRoom (reopened s)
      else if v = drawLightID then drawLight a 0 (reopened s)
      else if v = drawAllLightsID then drawAllLights a (reopened s)
      else if v = drawAllBehaviorID then drawAllBehaviors a (reopened s)
      else if v = drawBehaviorID then drawBehavior a s.shared.play.lastBehaviorId.val (reopened s)
      else .ok (reopened s) := by
  rw [goBack, hread]
  rfl

/-- Going back draws the home page, another page whose id it finds, or nothing. -/
theorem goBack_ends {a : Answers} {v : ℤ} {Q : Eink → Prop}
    (hread : CheckedArray.read s.nav.pagePath (s.nav.pagePageCounter-2)
      (Fault.outside .pagePath (s.nav.pagePageCounter-2)) = .ok v)
    (hhome : v = drawHomeID → Ends (drawHome a (reopened s)) Q E)
    (hfault : ∀ e, PageFault (reopened s) e → E e)
    (hpage : ∀ k t, k ≠ .home → k ≠ .edit → v = k.id s.uiLevel →
      Shown k s.house.lastRoom s.shared.play.lastBehaviorId (reopened s) t → Q t)
    (hnone : v ≠ drawHomeID → (∀ k : PageKind, k ≠ .home → k ≠ .edit → v ≠ k.id s.uiLevel) →
      Q (reopened s)) : Ends (goBack a s) Q E := by
  have hshown : ∀ {k : PageKind} {x : Except Fault Eink}, k ≠ .home → k ≠ .edit →
      v = k.id s.uiLevel →
      Ends x (Shown k s.house.lastRoom s.shared.play.lastBehaviorId (reopened s))
        (PageFault (reopened s)) → Ends x Q E :=
    fun hh he hv hx => ends_mono hx (fun t ht => hpage _ t hh he hv ht) hfault
  rw [goBack_page hread]
  split
  · next hv => exact hhome hv
  split
  · next hv => exact hshown (k := .rooms) (by decide) (by decide) hv (drawAllGroups_shown a _)
  split
  · next hv => exact hshown (k := .room) (by decide) (by decide) hv (drawRoom_shown a _ _)
  split
  · next hv => exact hshown (k := .light) (by decide) (by decide) hv (drawLight_shown a 0 _)
  split
  · next hv => exact hshown (k := .allLights) (by decide) (by decide) hv (drawAllLights_shown a _)
  split
  · next hv =>
    exact hshown (k := .behaviors) (by decide) (by decide) hv (drawAllBehaviors_shown a _)
  split
  · next hv =>
    refine hshown (k := .behavior) (by decide) (by decide) hv ?_
    have hb := drawBehavior_shown a s.shared.play.lastBehaviorId.val (reopened s)
    rw [show Fin.ofNat 20 ((s.shared.play.lastBehaviorId.val:ℤ).toNat) =
      s.shared.play.lastBehaviorId by simp] at hb
    exact hb
  · next h0 h1 h2 h3 h4 h5 h6 =>
    refine hnone h0 fun k hh he hv => ?_
    cases k with
    | home => exact hh rfl
    | edit => exact he rfl
    | rooms => exact h1 hv
    | room => exact h2 hv
    | light => exact h3 hv
    | allLights => exact h4 hv
    | behaviors => exact h5 hv
    | behavior => exact h6 hv

end Pages

end THue.PageDrawing
