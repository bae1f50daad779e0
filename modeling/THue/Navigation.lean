import THue.PageDrawing

/-!
# The path of pages

The live part of `pagePath` is the home page opened last and the pages opened
above it, each from the one below. Every touch and every press of the dial
keeps it so, except for going back to an edit page, which has no way back.
-/

set_option autoImplicit false

namespace THue.Navigation
open THue.Globals THue.Firebase THue.Entertainment THue.BehaviorTask THue.BehaviorSettings
open THue.CheckedArray THue.FaultRun THue.TouchScreen THue.Bridge THue.Pages THue.PagedLists
open THue.PageDrawing

/-- A page opens another; the light page opens from any but itself, by a touch or by the dial. -/
inductive Follows : PageKind → PageKind → Prop where
  | rooms : Follows .home .rooms
  | behaviors : Follows .home .behaviors
  | room : Follows .rooms .room
  | behavior : Follows .behaviors .behavior
  | allLights : Follows .behavior .allLights
  | edit : Follows .behavior .edit
  | light {k : PageKind} : k ≠ .light → Follows k .light

inductive Trail : List PageKind → Prop where
  | home : Trail [.home]
  | step {p q : PageKind} {ps : List PageKind} : Follows p q → Trail (p::ps) → Trail (q::p::ps)

/-- The cells from `h` on hold the ids of the pages, the page on screen last. -/
def Laid (level : ℤ) (path : Fin 10 → ℤ) (h : ℕ) : List PageKind → Prop
  | [] => True
  | k::ks => (∃ hi : h+ks.length < 10, path ⟨h+ks.length,hi⟩ = k.id level) ∧ Laid level path h ks

/-- Page `k` is on screen, opened over the pages `below`; the last of them is
the home page, whose cell is `h`. -/
structure Standing (h : ℕ) (k : PageKind) (below : List PageKind) (s : Eink) : Prop where
  trail : Trail (k::below)
  level : 1 ≤ s.uiLevel
  first : s.uiLevel = 1 → below = []
  back : s.nav.isGoingBack = false
  count : s.nav.pagePageCounter = ((h+below.length+1 : ℕ):ℤ)
  path : Laid s.uiLevel s.nav.pagePath h (k::below)
  id : s.nav.currentRoomID = k.id s.uiLevel
  offers : Presents (Offers s.uiLevel s.shared.play.lastBehaviorId k) s.screen
  text : ∀ l, k.list = some l → s.screen.currentPageOnScreen = l.text
  light : k = .light → s.nav.currentScreenType = .light

variable {h : ℕ} {k q : PageKind} {below ks : List PageKind} {s c t : Eink}
variable {room : ℤ} {last : Fin 20}

theorem laid_above {level : ℤ} {path : Fin 10 → ℤ} (hl : Laid level path h ks) {i : Fin 10}
    (hi : h+ks.length ≤ i.val) (v : ℤ) : Laid level (Function.update path i v) h ks := by
  induction ks with
  | nil => trivial
  | cons k ks ih =>
    obtain ⟨⟨hlt,hv⟩,hrest⟩ := hl
    simp only [List.length_cons] at hi
    refine ⟨⟨hlt,?_⟩,ih hrest (by omega)⟩
    rw [Function.update_of_ne (fun he => by have := congrArg Fin.val he; simp only at this; omega)]
    exact hv

theorem level_ne (hs : Standing h k below s) (hk : k ≠ .home) : s.uiLevel ≠ 1 := by
  intro h1
  have ht := hs.trail
  rw [hs.first h1] at ht
  cases ht
  exact hk rfl

theorem standing_open (hs : Standing h k below s) (hf : Follows k q) (h1 : s.uiLevel ≠ 1)
    (hnav : c.nav = s.nav) (hlevel : c.uiLevel = s.uiLevel) (ht : Shown q room last c t) :
    Standing h q (k::below) t ∧ ∃ i : Fin 10, h+below.length+1 = i.val ∧
      t.nav.pagePath = Function.update s.nav.pagePath i (q.id s.uiLevel) := by
  have hen := ht.nav
  rw [hnav, hlevel] at hen
  obtain ⟨i,hi,hc,hpath,hcount⟩ := hen.pushed hs.back
  have hci : h+below.length+1 = i := by
    have := hs.count.symm.trans hc
    exact_mod_cast this
  have hl : t.uiLevel = s.uiLevel := ht.level.trans hlevel
  refine ⟨⟨.step hf hs.trail,hl ▸ hs.level,fun h => absurd (hl ▸ h) h1,hen.back,?_,?_,?_,?_,ht.text,
    fun hk => by rw [ht.type, hk]; rfl⟩,⟨i,hi⟩,hci,hpath⟩
  · rw [hcount, ← hci, List.length_cons]
    omega
  · rw [hl, hpath]
    refine ⟨⟨by simp only [List.length_cons]; omega,?_⟩,laid_above hs.path ?_ _⟩
    · simp only [List.length_cons, ← Nat.add_assoc, hci]
      exact Function.update_self _ _ _
    · simp only [List.length_cons]
      omega
  · rw [hl]
    exact hen.id
  · rw [hl, ht.behavior, ← hlevel]
    exact ht.offers

theorem standing_back {p : PageKind} {rest : List PageKind} (hs : Standing h k (p::rest) s)
    (hnav : c.nav.pagePath = s.nav.pagePath)
    (hcount : c.nav.pagePageCounter = s.nav.pagePageCounter - 1) (hback : c.nav.isGoingBack = true)
    (hlevel : c.uiLevel = s.uiLevel) (ht : Shown p room last c t) :
    Standing h p rest t ∧ t.nav.pagePath = s.nav.pagePath := by
  have hen := ht.nav
  rw [hlevel] at hen
  obtain ⟨hpath,hc⟩ := hen.kept hback
  have hl : t.uiLevel = s.uiLevel := ht.level.trans hlevel
  have htrail : Trail (p::rest) := by
    cases hs.trail with
    | step _ h => exact h
  refine ⟨⟨htrail,hl ▸ hs.level,fun h1 => ?_,hen.back,?_,?_,?_,?_,ht.text,
    fun hk => by rw [ht.type, hk]; rfl⟩,hpath.trans hnav⟩
  · have := hs.first (hl ▸ h1)
    cases this
  · rw [hc, hcount, hs.count, List.length_cons]
    omega
  · rw [hl, hpath, hnav]
    exact hs.path.2
  · rw [hl]
    exact hen.id
  · rw [hl, ht.behavior, ← hlevel]
    exact ht.offers

theorem standing_home (hback : c.nav.isGoingBack = false) (hc : c.nav.pagePageCounter = (h:ℤ))
    (hlevel : 1 ≤ c.uiLevel) (ht : Shown .home room last c t) : Standing h .home [] t := by
  obtain ⟨i,hi,hci,hpath,hcount⟩ := ht.nav.pushed hback
  obtain rfl : h = i := by
    have := hc.symm.trans hci
    exact_mod_cast this
  refine ⟨.home,ht.level ▸ hlevel,fun _ => rfl,ht.nav.back,?_,⟨⟨hi,?_⟩,trivial⟩,?_,?_,ht.text,
    fun hk => by rw [ht.type, hk]; rfl⟩
  · rw [hcount]
    simp
  · rw [hpath, ht.level]
    exact Function.update_self _ _ _
  · rw [ht.level]
    exact ht.nav.id
  · rw [ht.level, ht.behavior]
    exact ht.offers

theorem standing_stay (hs : Standing h k below s) (hnav : t.nav = s.nav)
    (hlevel : t.uiLevel = s.uiLevel)
    (hoffers : Presents (Offers s.uiLevel t.shared.play.lastBehaviorId k) t.screen)
    (htext : t.screen.currentPageOnScreen = s.screen.currentPageOnScreen) :
    Standing h k below t := by
  refine ⟨hs.trail,hlevel ▸ hs.level,fun h => hs.first (hlevel ▸ h),hnav ▸ hs.back,hnav ▸ hs.count,
    ?_,?_,hlevel ▸ hoffers,fun l hl => htext.trans (hs.text l hl),hnav ▸ hs.light⟩
  · rw [hnav, hlevel]
    exact hs.path
  · rw [hnav, hlevel]
    exact hs.id

def Opener (e : Event) : Prop :=
  e = .drawAllGroups ∨ e = .drawRoom ∨ e = .drawLight ∨ e = .drawAllLights ∨
    e = .drawAllBehaviors ∨ e = .drawBehavior ∨ e = .changeBehaviorForTraining ∨
    e = .changeBehaviorForAlarm ∨ e = .changeBehaviorForFest

instance opener_decidable (e : Event) : Decidable (Opener e) :=
  inferInstanceAs (Decidable (_ ∨ _))

/-- The handlers that enter a page into the path; a refresh enters the home page again. -/
def Pushes (e : Event) : Prop := Opener e ∨ e = .fetchData

instance pushes_decidable (e : Event) : Decidable (Pushes e) :=
  inferInstanceAs (Decidable (_ ∨ _))

def Fails (s : Eink) (e : Event) (f : Fault) : Prop := Elsewhere f ∨ (Pushes e ∧ Blocked s.nav)

def Homing (e : Event) : Prop := e = .fetchData ∨ e = .drawHomeFromHomeButton

instance homing_decidable (e : Event) : Decidable (Homing e) :=
  inferInstanceAs (Decidable (_ ∨ _))

def handler (s : Eink) : Pages.Move → Option Event
  | .touch _ x y => (onTouchEvent x y s.screen).bind fun i => (s.screen.buttons i).event
  | .dial _ _ => if dialOpens s then some .drawLight else none

/-- Page `q` has been opened over page `k`. -/
structure Opened (h : ℕ) (k : PageKind) (below : List PageKind) (s t : Eink) (q : PageKind) :
    Prop where
  follows : Follows k q
  standing : Standing h q (k::below) t
  level : t.uiLevel = s.uiLevel
  path : ∃ i : Fin 10, h+below.length+1 = i.val ∧
    t.nav.pagePath = Function.update s.nav.pagePath i (q.id s.uiLevel)
  type : t.nav.currentScreenType = q.type.getD s.nav.currentScreenType
  room : q ≠ .room → t.house.lastRoom = s.house.lastRoom
  behavior : q ≠ .behavior → t.shared.play.lastBehaviorId = s.shared.play.lastBehaviorId

structure Stays (h : ℕ) (k : PageKind) (below : List PageKind) (s t : Eink) : Prop where
  standing : Standing h k below t
  level : t.uiLevel = s.uiLevel
  nav : t.nav = s.nav
  room : t.house.lastRoom = s.house.lastRoom
  behavior : t.shared.play.lastBehaviorId = s.shared.play.lastBehaviorId

structure Back (h : ℕ) (p : PageKind) (rest : List PageKind) (s t : Eink) : Prop where
  standing : Standing h p rest t
  level : t.uiLevel = s.uiLevel
  path : t.nav.pagePath = s.nav.pagePath
  type : t.nav.currentScreenType = p.type.getD s.nav.currentScreenType
  room : t.house.lastRoom = s.house.lastRoom
  behavior : t.shared.play.lastBehaviorId = s.shared.play.lastBehaviorId

structure Homed (t : Eink) : Prop where
  standing : ∃ h, Standing h .home [] t
  type : t.nav.currentScreenType = .home

def Outcome (h : ℕ) (k : PageKind) (below : List PageKind) (s : Eink) (e : Event) (t : Eink) :
    Prop :=
  (Opener e ∧ ∃ q, Opened h k below s t q) ∨ (Homing e ∧ Homed t) ∨
    (e = .goBack ∧ ∃ p rest, below = p::rest ∧ Back h p rest s t) ∨
    (¬Opener e ∧ ¬Homing e ∧ e ≠ .goBack ∧ Stays h k below s t)

theorem opened_ends {x : Except Fault Eink} (hs : Standing h k below s) (hf : Follows k q)
    (h1 : s.uiLevel ≠ 1) (hnav : c.nav = s.nav) (hlevel : c.uiLevel = s.uiLevel)
    (hroom : q ≠ .room → room = s.house.lastRoom)
    (hlast : q ≠ .behavior → last = s.shared.play.lastBehaviorId)
    (hx : Ends x (Shown q room last c) (PageFault c)) :
    Ends x (fun t => Opened h k below s t q) (PageFault s) := by
  refine ends_mono hx (fun t ht => ?_) fun e he => ?_
  · obtain ⟨hst,hpath⟩ := standing_open hs hf h1 hnav hlevel ht
    exact ⟨hf,hst,ht.level.trans hlevel,hpath,hnav ▸ ht.type,fun hq => ht.room.trans (hroom hq),
      fun hq => ht.behavior.trans (hlast hq)⟩
  · rw [PageFault, hnav] at he
    exact he

theorem turnPage_stays {l : PagedList} (hs : Standing h k below s) (hl : k.list = some l)
    (start bound : ℤ) : Ends (turnPage start bound s) (Stays h k below s) Elsewhere := by
  rw [turnPage_eq start bound (hs.text l hl)]
  have hpress : Dressed (Offers s.uiLevel s.shared.play.lastBehaviorId k) s
      { s with screen := { s.screen with buttonCount := 3 } } :=
    ⟨rfl,rfl,rfl,rfl,rfl,hs.offers,rfl⟩
  have hdraw := onScreen_dressed
    (draw_keeps hl s.uiLevel s.shared.play.lastBehaviorId s start bound) hpress
  refine ends_bind hdraw fun d hd => ?_
  refine ends_imp (onScreen_dressed (row_keeps hl _ _ _) hd) fun t ht => ?_
  refine ⟨standing_stay hs ht.nav ht.level ?_ ht.page,ht.level,ht.nav,congrArg _ ht.house,
    ht.behavior⟩
  rw [ht.behavior]
  exact ht.presents

theorem editSelection_ends {E : Fault → Prop} (hE : Data E) (lightId : ℤ) (isSelected : Bool)
    (s : Shared) : Ends (editSelection lightId isSelected s)
      (fun t => t.play.lastBehaviorId = s.play.lastBehaviorId ∧
        t.play.behaviorCount = s.play.behaviorCount) E := by
  cases isSelected with
  | true =>
    refine ends_bind (Q := fun _ => True) ?_ fun b _ => ⟨rfl,rfl⟩
    rw [removeLight]
    split
    · exact hE.2 .behaviorLightIds _ (by decide)
    · split
      · trivial
      · exact hE.1
  | false =>
    refine ends_bind (Q := fun _ => True) ?_ fun b _ => ⟨rfl,rfl⟩
    rw [addLight]
    exact ends_bind (write_ends hE _ _ _ (by decide)) fun _ _ => trivial

theorem selectLight_stays (hs : Standing h k below s) (a : Answers) (lightId : ℤ) (i : Fin 30) :
    Ends (selectLight a lightId i s) (Stays h k below s) Elsewhere := by
  refine ends_bind (editSelection_ends elsewhere_data lightId _ s.shared) ?_
  rintro shared ⟨hlast,-⟩
  refine ⟨standing_stay hs rfl rfl ?_ rfl,rfl,rfl,rfl,hlast⟩
  simp only [logAction, hlast]
  exact presents_update (s := s.screen) hs.offers fun e he => hs.offers i e he

theorem toggleBehavior_stays (hs : Standing h k below s) (a : Answers) (id : ℤ) (i : Fin 30) :
    Ends (toggleBehavior a id i s) (Stays h k below s) Elsewhere := by
  refine ends_bind (read_ends elsewhere_data s.shared.play.behaviors id (by decide))
    fun behavior _ => ?_
  have hstay : ∀ shared : Shared, shared.play.lastBehaviorId = s.shared.play.lastBehaviorId →
      Stays h k below s { s with shared := shared } := by
    intro shared hlast
    refine ⟨standing_stay hs rfl rfl ?_ rfl,rfl,rfl,rfl,hlast⟩
    simp only [hlast]
    exact hs.offers
  split
  · exact hstay _ (toggleOff_last _ _ _)
  · split
    · exact hstay _ rfl
    · exact hstay s.shared rfl

theorem stays_outcome {x : Except Fault Eink} {e : Event} (ho : ¬Opener e) (hh : ¬Homing e)
    (hb : e ≠ .goBack) (hx : Ends x (Stays h k below s) Elsewhere) :
    Ends x (Outcome h k below s e) (Fails s e) :=
  ends_mono hx (fun _ ht => Or.inr (Or.inr (Or.inr ⟨ho,hh,hb,ht⟩))) fun _ he => Or.inl he

theorem opened_outcome {x : Except Fault Eink} {e : Event} (ho : Opener e)
    (hx : Ends x (fun t => Opened h k below s t q) (PageFault s)) :
    Ends x (Outcome h k below s e) (Fails s e) :=
  ends_mono hx (fun _ ht => Or.inl ⟨ho,q,ht⟩) fun _ he => he.imp_right fun hb => ⟨Or.inl ho,hb⟩

theorem back_ends {p : PageKind} {rest : List PageKind} {x : Except Fault Eink}
    (hs : Standing h k (p::rest) s)
    (hx : Ends x (Shown p s.house.lastRoom s.shared.play.lastBehaviorId (reopened s))
      (PageFault (reopened s))) : Ends x (Back h p rest s) Elsewhere := by
  refine ends_mono hx (fun t ht => ?_) fun e he => ?_
  · obtain ⟨hst,hpath⟩ := standing_back (c := reopened s) hs rfl rfl rfl rfl ht
    exact ⟨hst,ht.level,hpath,ht.type,ht.room,ht.behavior⟩
  · exact he.resolve_right fun hb => Bool.noConfusion hb.1

theorem goBack_back {p : PageKind} {rest : List PageKind} (hs : Standing h k (p::rest) s)
    (hp : p ≠ .edit) (a : Answers) : Ends (goBack a s) (Back h p rest s) Elsewhere := by
  have h1 : s.uiLevel ≠ 1 := fun h1 => by cases hs.first h1
  have hhome : PageKind.id s.uiLevel .home = drawHomeID := if_neg h1
  obtain ⟨-,⟨hlt,hcell⟩,-⟩ := hs.path
  have hread : CheckedArray.read s.nav.pagePath (s.nav.pagePageCounter-2)
      (Fault.outside .pagePath (s.nav.pagePageCounter-2)) = .ok (p.id s.uiLevel) := by
    rw [show s.nav.pagePageCounter-2 = ((h+rest.length : ℕ):ℤ) by
      rw [hs.count, List.length_cons]; omega]
    rw [read_inside _ _ _ hlt, hcell]
  refine back_ends hs (goBack_ends hread (fun hv => ?_) (fun _ he => he)
    (fun q t _ _ hv ht => ?_) fun hv hn => ?_)
  · obtain rfl : p = .home := id_inj h1 (hv.trans hhome.symm)
    exact drawHome_shown a _ hs.level
  · obtain rfl := id_inj h1 hv
    exact ht
  · by_cases hh : p = .home
    · subst hh
      exact absurd hhome hv
    · exact absurd rfl (hn p hh hp)

section Handlers
variable {level id : ℤ} {e : Event}

def Source (level : ℤ) (last : Fin 20) (k : PageKind) (id : ℤ) : Event → Prop
  | .drawAllGroups | .drawAllBehaviors => k = .home ∧ 2 ≤ level
  | .drawRoom => k = .rooms
  | .drawLight => k = .room
  | .drawBehavior => k = .behaviors
  | .drawAllLights => k = .behavior
  | .changeBehaviorForTraining | .changeBehaviorForAlarm | .changeBehaviorForFest =>
      k = .behavior ∧ id = last.val
  | .drawNextPage | .drawPrevPage => ∃ l, k.list = some l
  | .goBack => k ≠ .home
  | _ => True

theorem offers_source (hoff : Offers level last k e id) : Source level last k id e := by
  cases e <;> cases k <;> simp_all [Offers, Bar, Turns, Source, PageKind.list]

theorem trail_below (ht : Trail (k::below)) (hk : k ≠ .home) : ∃ p rest, below = p::rest := by
  cases ht with
  | home => exact absurd rfl hk
  | step => exact ⟨_,_,rfl⟩

theorem switch_stays (hs : Standing h k below s) (a : Answers) : Stays h k below s (switch a s) :=
  ⟨standing_stay hs rfl rfl hs.offers rfl,rfl,rfl,rfl,rfl⟩

theorem toggleRGBMode_stays (hs : Standing h k below s) (a : Answers) :
    Stays h k below s (toggleRGBMode a s) :=
  ⟨standing_stay hs rfl rfl hs.offers rfl,rfl,rfl,rfl,rfl⟩

theorem setting_stays (hs : Standing h k below s) (x : Setting) : Stays h k below s
    { s with shared := { s.shared with play := press x s.shared.play } } := by
  have hlast := (press_keeps x s.shared.play).1
  refine ⟨standing_stay hs rfl rfl ?_ rfl,rfl,rfl,rfl,hlast⟩
  simp only [hlast]
  exact hs.offers

theorem source_page (hsource : Source level last k id e) (hq : pageOf e = some q) :
    Opener e ∧ Follows k q ∧ (k = .home → 2 ≤ level) ∧ (q = .edit → id = last.val) := by
  cases e with
  | drawAllGroups =>
    cases hq
    obtain ⟨rfl,h2⟩ := hsource
    exact ⟨by decide,.rooms,fun _ => h2,by simp⟩
  | drawAllBehaviors =>
    cases hq
    obtain ⟨rfl,h2⟩ := hsource
    exact ⟨by decide,.behaviors,fun _ => h2,by simp⟩
  | drawRoom =>
    cases hq
    obtain rfl : k = .rooms := hsource
    exact ⟨by decide,.room,by simp,by simp⟩
  | drawLight =>
    cases hq
    obtain rfl : k = .room := hsource
    exact ⟨by decide,.light (by decide),by simp,by simp⟩
  | drawAllLights =>
    cases hq
    obtain rfl : k = .behavior := hsource
    exact ⟨by decide,.allLights,by simp,by simp⟩
  | drawBehavior =>
    cases hq
    obtain rfl : k = .behaviors := hsource
    exact ⟨by decide,.behavior,by simp,by simp⟩
  | changeBehaviorForTraining | changeBehaviorForAlarm | changeBehaviorForFest =>
    cases hq
    obtain ⟨rfl,hid⟩ := hsource
    exact ⟨by decide,.edit,by simp,fun _ => hid⟩
  | _ => cases hq

theorem opener_outcome (hs : Standing h k below s) (a : Answers) (i : Fin 30)
    (hsource : Source s.uiLevel s.shared.play.lastBehaviorId k id e) (hq : pageOf e = some q) :
    Ends (handle a id i s e) (Outcome h k below s e) (Fails s e) := by
  obtain ⟨ho,hf,h2,hid⟩ := source_page hsource hq
  have h1 : s.uiLevel ≠ 1 := by
    by_cases hk : k = .home
    · have := h2 hk
      omega
    · exact level_ne hs hk
  refine opened_outcome ho (opened_ends hs hf h1 rfl rfl (fun hr => if_neg hr) (fun hb => ?_)
    (handle_shown hq a id i s))
  by_cases he : q = .edit
  · rw [if_pos (Or.inr he), hid he]
    simp
  · rw [if_neg (not_or.mpr ⟨hb,he⟩)]

theorem homeButton_outcome (hs : Standing h k below s) (a : Answers) :
    Ends (drawHomeFromHomeButton a s) (Outcome h k below s .drawHomeFromHomeButton)
      (Fails s .drawHomeFromHomeButton) := by
  let c : Eink := { s with nav := { s.nav with pagePageCounter := 0 } }
  refine ends_mono (drawHome_shown a c hs.level) (fun t ht => ?_) fun e he => ?_
  · exact Or.inr (Or.inl ⟨by decide,⟨0,standing_home (c := c) hs.back rfl hs.level ht⟩,ht.type⟩)
  · exact Or.inl (he.resolve_right fun hb => hb.2 (show (0:ℤ) ≤ 0 ∧ (0:ℤ) < 10 by decide))

theorem fetchData_outcome (hs : Standing h k below s) (a : Answers)
    (hlevel : ∀ v ∈ a.level, 1 ≤ v) :
    Ends (fetchData a s) (Outcome h k below s .fetchData) (Fails s .fetchData) := by
  have hget : 1 ≤ a.level.getD s.uiLevel := by
    cases hl : a.level with
    | none => exact hs.level
    | some v => exact hlevel v hl
  refine ends_mono (fetchData_shown a s hget) (fun t ht => ?_)
    fun _ he => he.imp_right fun hb => ⟨Or.inr rfl,hb⟩
  obtain ⟨c,hnav,hl,ht⟩ := ht
  exact Or.inr (Or.inl ⟨by decide,⟨_,standing_home (hnav ▸ hs.back) (hnav ▸ hs.count)
    (hl ▸ hget) ht⟩,ht.type⟩)

theorem handle_outcome (hs : Standing h k below s) (a : Answers) (i : Fin 30)
    (hoff : Offers s.uiLevel s.shared.play.lastBehaviorId k e id)
    (hback : e = .goBack → below.head? ≠ some .edit) (hlevel : ∀ v ∈ a.level, 1 ≤ v) :
    Ends (handle a id i s e) (Outcome h k below s e) (Fails s e) := by
  have hsource := offers_source hoff
  cases hq : pageOf e with
  | some q => exact opener_outcome hs a i hsource hq
  | none =>
    cases e with
    | goBack =>
      obtain ⟨p,rest,rfl⟩ := trail_below hs.trail hsource
      exact ends_mono (goBack_back hs (fun hp => hback rfl (by rw [hp]; rfl)) a)
        (fun t ht => Or.inr (Or.inr (Or.inl ⟨rfl,p,rest,rfl,ht⟩))) fun _ he => Or.inl he
    | drawHomeFromHomeButton => exact homeButton_outcome hs a
    | fetchData => exact fetchData_outcome hs a hlevel
    | drawNextPage | drawPrevPage =>
      obtain ⟨l,hl⟩ := hsource
      exact stays_outcome (by decide) (by decide) (by decide) (turnPage_stays hs hl _ _)
    | switch =>
      exact stays_outcome (by decide) (by decide) (by decide) (x := .ok (switch a s))
        (switch_stays hs a)
    | toggleRGBMode =>
      exact stays_outcome (by decide) (by decide) (by decide) (x := .ok (toggleRGBMode a s))
        (toggleRGBMode_stays hs a)
    | selectLight =>
      exact stays_outcome (by decide) (by decide) (by decide) (selectLight_stays hs a id i)
    | toggleBehavior =>
      exact stays_outcome (by decide) (by decide) (by decide) (toggleBehavior_stays hs a id i)
    | setting x =>
      exact stays_outcome (by simp [Opener]) (by simp [Homing]) (by simp) (x := .ok _)
        (setting_stays hs x)
    | _ => cases hq

end Handlers

def answers : Pages.Move → Answers
  | .touch a _ _ => a
  | .dial a _ => a

theorem standing_press (hs : Standing h k below s) (b : Button) :
    Standing h k below { s with pressedButton := b } :=
  ⟨hs.trail,hs.level,hs.first,hs.back,hs.count,hs.path,hs.id,hs.offers,hs.text,hs.light⟩

theorem outcome_press {b : Button} {e : Event}
    (ho : Outcome h k below { s with pressedButton := b } e t) : Outcome h k below s e t := by
  obtain ⟨he,q,ho⟩ | hh | ⟨he,p,rest,hb,ho⟩ | ⟨h1,h2,h3,ho⟩ := ho
  · exact Or.inl ⟨he,q,ho.follows,ho.standing,ho.level,ho.path,ho.type,ho.room,ho.behavior⟩
  · exact Or.inr (Or.inl hh)
  · exact Or.inr (Or.inr (Or.inl
      ⟨he,p,rest,hb,ho.standing,ho.level,ho.path,ho.type,ho.room,ho.behavior⟩))
  · exact Or.inr (Or.inr (Or.inr ⟨h1,h2,h3,ho.standing,ho.level,ho.nav,ho.room,ho.behavior⟩))

theorem dial_outcome (hs : Standing h k below s) (a : Answers) (id : ℤ) (hd : dialOpens s) :
    Ends (dialPress a id s) (Outcome h k below s .drawLight) (Fails s .drawLight) := by
  have hk : k ≠ .light := by
    intro hk
    have ht := hs.light hk
    obtain ⟨h | h,-⟩ := hd <;> cases ht.symm.trans h
  let c : Eink := logAction a
    (.withWhat "topDialInteraction" "navigate" "drawLight" s.house.currentLight.name)
    { s with calledFromEncoder := true }
  rw [dialPress, if_pos hd]
  exact opened_outcome (by decide) (opened_ends (c := c) hs (.light hk) hd.2 rfl rfl (fun _ => rfl)
    (fun _ => rfl) (drawLight_shown a id c))

theorem step_outcome (hs : Standing h k below s) (m : Pages.Move)
    (hlevel : ∀ v ∈ (answers m).level, 1 ≤ v)
    (hback : handler s m = some .goBack → below.head? ≠ some .edit) :
    (handler s m = none ∧ Pages.step s m = .ok s) ∨
      ∃ e, handler s m = some e ∧ Ends (Pages.step s m) (Outcome h k below s e) (Fails s e) := by
  cases m with
  | touch a x y =>
    cases hi : onTouchEvent x y s.screen with
    | none =>
      refine Or.inl ⟨by simp [handler, hi],?_⟩
      simp only [Pages.step, Pages.touch, hi]
    | some i =>
      cases he : (s.screen.buttons i).event with
      | none =>
        refine Or.inl ⟨by simp [handler, hi, he],?_⟩
        simp only [Pages.step, Pages.touch, hi, he]
      | some e =>
        have hh : handler s (.touch a x y) = some e := by simp [handler, hi, he]
        refine Or.inr ⟨e,hh,?_⟩
        simp only [Pages.step, Pages.touch, hi, he]
        have ho := handle_outcome (standing_press hs (s.screen.buttons i)) a i
          (hs.offers i e he) (fun hg => hback (hg ▸ hh)) hlevel
        exact ends_imp ho fun _ ht => outcome_press ht
  | dial a id =>
    by_cases hd : dialOpens s
    · exact Or.inr ⟨.drawLight,if_pos hd,dial_outcome hs a id hd⟩
    · exact Or.inl ⟨if_neg hd,if_neg hd⟩

end THue.Navigation
