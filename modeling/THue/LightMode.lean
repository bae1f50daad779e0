import THue.DialTargets
import THue.PagePath

/-!
# The light mode of the encoder

The page functions of the behavior pages leave the screen type as it is. So the
light mode stays on when the light page is left for one of them, which only
going back can do.
-/

set_option autoImplicit false

namespace THue.LightMode
open THue.Globals THue.Entertainment THue.BehaviorTask THue.CheckedArray THue.FaultRun
open THue.TouchScreen THue.Bridge THue.Pages THue.PageDrawing
open THue.Navigation THue.Encoder THue.PagePath
open THue.Firebase (drawHomeAction)

/-- In light mode the light page is on screen. -/
def Lit (s : Eink) : Prop :=
  s.nav.currentScreenType = .light → s.nav.currentRoomID = drawLightID

instance lit_decidable (s : Eink) : Decidable (Lit s) := inferInstanceAs (Decidable (_ → _))

/-- The pages that leave the screen type as it is, but for the edit page, which
`goBack` does not draw. -/
def Silent (id : ℤ) : Prop :=
  id = drawAllLightsID ∨ id = drawAllBehaviorID ∨ id = drawBehaviorID

instance silent_decidable (id : ℤ) : Decidable (Silent id) :=
  inferInstanceAs (Decidable (_ ∨ _ ∨ _))

def Leaves (d : Device) : Encoder.Move → Prop
  | .touch a x y => d.eink.nav.currentScreenType = .light →
      handler d.eink (.touch a x y) = some .goBack →
      ∀ id ∈ cell d.eink.nav (d.eink.nav.pagePageCounter-2), ¬Silent id
  | .turn _ => True

instance leaves_decidable (d : Device) : ∀ m, Decidable (Leaves d m)
  | .touch _ _ _ => inferInstanceAs (Decidable (_ → _ → ∀ id ∈ cell _ _, _))
  | .turn _ => isTrue trivial

def LightPage (s : Eink) : Prop :=
  s.nav.currentScreenType = .light → s.nav.currentRoomID = drawLightID ∧
    Presents (Offers 0 0 .light) s.screen

variable {s t c : Eink} {k : PageKind} {room : ℤ} {last : Fin 20}

theorem lightPage_lit (h : LightPage s) : Lit s := fun hl => (h hl).1

theorem shown_lightPage (ht : Shown k room last c t)
    (hk : k.type = none → c.nav.currentScreenType ≠ .light) : LightPage t := by
  intro hl
  rw [ht.type] at hl
  cases hty : k.type with
  | none =>
    rw [hty] at hl
    exact absurd hl (hk hty)
  | some ty =>
    rw [hty] at hl
    obtain rfl : k = .light := by cases k <;> cases hty <;> first | rfl | cases hl
    exact ⟨ht.nav.id,ht.offers⟩

theorem silent_type {level : ℤ} (hk : Silent (k.id level)) : k.type = none := by
  cases k with
  | home =>
    rw [PageKind.id] at hk
    split at hk <;> revert hk <;> decide
  | rooms | room | light =>
    simp only [PageKind.id] at hk
    revert hk
    decide
  | allLights | behaviors | behavior | edit => rfl

theorem type_silent {level : ℤ} (hh : k ≠ .home) (he : k ≠ .edit) (hk : k.type = none) :
    Silent (k.id level) := by
  cases k with
  | home => exact absurd rfl hh
  | edit => exact absurd rfl he
  | allLights => exact Or.inl rfl
  | behaviors => exact Or.inr (Or.inl rfl)
  | behavior => exact Or.inr (Or.inr rfl)
  | rooms | room | light => cases hk

theorem shown_silent (ht : Shown k room last c t) (hk : Silent (k.id c.uiLevel))
    (hl : c.nav.currentScreenType = .light) : ¬Lit t := by
  intro h
  have hty : t.nav.currentScreenType = .light := by
    rw [ht.type, silent_type hk]
    exact hl
  have hid := (ht.nav.id.symm.trans (h hty)) ▸ hk
  revert hid
  decide

theorem drawHome_off (a : Answers) (h : s.uiLevel < 1) :
    drawHome a s = .ok (logAction a drawHomeAction s) := by
  rw [drawHome]
  exact (if_neg (by show ¬s.uiLevel = 1; omega)).trans (if_neg (by show ¬2 ≤ s.uiLevel; omega))

theorem drawHome_lightPage (a : Answers) (hs : LightPage s) :
    Ends (drawHome a s) LightPage (fun _ => True) := by
  by_cases h : 1 ≤ s.uiLevel
  · exact ends_mono (drawHome_shown a s h) (fun t ht => shown_lightPage ht nofun) fun _ _ => trivial
  · rw [drawHome_off a (by omega)]
    exact hs

theorem lightPage_nav (hd : s.nav.currentScreenType ≠ .light) (ht : t.nav = s.nav) :
    LightPage t := fun hl => absurd (ht ▸ hl) hd

theorem fetchData_lightPage (a : Answers) (hs : LightPage s) :
    Ends (fetchData a s) LightPage (fun _ => True) :=
  ends_bind (ends_true _) fun _ _ => drawHome_lightPage a hs

/-- Going back to a page that is not silent; from another page to any. -/
theorem goBack_lightPage (a : Answers) (hs : LightPage s)
    (hback : s.nav.currentScreenType = .light →
      ∀ id ∈ cell s.nav (s.nav.pagePageCounter-2), ¬Silent id) :
    Ends (goBack a s) LightPage (fun _ => True) := by
  cases hr : CheckedArray.read s.nav.pagePath (s.nav.pagePageCounter-2)
      (Fault.outside .pagePath (s.nav.pagePageCounter-2)) with
  | error e =>
    rw [goBack, hr]
    trivial
  | ok v =>
    refine goBack_ends hr (fun _ => drawHome_lightPage a hs) (fun _ _ => trivial)
      (fun k t hh he hv ht => ?_) fun _ _ => hs
    refine shown_lightPage ht fun hk hl => hback hl v ((read_cell _).mp hr) ?_
    rw [hv]
    exact type_silent hh he hk

/-- Outside the light mode any handler may run. -/
theorem handle_dark (a : Answers) (id : ℤ) (i : Fin 30) (e : Event)
    (hd : s.nav.currentScreenType ≠ .light) :
    Ends (handle a id i s e) LightPage (fun _ => True) := by
  have hs : LightPage s := fun hl => absurd hl hd
  have hremains : ∀ {x : Except Fault Eink}, Ends x (Remains s) (fun _ => True) →
      Ends x LightPage (fun _ => True) :=
    fun hx => ends_imp hx fun t ht => lightPage_nav hd (by rw [ht])
  cases hq : pageOf e with
  | some k =>
    exact ends_mono (handle_shown hq a id i s) (fun t ht => shown_lightPage ht fun _ => hd)
      fun _ _ => trivial
  | none =>
    cases e with
    | goBack => exact goBack_lightPage a hs fun hl => absurd hl hd
    | drawHomeFromHomeButton => exact drawHome_lightPage a hs
    | fetchData => exact fetchData_lightPage a hs
    | drawNextPage | drawPrevPage => exact hremains (turnPage_remains _ _ s)
    | switch | toggleRGBMode => exact hs
    | selectLight => exact hremains (selectLight_remains a id i s)
    | toggleBehavior => exact hremains (toggleBehavior_remains a id i s)
    | setting x => exact hs
    | _ => cases hq

theorem handle_lit (a : Answers) {id : ℤ} (i : Fin 30) {e : Event} (hs : LightPage s)
    (he : Offers 0 0 .light e id)
    (hback : e = .goBack → s.nav.currentScreenType = .light →
      ∀ id ∈ cell s.nav (s.nav.pagePageCounter-2), ¬Silent id) :
    Ends (handle a id i s e) LightPage (fun _ => True) := by
  obtain (rfl | rfl | rfl) | rfl | rfl := he
  · exact goBack_lightPage a hs (hback rfl)
  · exact drawHome_lightPage a hs
  · exact fetchData_lightPage a hs
  · exact hs
  · exact hs

theorem touch_lightPage {a : Answers} {x y : ℤ} (hs : LightPage s)
    (hm : Leaves { eink := s } (.touch a x y)) :
    Ends (Pages.touch a x y s) LightPage (fun _ => True) := by
  rw [Pages.touch]
  cases hi : onTouchEvent x y s.screen with
  | none => exact hs
  | some i =>
    dsimp only
    cases he : (s.screen.buttons i).event with
    | none => exact hs
    | some e =>
      by_cases hl : s.nav.currentScreenType = .light
      · have hoffer : Offers 0 0 .light e (s.screen.buttons i).id := (hs hl).2 i e he
        refine handle_lit (s := { s with pressedButton := s.screen.buttons i }) a i hs hoffer ?_
        rintro rfl -
        exact hm hl (by simp [handler, hi, he])
      · exact handle_dark (s := { s with pressedButton := s.screen.buttons i }) a _ i e hl

theorem dialled_lightPage (h : Dialled s t) (hs : LightPage s) : LightPage t := by
  intro hl
  rw [h.nav] at hl ⊢
  rw [h.screen]
  exact hs hl

theorem openChosen_lightPage (i : Input) (c : Choosing) (hs : LightPage s) :
    Ends (openChosen i c s) LightPage (fun _ => True) := by
  rw [openChosen]
  split
  · exact ends_mono (drawLight_shown _ _ (logAction _ _ { s with calledFromEncoder := true }))
      (fun t ht => shown_lightPage (k := .light) ht fun h => by cases h) fun _ _ => trivial
  · exact hs

theorem turn_lightPage {d : Device} (i : Input) (hd : LightPage d.eink) :
    Ends (iterate i d) (fun p => LightPage p.1.eink) (fun _ => True) := by
  refine iterate_ends (fun _ => ?_) hd (fun c _ _ => ?_) (fun c _ _ => ?_) fun c _ _ => ?_
  · exact ends_imp (ends_true _) fun _ _ => hd
  · refine ends_bind (openChosen_lightPage i _ hd) fun o ho => ?_
    let v := switchChosen i (waitTurn i.millis d.eink.uiLevel c) o
    have hv : Dialled o v.eink := switchChosen_dialled i _ o
    have hu := dialled_trans hv (brightenChosen_dialled i v.loop v.eink)
    exact ends_bind (chooseBulb_dialled i _ _) fun t ht =>
      dialled_lightPage (dialled_trans hu ht) ho
  · rw [chooseLightInRoom]
    split
    · exact hd
    · refine ends_bind (ends_true _) fun _ _ => ?_
      split <;> exact hd
  · exact dialled_lightPage (adjustLight_dialled i c d.eink) hd

theorem step_lightPage {d : Device} {m : Encoder.Move} (hd : LightPage d.eink) (hm : Leaves d m) :
    Ends (Encoder.step d m) (fun d => LightPage d.eink) (fun _ => True) := by
  cases m with
  | touch a x y => exact ends_bind (touch_lightPage hd hm) fun t ht => ht
  | turn i => exact ends_bind (turn_lightPage i hd) fun ⟨_,_⟩ hp => hp

theorem goBack_silent {a : Answers} {v : ℤ} (hl : s.nav.currentScreenType = .light)
    (hcell : cell s.nav (s.nav.pagePageCounter-2) = some v) (hv : Silent v)
    (ht : goBack a s = .ok t) : ¬Lit t := by
  refine ends_of_ok (Q := fun t => ¬Lit t) (E := fun _ => True)
    (goBack_ends ((read_cell _).mpr hcell) (fun h => ?_) (fun _ _ => trivial)
      (fun k t _ _ hk hs => ?_) fun _ hn => ?_) ht
  · rw [h] at hv
    exact absurd hv (by decide)
  · rw [hk] at hv
    exact shown_silent hs hv hl
  · obtain rfl | rfl | rfl := hv
    · exact absurd rfl (hn .allLights (by decide) (by decide))
    · exact absurd rfl (hn .behaviors (by decide) (by decide))
    · exact absurd rfl (hn .behavior (by decide) (by decide))

theorem leaving_lit {d e : Device} {m : Encoder.Move} (hm : ¬Leaves d m)
    (hr : Encoder.step d m = .ok e) : ¬Lit e.eink := by
  cases m with
  | turn i => exact absurd trivial hm
  | touch a x y =>
    obtain ⟨hl,hh,v,hcell,hv⟩ : d.eink.nav.currentScreenType = .light ∧
        handler d.eink (.touch a x y) = some .goBack ∧
        ∃ v ∈ cell d.eink.nav (d.eink.nav.pagePageCounter-2), Silent v := by
      by_contra hn
      exact hm fun hl hh v hv hs => hn ⟨hl,hh,v,hv,hs⟩
    obtain ⟨i,hi,he⟩ := Option.bind_eq_some_iff.mp hh
    obtain ⟨t,ht,hr⟩ := bind_ok.mp hr
    obtain rfl := Except.ok.inj hr
    simp only [Pages.touch, hi, he] at ht
    exact goBack_silent (s := { d.eink with pressedButton := d.eink.screen.buttons i }) hl hcell
      hv ht

/-- From boot on the light mode belongs to the light page exactly in the runs
that do not leave the light page for a silent page. -/
theorem lit_iff_leaves {a : Answers} {s : Eink} {e : Device} {ms : List Encoder.Move}
    (hs : fetchData a {} = .ok s) (hr : run Encoder.step { eink := s } ms = .ok e) :
    Runs Encoder.step (fun d => Lit d.eink) (fun _ => True) { eink := s } ms ↔
      Meets Encoder.step Leaves { eink := s } ms := by
  have hboot : LightPage s :=
    ends_of_ok (fetchData_lightPage a (s := {}) fun hl => by cases hl) hs
  refine runs_iff_meets_of_ok (I := fun d : Device => LightPage d.eink)
    (fun d hd => lightPage_lit hd) (fun d m u hd hm hu => ?_)
    (fun d m u _ hm hu => leaving_lit hm hu)
    hboot hr
  exact ends_of_ok (Q := fun d : Device => LightPage d.eink) (step_lightPage hd hm) hu

def home : Encoder.Move := .touch DialTargets.twoRooms 88 251

def behaviors : Encoder.Move := .touch DialTargets.twoRooms 130 76

def choose : Encoder.Move := .turn { direction := .up }

def press : Encoder.Move := .turn { pressed := true }

def chosen : List Encoder.Move :=
  [DialTargets.allRooms,DialTargets.secondEntry,home,DialTargets.idle,choose]

theorem light_over_home : ∃ e,
    run Encoder.step { eink := DialTargets.booted } (chosen++[press,DialTargets.goBack]) = .ok e ∧
    Runs Encoder.step (fun d => Lit d.eink) (fun _ => True) { eink := DialTargets.booted }
      (chosen++[press,DialTargets.goBack]) := by
  have hrun : (run Encoder.step { eink := DialTargets.booted }
      (chosen++[press,DialTargets.goBack])).isOk = true := by decide +kernel
  exact ⟨_,ok_getD {} hrun,(lit_iff_leaves DialTargets.booted_fetched (ok_getD {} hrun)).mpr
    (by decide +kernel)⟩

/-- Back on the list of behaviors the encoder is still in light mode. -/
theorem light_over_behaviors : ¬∀ (a : Answers) (s : Eink) (ms : List Encoder.Move),
    fetchData a {} = .ok s →
      Runs Encoder.step (fun d => Lit d.eink) (fun _ => True) { eink := s } ms := by
  intro hall
  have hruns := runs_ends (hall DialTargets.twoRooms DialTargets.booted
    (chosen++[behaviors,press,DialTargets.goBack]) DialTargets.booted_fetched)
  revert hruns
  decide +kernel

end THue.LightMode
