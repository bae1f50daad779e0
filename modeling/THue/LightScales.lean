import THue.LightMode
import THue.LightDials

/-!
# The scales of the light page

`drawLight` draws TEMP as selected whatever the mode of the lower dial is, and
no scale at all for a light that can only be dimmed. `adjustLight` goes by the
mode alone. What is drawn is followed beside the device, as is what the lower
dial sends over a page without scales.
-/

set_option autoImplicit false

namespace THue.LightScales
open THue.Globals THue.CheckedArray THue.FaultRun THue.Entertainment THue.BehaviorTask
open THue.TouchScreen THue.Bridge THue.Pages THue.PageDrawing THue.LightMode
open THue.Encoder THue.PagePath THue.LightDials

inductive Scale where
  | farve
  | temp
  deriving DecidableEq, Repr

/-- What is on screen: another page, the page of a light without scales, or
that of a light with one scale drawn as selected. -/
inductive View where
  | other
  | bare
  | scale (selected : Scale)
  deriving DecidableEq, Repr

def drawnView (currentLight : Light) : View :=
  if currentLight.onlyDimmable then .bare else .scale .temp

def toggledView (pressedButton : Button) : View :=
  if pressedButton.on then .scale .farve else .scale .temp

def pressedBy (x y : ℤ) (s : Eink) : Option (Button × Event) :=
  (onTouchEvent x y s.screen).bind fun i =>
    (s.screen.buttons i).event.map fun e => (s.screen.buttons i,e)

def OpensPage (e : Event) (s : Eink) : Prop :=
  e = .drawLight ∨ e = .goBack ∧ cell s.nav (s.nav.pagePageCounter-2) = some drawLightID

instance opensPage_decidable (e : Event) (s : Eink) : Decidable (OpensPage e s) :=
  inferInstanceAs (Decidable (_ ∨ _ ∧ _))

def viewTouched (x y : ℤ) (s t : Eink) (v : View) : View :=
  if t.nav.currentRoomID ≠ drawLightID then .other
  else match pressedBy x y s with
  | none => v
  | some (b,e) =>
      if OpensPage e s then drawnView t.house.currentLight
      else if e = .toggleRGBMode then toggledView b
      else v

/-- The press of the dial opens a page in `chooseAndAlterLightInRoom`. -/
def Presses (i : Input) (c : Choosing) (s : Eink) : Prop :=
  Chooses s ∧ OpensLight i (waitTurn i.millis s.uiLevel c) s

instance presses_decidable (i : Input) (c : Choosing) (s : Eink) : Decidable (Presses i c s) :=
  inferInstanceAs (Decidable (_ ∧ _))

def viewTurned (i : Input) (d : Device) (v : View) : View :=
  match d.loop with
  | .choosing c =>
      if Presses i c d.eink then
        match openChosen i (waitTurn i.millis d.eink.uiLevel c) d.eink with
        | .ok s => drawnView s.house.currentLight
        | .error _ => v
      else v
  | .outside | .flashing _ | .adjusting _ => v

def colours (cs : List Command) : List Command :=
  cs.filter fun
    | .hue _ _ | .colorTemp _ _ => true
    | _ => false

/-- What `adjustLight` sends of these over a page without scales. -/
def strayed (loop : Loop) (v : View) (sent : List Command) : List Command :=
  match loop, v with
  | .adjusting _, .bare => colours sent
  | _, _ => []

structure Viewed where
  device : Device := {}
  view : View := .other
  stray : List Command := []

def follow (w : Viewed) : Encoder.Move → Except Fault Viewed
  | .touch a x y => do
      let t ← Pages.touch a x y w.device.eink
      pure { w with device := { w.device with eink := t }
                    view := viewTouched x y w.device.eink t w.view }
  | .turn i => do
      let (d,sent) ← iterate i w.device
      pure { device := d
             view := viewTurned i w.device w.view
             stray := w.stray ++ strayed w.device.loop w.view sent }

/-- A scale drawn as selected is FARVE in RGB mode and TEMP otherwise. -/
def Selects (mode : Bool) : View → Prop
  | .other => False
  | .bare => True
  | .scale selected => selected = .farve ↔ mode = true

instance selects_decidable (mode : Bool) : ∀ v, Decidable (Selects mode v)
  | .other => isFalse id
  | .bare => isTrue trivial
  | .scale _ => inferInstanceAs (Decidable (_ ↔ _))

/-- A light page on screen shows the mode, and the lower dial has done nothing without a scale. -/
def Agrees (w : Viewed) : Prop :=
  (w.device.eink.nav.currentRoomID = drawLightID → Selects w.device.eink.RGBMode w.view) ∧
    w.stray = []

instance agrees_decidable (w : Viewed) : Decidable (Agrees w) :=
  inferInstanceAs (Decidable ((_ → _) ∧ _))

def foundLight (id : ℤ) (s : Eink) : Except Fault Light :=
  findLight s.house.lights (if s.calledFromEncoder then id else s.pressedButton.id)
    s.house.allLightCount.toNat 0 s.house.currentLight

/-- No page with scales is opened in RGB mode. -/
def Plain (id : ℤ) (s : Eink) : Prop :=
  s.RGBMode = true → Ends (foundLight id s) (fun l => l.onlyDimmable = true) (fun _ => True)

instance plain_decidable (id : ℤ) (s : Eink) : Decidable (Plain id s) :=
  inferInstanceAs (Decidable (_ → Ends _ _ _))

def openedId (b : Button) (e : Event) : ℤ := if e = .drawLight then b.id else 0

/-- No page with scales is opened in RGB mode, and the lower dial is not turned
in the loop of the light page while a page without scales is on screen. -/
def Unmixed (w : Viewed) : Encoder.Move → Prop
  | .touch _ x y => ∀ p ∈ pressedBy x y w.device.eink, OpensPage p.2 w.device.eink →
      Plain (openedId p.1 p.2) { w.device.eink with pressedButton := p.1 }
  | .turn i =>
      match w.device.loop with
      | .choosing c => Presses i c w.device.eink →
          Plain c.currentLightId.toNat { w.device.eink with calledFromEncoder := true }
      | .adjusting _ =>
          w.device.currentScreen = .light → w.view = .bare → i.direction = .none
      | .outside | .flashing _ => True

instance unmixed_decidable (w : Viewed) : ∀ m, Decidable (Unmixed w m)
  | .touch _ _ _ => inferInstanceAs (Decidable (∀ p ∈ _, _ → _))
  | .turn i =>
      match h : w.device.loop with
      | .choosing c => decidable_of_iff (Presses i c w.device.eink →
          Plain c.currentLightId.toNat { w.device.eink with calledFromEncoder := true })
          (by rw [Unmixed, h])
      | .adjusting _ => decidable_of_iff
          (w.device.currentScreen = .light → w.view = .bare → i.direction = .none)
          (by rw [Unmixed, h])
      | .outside | .flashing _ => isTrue (by rw [Unmixed, h]; trivial)

section Handlers
variable {s t : Eink}

def Marks (mode : Bool) (id : ℤ) (t : Eink) : Prop :=
  t.RGBMode = mode ∧ t.nav.currentRoomID = id

theorem shown_marks {k : PageKind} {room : ℤ} {last : Fin 20} (h : Shown k room last s t) :
    Marks s.RGBMode (k.id s.uiLevel) t :=
  ⟨h.mode,h.nav.id⟩

theorem drawLight_marks (a : Answers) (id : ℤ) (s : Eink) :
    Ends (drawLight a id s) (fun t => Marks s.RGBMode drawLightID t ∧
      foundLight id s = .ok t.house.currentLight) (fun _ => True) := by
  refine ends_and (F := fun _ => True) ?_ ?_
  · exact ends_mono (drawLight_shown a id s) (fun t ht => shown_marks ht) fun _ _ => trivial
  · refine drawLight_opens (P := fun h => foundLight id s = .ok h.currentLight) ?_
    rw [openLight, foundLight]
    split
    · exact ends_bind (ends_self _) fun _ hl => hl
    · exact ends_bind (ends_self _) fun _ hl => hl

def Besides (s t : Eink) : Prop :=
  t.RGBMode = s.RGBMode ∧ (t.nav.currentRoomID = drawLightID → s.nav.currentRoomID = drawLightID)

theorem shown_besides {k : PageKind} {room : ℤ} {last : Fin 20} (hk : k ≠ .light)
    (h : Shown k room last s t) : Besides s t := by
  refine ⟨h.mode,fun hid => absurd ?_ hk⟩
  exact (id_iff (p := .light) (by decide) (by decide) s.uiLevel).mp (h.nav.id.symm.trans hid)

theorem remains_besides (h : Remains s t) : Besides s t := by
  rw [h]
  exact ⟨rfl,fun hid => hid⟩

theorem drawHome_besides (a : Answers) (s : Eink) :
    Ends (drawHome a s) (Besides s) (fun _ => True) := by
  by_cases h : 1 ≤ s.uiLevel
  · exact ends_mono (drawHome_shown a s h) (fun t ht => shown_besides (by decide) ht)
      fun _ _ => trivial
  · rw [drawHome_off a (by omega)]
    exact ⟨rfl,fun hid => hid⟩

/-- What going back draws. -/
theorem goBack_views (a : Answers) (s : Eink) :
    Ends (goBack a s) (fun t =>
      (cell s.nav (s.nav.pagePageCounter-2) = some drawLightID →
        Marks s.RGBMode drawLightID t ∧ foundLight 0 s = .ok t.house.currentLight) ∧
      (cell s.nav (s.nav.pagePageCounter-2) ≠ some drawLightID → Besides s t)) (fun _ => True) := by
  cases hr : CheckedArray.read s.nav.pagePath (s.nav.pagePageCounter-2)
      (Fault.outside .pagePath (s.nav.pagePageCounter-2)) with
  | error e =>
    rw [goBack, hr]
    trivial
  | ok v =>
    have hcell := (read_cell _).mp hr
    rw [hcell]
    by_cases hv : v = drawLightID
    · subst hv
      rw [goBack_page hr, if_neg (by decide), if_neg (by decide), if_neg (by decide), if_pos rfl]
      exact ends_imp (drawLight_marks a 0 _) fun t ht => ⟨fun _ => ht,fun h => absurd rfl h⟩
    · have hbeside : Ends (goBack a s) (Besides s) (fun _ => True) := by
        refine goBack_ends hr (fun _ => drawHome_besides a _) (fun _ _ => trivial)
          (fun k t _ _ hk ht => ?_) fun _ _ => ⟨rfl,fun h => h⟩
        refine shown_besides (s := reopened s) (fun hl => hv ?_) ht
        rw [hk, hl]
        rfl
      exact ends_imp hbeside fun t ht =>
        ⟨fun h => absurd (Option.some.inj h) hv,fun _ => ht⟩

structure Handled (b : Button) (e : Event) (s t : Eink) : Prop where
  opened : OpensPage e s →
    Marks s.RGBMode drawLightID t ∧ foundLight (openedId b e) s = .ok t.house.currentLight
  toggled : e = .toggleRGBMode → t.RGBMode = s.pressedButton.on ∧ t.nav = s.nav
  beside : ¬OpensPage e s → e ≠ .toggleRGBMode → Besides s t

theorem handled_beside {b : Button} {e : Event} {x : Except Fault Eink}
    (he : e ≠ .drawLight ∧ e ≠ .goBack ∧ e ≠ .toggleRGBMode)
    (hx : Ends x (Besides s) (fun _ => True)) : Ends x (Handled b e s) (fun _ => True) := by
  refine ends_imp hx fun t ht => ⟨?_,fun h => absurd h he.2.2,fun _ _ => ht⟩
  rintro (h | ⟨h,-⟩)
  · exact absurd h he.1
  · exact absurd h he.2.1

theorem handle_handled (a : Answers) (b : Button) (i : Fin 30) (s : Eink) (e : Event) :
    Ends (handle a b.id i s e) (Handled b e s) (fun _ => True) := by
  have hremains : ∀ {x : Except Fault Eink}, e ≠ .drawLight ∧ e ≠ .goBack ∧ e ≠ .toggleRGBMode →
      Ends x (Remains s) (fun _ => True) → Ends x (Handled b e s) (fun _ => True) :=
    fun he hx => handled_beside he (ends_imp hx fun _ ht => remains_besides ht)
  cases e with
  | drawLight =>
    refine ends_imp (drawLight_marks a b.id s) fun t ht => ⟨fun _ => ht,nofun,fun h => ?_⟩
    exact absurd (Or.inl rfl) h
  | goBack =>
    refine ends_imp (goBack_views a s) fun t ht => ⟨?_,nofun,fun h _ => ?_⟩
    · rintro (h | ⟨-,h⟩)
      · cases h
      · exact ht.1 h
    · exact ht.2 fun hcell => h (Or.inr ⟨rfl,hcell⟩)
  | toggleRGBMode =>
    refine ⟨?_,fun _ => ⟨rfl,rfl⟩,fun _ h => absurd rfl h⟩
    rintro (h | ⟨h,-⟩) <;> cases h
  | drawAllGroups | drawRoom | drawAllLights | drawAllBehaviors | drawBehavior
  | changeBehaviorForTraining | changeBehaviorForAlarm | changeBehaviorForFest =>
    exact handled_beside (by decide) (ends_mono (handle_shown rfl a b.id i s)
      (fun t ht => shown_besides (by decide) ht) fun _ _ => trivial)
  | drawHomeFromHomeButton => exact handled_beside (by decide) (drawHome_besides a _)
  | fetchData =>
    refine handled_beside (by decide) (ends_bind (ends_true _) fun house _ => ?_)
    exact drawHome_besides a _
  | drawNextPage | drawPrevPage => exact hremains (by decide) (turnPage_remains _ _ s)
  | switch => exact handled_beside (x := .ok _) (by decide) ⟨rfl,fun h => h⟩
  | selectLight => exact hremains (by decide) (selectLight_remains a b.id i s)
  | toggleBehavior => exact hremains (by decide) (toggleBehavior_remains a b.id i s)
  | setting x => exact handled_beside (x := .ok _) (by simp) ⟨rfl,fun h => h⟩

end Handlers

section Iterations
variable {i : Input} {c : Choosing} {s t u : Eink}

/-- Neither the mode nor the page on screen changes. -/
def Undisturbed (s t : Eink) : Prop := t.RGBMode = s.RGBMode ∧ t.nav = s.nav

theorem undisturbed_trans (h : Undisturbed s t) (g : Undisturbed t u) : Undisturbed s u :=
  ⟨g.1.trans h.1,g.2.trans h.2⟩

theorem switchChosen_undisturbed (i : Input) (c : Choosing) (s : Eink) :
    Undisturbed s (switchChosen i c s).eink := by
  refine ⟨?_,(switchChosen_dialled i c s).nav⟩
  simp only [switchChosen]
  split
  · rfl
  · split
    · rfl
    · split
      · rfl
      · split <;> rfl

theorem brightenChosen_undisturbed (i : Input) (c : Choosing) (s : Eink) :
    Undisturbed s (brightenChosen i c s).eink := by
  refine ⟨?_,(brightenChosen_dialled i c s).nav⟩
  rw [brightenChosen]
  split
  · rfl
  · split <;> rfl
  · split <;> rfl

theorem chooseBulb_undisturbed (i : Input) (c : Choosing) (s : Eink) :
    Ends (chooseBulb i c s) (fun t => Undisturbed s t.eink) (fun _ => True) := by
  rw [chooseBulb]
  split
  · exact ⟨rfl,rfl⟩
  · refine ends_bind (ends_true _) fun id _ => ?_
    split
    · exact ⟨rfl,rfl⟩
    · exact ends_bind (Q := Undisturbed s)
        (ends_bind (ends_true _) fun light _ => ⟨rfl,rfl⟩) fun _ h => h

theorem adjustLight_undisturbed (i : Input) (c : Adjusting) (s : Eink) :
    Undisturbed s (adjustLight i c s).eink := by
  refine ⟨?_,(adjustLight_dialled i c s).nav⟩
  have hswitch := (switchLight_mode i c s).2
  have hbright := (adjustBrightness_turn i (switchLight i c s).loop (switchLight i c s).eink).2.1
  refine Eq.trans ?_ (hbright.trans hswitch)
  show (adjustColor i _ _).eink.RGBMode = _
  rw [adjustColor]
  split <;> rfl

theorem choose_opens (i : Input) (c : Choosing) (s : Eink) :
    Ends (chooseAndAlterLightInRoom i c s) (fun t => ∃ o,
      openChosen i (waitTurn i.millis s.uiLevel c) s = .ok o ∧ Undisturbed o t.eink)
      (fun _ => True) := by
  refine ends_bind (ends_self _) fun o ho => ?_
  let w := waitTurn i.millis s.uiLevel c
  have hv := undisturbed_trans (switchChosen_undisturbed i w o)
    (brightenChosen_undisturbed i (switchChosen i w o).loop (switchChosen i w o).eink)
  exact ends_bind (chooseBulb_undisturbed i _ _) fun t ht => ⟨o,ho,undisturbed_trans hv ht⟩

theorem chooseLightInRoom_still (i : Input) (c : Flashing) (s : Eink) :
    Ends (chooseLightInRoom i c s) (fun t => t.eink = s) (fun _ => True) := by
  rw [chooseLightInRoom]
  split
  · exact rfl
  · refine ends_bind (ends_true _) fun id _ => ?_
    split
    · exact rfl
    · exact rfl

theorem openChosen_marks (h : OpensLight i c s) :
    Ends (openChosen i c s) (fun o => Marks s.RGBMode drawLightID o ∧
      foundLight c.currentLightId.toNat { s with calledFromEncoder := true } =
        .ok o.house.currentLight) (fun _ => True) := by
  rw [openChosen, if_pos h]
  exact drawLight_marks _ _ _

theorem colours_append (cs ds : List Command) : colours (cs ++ ds) = colours cs ++ colours ds :=
  List.filter_append ..

theorem adjusted_colours (c : Adjusting) (m : DialCycle.Iteration) :
    colours (adjusted c m).sent = hueSent c (hueDetent m) ++ tempSent c (tempDetent m) := by
  have hbright : colours (brightnessSent c m.input.directionCont) = [] := by
    cases m.input.directionCont <;> rfl
  have hswitch : colours (switchLight m.input c m.eink).sent = [] := by
    obtain h | ⟨id,h | h⟩ := switchLight_sent m.input c m.eink <;> rw [h] <;> rfl
  have hhue : colours (hueSent c (hueDetent m)) = hueSent c (hueDetent m) := by
    cases hueDetent m <;> rfl
  have htemp : colours (tempSent c (tempDetent m)) = tempSent c (tempDetent m) := by
    cases tempDetent m <;> rfl
  rw [(adjusted_turn c m).2, colours_append, colours_append, colours_append, hswitch, hbright,
    hhue, htemp, List.nil_append, List.nil_append]

theorem colours_none_iff (c : Adjusting) (m : DialCycle.Iteration) :
    colours (adjusted c m).sent = [] ↔ m.input.direction = .none := by
  rw [adjusted_colours, List.append_eq_nil_iff, hueDetent, tempDetent, hueSent, tempSent]
  cases m.eink.RGBMode <;> cases m.input.direction <;> simp

end Iterations

section Runs
variable {w v : Viewed} {l : Light} {mode : Bool}

theorem selects_drawn : Selects mode (drawnView l) ↔ (mode = true → l.onlyDimmable = true) := by
  rw [drawnView]
  cases l.onlyDimmable <;> cases mode <;> simp [Selects]

theorem selects_toggled (b : Button) : Selects b.on (toggledView b) := by
  rw [toggledView]
  cases b.on <;> simp [Selects]

theorem touch_agrees (a : Answers) (x y : ℤ) (hw : Agrees w) :
    Ends (follow w (.touch a x y)) (fun v => Agrees v ↔ Unmixed w (.touch a x y))
      (fun _ => True) := by
  obtain ⟨hselects,hstray⟩ := hw
  refine ends_bind (Q := fun t => Agrees { w with
    device := { w.device with eink := t }
    view := viewTouched x y w.device.eink t w.view } ↔ Unmixed w (.touch a x y)) ?_ fun t ht => ht
  have hkept : ∀ t : Eink, pressedBy x y w.device.eink = none → t = w.device.eink →
      (Agrees { w with device := { w.device with eink := t }
                       view := viewTouched x y w.device.eink t w.view } ↔
        Unmixed w (.touch a x y)) := by
    rintro t hp rfl
    refine iff_of_true ⟨fun hpage => ?_,hstray⟩ fun p h => ?_
    · dsimp only at hpage ⊢
      rw [viewTouched, if_neg (not_not.mpr hpage), hp]
      exact hselects hpage
    · rw [hp] at h
      cases h
  rw [Pages.touch]
  cases hi : onTouchEvent x y w.device.eink.screen with
  | none => exact hkept _ (by rw [pressedBy, hi]; rfl) rfl
  | some i =>
    dsimp only
    cases he : (w.device.eink.screen.buttons i).event with
    | none => exact hkept _ (by simp [pressedBy, hi, he]) rfl
    | some e =>
      let b := w.device.eink.screen.buttons i
      have hp : pressedBy x y w.device.eink = some (b,e) := by simp [pressedBy, hi, he, b]
      refine ends_imp (handle_handled a b i { w.device.eink with pressedButton := b } e)
        fun t ht => ?_
      have hunmixed : Unmixed w (.touch a x y) ↔ (OpensPage e w.device.eink →
          Plain (openedId b e) { w.device.eink with pressedButton := b }) := by
        rw [Unmixed, hp]
        simp
      rw [hunmixed]
      by_cases hopen : OpensPage e w.device.eink
      · obtain ⟨⟨hmode,hpage⟩,hfound⟩ := ht.opened hopen
        have hview : viewTouched x y w.device.eink t w.view = drawnView t.house.currentLight := by
          rw [viewTouched, if_neg (not_not.mpr hpage), hp]
          exact if_pos hopen
        rw [Agrees]
        dsimp only
        rw [hview, selects_drawn, hmode, Plain, hfound]
        exact ⟨fun h _ => h.1 hpage,fun h => ⟨fun _ => h hopen,hstray⟩⟩
      · refine iff_of_true ⟨fun hpage => ?_,hstray⟩ fun h => absurd h hopen
        dsimp only at hpage ⊢
        rw [viewTouched, if_neg (not_not.mpr hpage), hp]
        dsimp only
        rw [if_neg hopen]
        by_cases htoggle : e = .toggleRGBMode
        · rw [if_pos htoggle, (ht.toggled htoggle).1]
          exact selects_toggled b
        · obtain ⟨hmode,hbefore⟩ := ht.beside hopen htoggle
          rw [if_neg htoggle, hmode]
          exact hselects (hbefore hpage)

theorem agrees_kept {d : Device} {sent : List Command} (hw : Agrees w)
    (hd : Undisturbed w.device.eink d.eink) (hsent : sent = []) :
    Agrees { device := d, view := w.view, stray := w.stray ++ sent } := by
  rw [hsent, List.append_nil]
  refine ⟨fun hpage => ?_,hw.2⟩
  dsimp only at hpage ⊢
  rw [hd.1]
  exact hw.1 (hd.2 ▸ hpage)

def TurnAgrees (w : Viewed) (i : Input) (p : Device × List Command) : Prop :=
  Agrees {
    device := p.1
    view := viewTurned i w.device w.view
    stray := w.stray ++ strayed w.device.loop w.view p.2 } ↔ Unmixed w (.turn i)

/-- The page that the press of the dial opens. -/
theorem choosing_agrees {i : Input} {c : Choosing} (hw : Agrees w)
    (hloop : w.device.loop = .choosing c) :
    Ends (iterate i w.device) (TurnAgrees w i) (fun _ => True) := by
  rw [iterate, hloop]
  dsimp only
  by_cases hch : Chooses w.device.eink
  · rw [if_pos hch]
    refine ends_bind (choose_opens i c w.device.eink) fun t hopens => ?_
    obtain ⟨o,ho,ht⟩ := hopens
    show TurnAgrees w i (t.iterated .choosing)
    rw [TurnAgrees, viewTurned, Unmixed, hloop]
    dsimp only
    by_cases hopen : OpensLight i (waitTurn i.millis w.device.eink.uiLevel c) w.device.eink
    · have hpress : Presses i c w.device.eink := ⟨hch,hopen⟩
      obtain ⟨⟨hmode,hpage⟩,hfound⟩ := ends_of_ok (openChosen_marks hopen) ho
      rw [(DialTargets.waitTurn_bulb _ _ _).2] at hfound
      rw [if_pos hpress, ho]
      show Agrees { device := (t.iterated .choosing).1, view := drawnView o.house.currentLight
                    stray := w.stray ++ [] } ↔ _
      rw [Agrees, List.append_nil]
      show ((t.eink.nav.currentRoomID = drawLightID → Selects t.eink.RGBMode _) ∧ _) ↔ _
      rw [ht.1, ht.2, hmode, selects_drawn, Plain, hfound]
      exact ⟨fun h _ => h.1 hpage,fun h => ⟨fun _ => h hpress,hw.2⟩⟩
    · have hpress : ¬Presses i c w.device.eink := fun h => hopen h.2
      rw [openChosen, if_neg hopen] at ho
      rw [if_neg hpress]
      refine iff_of_true (agrees_kept hw ?_ rfl) fun h => absurd h hpress
      rw [Except.ok.inj ho]
      exact ht
  · have hpress : ¬Presses i c w.device.eink := fun h => hch h.1
    rw [if_neg hch]
    show TurnAgrees w i _
    rw [TurnAgrees, viewTurned, Unmixed, hloop]
    dsimp only
    rw [if_neg hpress]
    exact iff_of_true (agrees_kept hw ⟨rfl,rfl⟩ rfl) fun h => absurd h hpress

/-- The colours that the lower dial sends over a page without scales. -/
theorem adjusting_agrees {i : Input} {c : Adjusting} (hw : Agrees w)
    (hloop : w.device.loop = .adjusting c) :
    Ends (iterate i w.device) (TurnAgrees w i) (fun _ => True) := by
  have hd := adjustLight_undisturbed i c w.device.eink
  rw [iterate, hloop]
  dsimp only
  by_cases hl : w.device.currentScreen = .light
  · rw [if_pos hl]
    show TurnAgrees w i _
    rw [TurnAgrees, viewTurned, Unmixed, hloop]
    dsimp only
    by_cases hv : w.view = .bare
    · have hcolours := colours_none_iff c { input := i, eink := w.device.eink }
      rw [hv]
      show Agrees { device := ((adjustLight i c w.device.eink).iterated .adjusting).1
                    view := .bare
                    stray := w.stray ++ colours (adjustLight i c w.device.eink).sent } ↔ _
      rw [Agrees]
      dsimp only
      rw [hw.2, List.nil_append]
      exact ⟨fun h _ _ => hcolours.mp h.2,fun h => ⟨fun _ => trivial,hcolours.mpr (h hl rfl)⟩⟩
    · have hstray : strayed (.adjusting c) w.view (adjustLight i c w.device.eink).sent = [] := by
        rw [strayed]
        rintro d - h
        exact hv h
      exact iff_of_true (agrees_kept hw hd hstray) fun _ h => absurd h hv
  · rw [if_neg hl]
    show TurnAgrees w i _
    rw [TurnAgrees, viewTurned, Unmixed, hloop]
    dsimp only
    have hstray : strayed (.adjusting c) w.view [] = [] := by
      cases w.view <;> rfl
    exact iff_of_true (agrees_kept hw ⟨rfl,rfl⟩ hstray) fun h => absurd h hl

theorem turn_agrees (i : Input) (hw : Agrees w) :
    Ends (follow w (.turn i)) (fun v => Agrees v ↔ Unmixed w (.turn i)) (fun _ => True) := by
  have hiterate : Ends (iterate i w.device) (TurnAgrees w i) (fun _ => True) := by
    have hsame : Undisturbed w.device.eink w.device.eink := ⟨rfl,rfl⟩
    cases hloop : w.device.loop with
    | choosing c => exact choosing_agrees hw hloop
    | adjusting c => exact adjusting_agrees hw hloop
    | outside =>
      rw [iterate, hloop]
      refine ends_bind (ends_true _) fun loop _ => ?_
      show TurnAgrees w i _
      rw [TurnAgrees, viewTurned, Unmixed, hloop]
      exact iff_of_true (agrees_kept hw hsame rfl) trivial
    | flashing c =>
      rw [iterate, hloop]
      dsimp only
      split
      · refine ends_bind (chooseLightInRoom_still i c w.device.eink) fun t ht => ?_
        show TurnAgrees w i _
        rw [TurnAgrees, viewTurned, Unmixed, hloop]
        refine iff_of_true (agrees_kept (d := (t.iterated Loop.flashing).1) hw ?_ rfl) trivial
        rw [show (t.iterated Loop.flashing).1.eink = w.device.eink from ht]
        exact hsame
      · show TurnAgrees w i _
        rw [TurnAgrees, viewTurned, Unmixed, hloop]
        exact iff_of_true (agrees_kept hw hsame rfl) trivial
  refine ends_bind hiterate fun p hp => ?_
  obtain ⟨d,sent⟩ := p
  exact hp

theorem follow_agrees (hw : Agrees w) (m : Encoder.Move) :
    Ends (follow w m) (fun v => Agrees v ↔ Unmixed w m) (fun _ => True) := by
  cases m with
  | touch a x y => exact touch_agrees a x y hw
  | turn i => exact turn_agrees i hw

end Runs

/-- From boot on every light page shows what the lower dial does exactly in the
runs that open no page with scales in RGB mode, and turn the lower dial on no
page without scales. -/
theorem agrees_iff_unmixed {a : Answers} {s : Eink} {w : Viewed} {ms : List Encoder.Move}
    (hs : fetchData a {} = .ok s) (hr : run follow { device := { eink := s } } ms = .ok w) :
    Runs follow Agrees (fun _ => True) { device := { eink := s } } ms ↔
      Meets follow Unmixed { device := { eink := s } } ms := by
  have hboot : Ends (fetchData a {}) (fun t => t.nav.currentRoomID ≠ drawLightID)
      (fun _ => True) := by
    refine ends_bind (ends_true _) fun house _ => ?_
    exact ends_imp (drawHome_besides a _) fun t ht h =>
      absurd (ht.2 h) (show ¬(0:ℤ) = drawLightID by decide)
  have hpage : s.nav.currentRoomID ≠ drawLightID :=
    ends_of_ok (Q := fun t : Eink => t.nav.currentRoomID ≠ drawLightID) hboot hs
  have hstart : Agrees { device := { eink := s } } := ⟨fun h => absurd h hpage,rfl⟩
  refine runs_iff_meets_of_ok (I := Agrees) (fun _ hw => hw) (fun w m v hw hm hv => ?_)
    (fun w m v hw hm hv h => ?_) hstart hr
  · exact (ends_of_ok (follow_agrees hw m) hv).mpr hm
  · exact hm ((ends_of_ok (follow_agrees hw m) hv).mp h)

def farve : Encoder.Move := .touch DialTargets.twoRooms 49 187

def temp : Encoder.Move := .touch DialTargets.twoRooms 127 187

def opened : List Encoder.Move :=
  [DialTargets.allRooms,DialTargets.secondEntry,DialTargets.firstEntry]

/-- FARVE and TEMP are touched, a detent made, and the page left and opened again. -/
theorem toggled_back_agrees : Runs follow Agrees (fun _ => True)
    { device := { eink := DialTargets.booted } }
    (opened++[DialTargets.idle,farve,.turn { direction := .up },temp,DialTargets.goBack,
      DialTargets.firstEntry]) := by
  have hrun : (run follow { device := { eink := DialTargets.booted } }
      (opened++[DialTargets.idle,farve,.turn { direction := .up },temp,DialTargets.goBack,
        DialTargets.firstEntry])).isOk = true := by decide +kernel
  exact (agrees_iff_unmixed DialTargets.booted_fetched (ok_getD {} hrun)).mpr (by decide +kernel)

/-- The page is opened again in RGB mode: TEMP is drawn as selected. -/
theorem farve_forgotten : ¬∀ (a : Answers) (s : Eink) (ms : List Encoder.Move),
    fetchData a {} = .ok s →
      Runs follow Agrees (fun _ => True) { device := { eink := s } } ms := by
  intro hall
  have hruns := runs_ends (hall DialTargets.twoRooms DialTargets.booted
    (opened++[farve,DialTargets.goBack,DialTargets.firstEntry]) DialTargets.booted_fetched)
  revert hruns
  decide +kernel

end THue.LightScales
