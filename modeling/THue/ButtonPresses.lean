import THue.DialWindow
import THue.DialMemory

/-!
# Presses of the dial's button

Two loops of the encoder task sample the level of one pin. Counted here are
what the iterations do for a low sample, and the falls of the level from one
sample to the next, over runs of the whole device.
-/

set_option autoImplicit false

namespace THue.ButtonPresses
open THue.Globals THue.CheckedArray THue.FaultRun THue.Bridge THue.Pages THue.Encoder
open THue.DialTargets THue.DialCycle THue.DialWindow

def Samples (d : Device) : Prop :=
  match d.loop with
  | .choosing _ => Chooses d.eink
  | .adjusting _ => d.currentScreen = .light
  | .outside | .flashing _ => False

instance samples_decidable : ∀ d, Decidable (Samples d)
  | ⟨_,_,.outside⟩ => isFalse id
  | ⟨_,_,.choosing _⟩ => inferInstanceAs (Decidable (Chooses _))
  | ⟨_,_,.flashing _⟩ => isFalse id
  | ⟨_,_,.adjusting _⟩ => inferInstanceAs (Decidable (_ = _))

/-- The loop that the dial press belongs to opened the light page. -/
def Opened (d e : Device) : Prop :=
  match d.loop with
  | .choosing _ => Chooses d.eink ∧ e.eink.nav.currentScreenType = .light
  | .outside | .flashing _ | .adjusting _ => False

instance opened_decidable : ∀ d e, Decidable (Opened d e)
  | ⟨_,_,.outside⟩, _ => isFalse id
  | ⟨_,_,.choosing _⟩, _ => inferInstanceAs (Decidable (_ ∧ _))
  | ⟨_,_,.flashing _⟩, _ => isFalse id
  | ⟨_,_,.adjusting _⟩, _ => isFalse id

def switches (cs : List Command) : List Command :=
  cs.filter fun
    | .lightOn _ | .lightOff _ | .groupOn _ | .groupOff _ => true
    | _ => false

def acts (d e : Device) (sent : List Command) : ℕ :=
  (if Opened d e then 1 else 0) + (switches sent).length

/-- A device, the level sampled last, and the falls and the actions so far. -/
structure Pushed where
  device : Device := {}
  low : Bool := false
  falls : ℕ := 0
  actions : ℕ := 0

def push (w : Pushed) : Encoder.Move → Except Fault Pushed
  | .touch a x y => do
      let s ← Pages.touch a x y w.device.eink
      pure { w with device := { w.device with eink := s } }
  | .turn i => do
      let (d,sent) ← iterate i w.device
      let actions := w.actions + acts w.device d sent
      if Samples w.device then
        pure { device := d, low := i.pressed, actions := actions
               falls := w.falls + if i.pressed = true ∧ w.low = false then 1 else 0 }
      else pure { w with device := d, actions := actions }

def Opening (d : Device) (i : Input) : Prop :=
  match d.loop with
  | .choosing c => OpensLight i (waitTurn i.millis d.eink.uiLevel c) d.eink
  | .outside | .flashing _ | .adjusting _ => False

instance opening_decidable : ∀ d i, Decidable (Opening d i)
  | ⟨_,_,.outside⟩, _ => isFalse id
  | ⟨_,_,.choosing _⟩, _ => inferInstanceAs (Decidable (OpensLight _ _ _))
  | ⟨_,_,.flashing _⟩, _ => isFalse id
  | ⟨_,_,.adjusting _⟩, _ => isFalse id

def Single (w : Pushed) : Encoder.Move → Prop
  | .touch _ _ _ => True
  | .turn i => Samples w.device → i.pressed = true → w.low = false ∧ ¬Opening w.device i

instance single_decidable (w : Pushed) : ∀ m, Decidable (Single w m)
  | .touch _ _ _ => isTrue trivial
  | .turn _ => inferInstanceAs (Decidable (_ → _ → _))

variable {d : Device} {s : Eink}

theorem switches_append (cs ds : List Command) :
    switches (cs++ds) = switches cs ++ switches ds := List.filter_append ..

theorem switchChosen_switches (i : Input) (c : Choosing) (s : Eink) :
    (switches (switchChosen i c s).sent).length = if i.pressed = true then 1 else 0 := by
  simp only [switchChosen]
  cases i.pressed with
  | false => rfl
  | true =>
    rw [if_neg (by decide)]
    split
    · rfl
    · split
      · rfl
      · split <;> rfl

theorem brightenChosen_switches (i : Input) (c : Choosing) (s : Eink) :
    switches (brightenChosen i c s).sent = [] := by
  rw [brightenChosen]
  split
  · rfl
  · split <;> rfl
  · split <;> rfl

theorem chooseBulb_switches (i : Input) (c : Choosing) (s : Eink) :
    Ends (chooseBulb i c s) (fun t => switches t.sent = []) (fun _ => True) := by
  rw [chooseBulb]
  split
  · rfl
  · refine ends_bind (ends_true _) fun id _ => ?_
    split
    · rfl
    · exact ends_bind (ends_true _) fun _ _ => rfl

theorem choosing_switches (i : Input) (c : Choosing) (s : Eink) :
    Ends (chooseAndAlterLightInRoom i c s)
      (fun t => (switches t.sent).length = if i.pressed = true then 1 else 0) (fun _ => True) := by
  refine ends_bind (ends_true _) fun o _ => ?_
  refine ends_bind (chooseBulb_switches i _ _) fun u hu => ?_
  show (switches ((_ ++ _) ++ u.sent)).length = _
  rw [switches_append, switches_append, hu, brightenChosen_switches]
  simpa using switchChosen_switches i _ o

theorem adjustLight_switches (i : Input) (c : Adjusting) (s : Eink) :
    (switches (adjustLight i c s).sent).length = if i.pressed = true then 1 else 0 := by
  have hswitch :
      (switches (switchLight i c s).sent).length = if i.pressed = true then 1 else 0 := by
    rw [switchLight]
    cases i.pressed with
    | false => rfl
    | true =>
      rw [if_neg (by decide)]
      dsimp only
      split <;> rfl
  have hbright : ∀ c s, switches (adjustBrightness i c s).sent = [] := by
    intro c s
    rw [adjustBrightness]
    split <;> rfl
  have hcolor : ∀ c s, switches (adjustColor i c s).sent = [] := by
    intro c s
    rw [adjustColor]
    split <;> rfl
  show (switches ((_ ++ _) ++ _)).length = _
  rw [switches_append, switches_append, hbright, hcolor]
  simpa using hswitch

theorem chooseLightInRoom_switches (i : Input) (c : Flashing) (s : Eink) :
    Ends (chooseLightInRoom i c s) (fun t => switches t.sent = []) (fun _ => True) := by
  rw [chooseLightInRoom]
  split
  · rfl
  · refine ends_bind (ends_true _) fun id _ => ?_
    split <;> rfl

theorem choosing_opens (i : Input) (c : Choosing) {s : Eink} (hc : Chooses s) :
    Ends (chooseAndAlterLightInRoom i c s) (fun t => t.eink.nav.currentScreenType = .light ↔
      OpensLight i (waitTurn i.millis s.uiLevel c) s) (fun _ => True) := by
  rw [chooseAndAlterLightInRoom_cells]
  exact ends_imp (iteration_left _ i c s) fun _ ht => ht.page hc

/-- What an iteration does for the button: for a low sample it switches once,
and where the window is open it opens the light page as well. -/
def due (i : Input) (d : Device) : ℕ :=
  if Samples d ∧ i.pressed = true then (if Opening d i then 2 else 1) else 0

theorem iterate_acts (i : Input) (d : Device) :
    Ends (iterate i d) (fun p => acts d p.1 p.2 = due i d) (fun _ => True) := by
  obtain ⟨s,level,l⟩ := d
  have hidle : ∀ (e : Device) (sent : List Command), ¬Samples ⟨s,level,l⟩ →
      ¬Opened ⟨s,level,l⟩ e → switches sent = [] →
        acts ⟨s,level,l⟩ e sent = due i ⟨s,level,l⟩ := by
    intro e sent hs ho hsent
    rw [acts, due, if_neg ho, if_neg fun h => hs h.1, hsent]
    rfl
  cases l with
  | outside =>
    exact ends_bind (ends_true _) fun l _ => hidle _ _ (fun h => h) (fun h => h) rfl
  | choosing c =>
    rw [iterate]
    dsimp only
    split
    · next hc =>
      refine ends_bind (ends_and (choosing_switches i c s) (choosing_opens i c hc)) ?_
      rintro t ⟨hsent,hpage⟩
      show acts _ (t.iterated Loop.choosing).1 t.sent = _
      rw [acts, due, hsent]
      by_cases ho : OpensLight i (waitTurn i.millis s.uiLevel c) s
      · rw [if_pos ⟨hc,hpage.mpr ho⟩, if_pos ho.2.1, if_pos ⟨hc,ho.2.1⟩]
        exact (if_pos ho).symm
      · rw [if_neg fun h => ho (hpage.mp h.2)]
        by_cases hp : i.pressed = true
        · rw [if_pos hp, if_pos ⟨hc,hp⟩]
          exact (if_neg ho).symm
        · rw [if_neg hp, if_neg fun h => hp h.2]
    · next hc => exact hidle _ _ hc (fun h => hc h.1) rfl
  | flashing c =>
    rw [iterate]
    dsimp only
    split
    · exact ends_bind (chooseLightInRoom_switches i c s) fun t ht =>
        hidle _ _ (fun h => h) (fun h => h) ht
    · exact hidle _ _ (fun h => h) (fun h => h) rfl
  | adjusting c =>
    rw [iterate]
    dsimp only
    split
    · next hc =>
      show (if False then 1 else 0) + (switches (adjustLight i c s).sent).length = _
      rw [due, adjustLight_switches, if_neg (fun h => h), Nat.zero_add]
      by_cases hp : i.pressed = true
      · rw [if_pos hp, if_pos ⟨hc,hp⟩]
        rfl
      · rw [if_neg hp, if_neg fun h => hp h.2]
    · next hc => exact hidle _ _ hc (fun h => h) rfl

def excess (w : Pushed) : ℤ := w.actions - w.falls

/-- One step never acts less often than the level falls, and as often exactly
where a low sample follows a high one and opens nothing. -/
theorem push_excess {w v : Pushed} {m : Encoder.Move} (h : push w m = .ok v) :
    excess w ≤ excess v ∧ (excess v = excess w ↔ Single w m) := by
  cases m with
  | touch a x y =>
    obtain ⟨s,-,h⟩ := bind_ok.mp h
    cases h
    exact ⟨le_refl _,fun _ => trivial,fun _ => rfl⟩
  | turn i =>
    obtain ⟨⟨d,sent⟩,hd,h⟩ := bind_ok.mp h
    have hacts : acts w.device d sent = due i w.device :=
      ends_of_ok (Q := fun p => acts w.device p.1 p.2 = due i w.device) (iterate_acts i w.device) hd
    dsimp only at h
    rw [hacts, due] at h
    by_cases hs : Samples w.device
    · rw [if_pos hs] at h
      cases h
      by_cases hp : i.pressed = true
      · by_cases ho : Opening w.device i <;> by_cases hl : w.low = false
        all_goals simp [excess, Single, hs, hp, ho, hl]
        all_goals omega
      · simp [excess, Single, hs, hp]
    · rw [if_neg hs] at h
      cases h
      simp [excess, Single, hs]

/-- In a run from any state the actions are the falls of the level if and only
if every low sample follows a high one and finds the window closed. -/
theorem pressed_iff_single {d : Device} {low : Bool} {ms : List Encoder.Move} {w : Pushed}
    (hr : run push { device := d, low := low } ms = .ok w) :
    w.actions = w.falls ↔ Meets push Single { device := d, low := low } ms := by
  rw [← (level_iff_meets (f := excess) (fun _ _ _ => push_excess) hr).2]
  simp only [excess]
  omega

def singlePress : Pushed :=
  (run push { device := DialMemory.atHome }
    [.turn {},.turn { pressed := true },.turn {}]).toOption.getD {}

theorem singlePress_run : run push { device := DialMemory.atHome }
    [.turn {},.turn { pressed := true },.turn {}] = .ok singlePress :=
  ok_getD {} (by decide +kernel)

/-- The second room on the home page, switched by one press. -/
theorem single_press : singlePress.actions = singlePress.falls :=
  (pressed_iff_single singlePress_run).mpr (by decide +kernel)

def openingPress : Pushed :=
  (run push { device := DialMemory.atHome }
    [.turn {},.turn DialMemory.choose,.turn { pressed := true }]).toOption.getD {}

/-- A press that opens the page of a bulb switches the bulb as well. -/
theorem press_opens_and_switches : ¬∀ (d : Device) (low : Bool) (ms : List Encoder.Move)
    (w : Pushed),
    run push { device := d, low := low } ms = .ok w → w.actions = w.falls := by
  intro h
  have hacts := h DialMemory.atHome false
    [.turn {},.turn DialMemory.choose,.turn { pressed := true }] openingPress
    (ok_getD {} (by decide +kernel))
  revert hacts
  decide +kernel

end THue.ButtonPresses
