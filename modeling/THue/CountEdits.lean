import THue.BehaviorTask
import THue.BehaviorSettings

/-!
# The tasks that the count buttons start

Each count press creates an `updateBehaviors` task. The tasks share the handle
`taskHandlerbehaviorUpdater`, which the next press overwrites, and find their
behavior through `lastBehavior`, which the next behavior page overwrites. A
press therefore reaches its behavior where no older task is alive, and where
the page of that behavior is still the last one when the task stops waiting.
-/

set_option autoImplicit false

namespace THue.CountEdits
open THue.Globals THue.Firebase THue.Entertainment THue.BehaviorTask THue.BehaviorSettings
open THue.FaultRun

inductive Count where
  | training
  | alarm
  deriving DecidableEq, Repr

def Count.behavior : Count → Fin 20
  | .training => 0
  | .alarm => 1

def Count.behaviorId : Count → UInt8
  | .training => repeatedBehavior
  | .alarm => timeBehavior

def Count.setting (p : Play) : Count → ℤ
  | .training => p.blinkingLightsEntries
  | .alarm => p.alarmEntries

def edits : Setting → Option Count
  | .incrementBlinkingLightsCount | .decrementBlinkingLightsCount => some .training
  | .incrementAlarmFlashCount | .decrementAlarmFlashCount => some .alarm
  | .incrementBlinkingLightsSpeed | .decrementBlinkingLightsSpeed | .incrementAlarmDuration
  | .decrementAlarmDuration | .incrementFestSpeed | .decrementFestSpeed => none

def putBehavior (k : Fin 20) (b : Behavior) (p : Play) : Play :=
  { p with behaviors := Function.update p.behaviors k b }

/-- `updateBlinkingLightsEntries` and `updateAlarmLightsEntries`. -/
def updateEntries (k : Fin 20) (p : Play) : Play :=
  let b := p.behaviors k
  putBehavior k { b with entries := alternate b.entriesCount b.entries } p

def updateBlinkingLightsEntries : Play → Play := updateEntries 0
def updateAlarmLightsEntries : Play → Play := updateEntries 1

def setEntriesCount (k : Fin 20) (n : ℤ) (p : Play) : Play :=
  putBehavior k { p.behaviors k with entriesCount := toUInt8 n } p

inductive Branch where
  | alarm
  | training
  | fest
  deriving DecidableEq, Repr

def Branch.exec : Branch → Play → Play
  | .alarm, p => updateAlarmLightsEntries (setEntriesCount 1 p.alarmEntries p)
  | .training, p => updateBlinkingLightsEntries (setEntriesCount 0 p.blinkingLightsEntries p)
  | .fest, p => setEntriesCount 2 p.blinkingLightsEntries p

def branch (b : Behavior) : Option Branch :=
  if b.behaviorId = timeBehavior then some .alarm
  else if b.behaviorId = repeatedBehavior then some .training
  else if b.behaviorId = transitionBehavior then some .fest
  else none

/-- Where a task stands; one that returns from its function has not deleted itself. -/
inductive TaskPc where
  | wait
  | choose
  | recompute (b : Branch)
  | delete
  | returned
  deriving DecidableEq, Repr

structure Task where
  id : ℕ
  pc : TaskPc := .wait
  deriving DecidableEq, Repr

/-- The tasks alive, with the edits made and with which task deleted which. -/
structure Updaters where
  system : System := {}
  tasks : List Task := []
  taskHandlerbehaviorUpdater : Option ℕ := none
  created : ℕ := 0
  edited : List Count := []
  deletions : List (ℕ × ℕ) := []

def setPlay (p : Play) (s : Updaters) : Updaters :=
  { s with system := { s.system with shared := { s.system.shared with play := p } } }

def setPc (id : ℕ) (pc : TaskPc) (s : Updaters) : Updaters :=
  { s with tasks := s.tasks.map fun t => if t.id = id then { t with pc := pc } else t }

def xTaskCreate (s : Updaters) : Updaters :=
  { s with
    tasks := s.tasks ++ [{ id := s.created }]
    taskHandlerbehaviorUpdater := some s.created
    created := s.created + 1 }

def vTaskDelete (id : ℕ) (s : Updaters) : Updaters :=
  let deleted := s.taskHandlerbehaviorUpdater.getD id
  let t := setPc id .returned s
  { t with tasks := t.tasks.filter fun u => u.id ≠ deleted,
           deletions := t.deletions ++ [(id,deleted)] }

def touchSetting (e : Setting) (s : Updaters) : Updaters :=
  let t := setPlay (press e s.system.shared.play) s
  match edits e with
  | some c => xTaskCreate { t with edited := c::t.edited }
  | none => t

def updateBehaviors (id : ℕ) (s : Updaters) : TaskPc → Updaters
  | .wait =>
      setPc id (if s.system.shared.play.lastBehavior.activated then .wait else .choose) s
  | .choose =>
      setPc id ((branch s.system.shared.play.lastBehavior).elim .delete .recompute) s
  | .recompute b => setPc id .delete (setPlay (b.exec s.system.shared.play) s)
  | .delete => vTaskDelete id s
  | .returned => s

inductive Move where
  | other (m : BehaviorTask.Move)
  | press (e : Setting)
  | updater (id : ℕ)

def step (s : Updaters) : Move → Except Fault Updaters
  | .other m => do
      let t ← BehaviorTask.step s.system m
      pure { s with system := t }
  | .press e => .ok (if s.system.touch = .idle then touchSetting e s else s)
  | .updater id =>
      .ok (match s.tasks.find? fun t => t.id = id with
        | some t => updateBehaviors id s t.pc
        | none => s)

/-- `entriesCount` was recomputed from the setting as it is now. -/
def Current (p : Play) (c : Count) : Prop :=
  (p.behaviors c.behavior).entriesCount = toUInt8 (c.setting p)

instance current_decidable (p : Play) (c : Count) : Decidable (Current p c) :=
  inferInstanceAs (Decidable (_ = _))

structure Reached (s : Updaters) : Prop where
  deletions : ∀ d ∈ s.deletions, d.2 = d.1
  counts : s.tasks = [] → ∀ c ∈ s.edited, Current s.system.shared.play c

/-- A count is pressed while no older task is alive; a task chooses while the
last behavior page is that of every edited count that is not yet recomputed. -/
def Patient (s : Updaters) : Move → Prop
  | .other _ => True
  | .press e => edits e ≠ none → s.tasks = []
  | .updater id => { id := id, pc := .choose } ∈ s.tasks →
      ∀ c ∈ s.edited, Current s.system.shared.play c ∨
        s.system.shared.play.lastBehavior.behaviorId = c.behaviorId

instance patient_decidable (s : Updaters) : ∀ m, Decidable (Patient s m)
  | .other _ => isTrue trivial
  | .press _ => inferInstanceAs (Decidable (_ → _))
  | .updater _ => inferInstanceAs (Decidable (_ → _))

def counts (p : Play) : (Fin 20 → UInt8) × ℤ × ℤ :=
  (fun k => (p.behaviors k).entriesCount,p.blinkingLightsEntries,p.alarmEntries)

theorem current_of_counts {p q : Play} (h : counts p = counts q) (c : Count) :
    Current p c ↔ Current q c := by
  simp only [counts, Prod.mk.injEq] at h
  obtain ⟨hn,hb,ha⟩ := h
  have hk := congrFun hn c.behavior
  rw [Current, Current, hk]
  cases c with
  | training => rw [Count.setting, Count.setting, hb]
  | alarm => rw [Count.setting, Count.setting, ha]

theorem counts_put {k : Fin 20} {b : Behavior} {s : Shared}
    (h : b.entriesCount = (s.play.behaviors k).entriesCount) :
    counts (setBehavior k b s).play = counts s.play := by
  simp only [counts, setBehavior, Prod.mk.injEq, and_true]
  funext j
  by_cases hj : j = k
  · subst hj
    simpa using h
  · simp [hj]

theorem toggleOff_counts (now : UInt32) (k : Fin 20) (s : Shared) :
    counts (toggleOff now k s).play = counts s.play := by
  rw [toggleOff]
  split
  · exact counts_put (k := k) (b := { s.play.behaviors k with activated := false }) rfl
  · rfl

theorem initBehaviors_current (unset : Behavior) (p : Play) (c : Count) :
    Current (initBehaviors unset p) c := by
  cases c <;> rfl

theorem behavior_step_counts {o : Oracle} {pc pc' : BehaviorPc} {s t : Shared}
    (h : behaviorStep o pc s = .ok (pc',t)) : counts t.play = counts s.play := by
  cases pc with
  | close | closeAgain => cases h; exact toggleOff_counts _ _ _
  | init =>
    obtain ⟨u,hu,h⟩ := bind_ok.mp h
    cases h
    obtain ⟨m,-,hu⟩ := bind_ok.mp hu
    cases hu
    rfl
  | trainColor i l now =>
    obtain ⟨-,-,_,_,_,-,-,-,rfl⟩ | ⟨-,-,rfl⟩ := colour_loop_cases h paintEntry_painted <;> rfl
  | alarmColor i l =>
    obtain ⟨-,-,_,_,_,-,-,-,rfl⟩ | ⟨-,-,rfl⟩ := colour_loop_cases h paintEntry_painted <;> rfl
  | partyColor l =>
    obtain ⟨-,-,_,_,_,-,-,-,rfl⟩ | ⟨-,-,rfl⟩ := colour_loop_cases h paintRandom_painted <;> rfl
  | _ => cases h; rfl

/-- Another move leaves the counts alone, or sets all behaviors up again. -/
theorem other_step {s t : System} {m : BehaviorTask.Move} (h : BehaviorTask.step s m = .ok t) :
    counts t.shared.play = counts s.shared.play ∨ ∀ c, Current t.shared.play c := by
  cases m with
  | visit now v =>
    cases h
    split
    · obtain ⟨opens,action⟩ := v
      cases opens <;> exact .inl rfl
    · exact .inl rfl
  | select now lightId isSelected a =>
    rw [BehaviorTask.step] at h
    split at h
    · obtain ⟨u,hu,h⟩ := bind_ok.mp h
      cases h
      obtain ⟨b,hb,rfl⟩ := editSelection_ok hu
      exact .inl (counts_put (by rw [edit_keeps hb]; rfl))
    · cases h
      exact .inl rfl
  | start =>
    cases h
    split
    · rw [startTouched]
      split <;> exact .inl rfl
    · exact .inl rfl
  | stop now =>
    cases h
    split
    · exact .inl (toggleOff_counts _ _ _)
    · exact .inl rfl
  | refresh => cases h; split <;> exact .inl rfl
  | touch w =>
    cases h
    obtain ⟨shared,touch,firebase,behavior⟩ := s
    cases touch with
    | startArm k =>
      exact .inl (counts_put (k := k) (s := { shared with log := firebaseEnd shared.log })
        (b := { shared.play.behaviors k with activated := true }) rfl)
    | fetchInit => exact .inr (initBehaviors_current _ _)
    | _ => exact .inl rfl
  | firebase => cases h; exact .inl rfl
  | behavior o =>
    obtain ⟨⟨pc,u⟩,hb,h⟩ := bind_ok.mp h
    cases h
    exact .inl (behavior_step_counts hb)

theorem press_counts {e : Setting} (he : edits e = none) (p : Play) :
    counts (press e p) = counts p := by
  have hdelay : ∀ k d, counts (setDelay k d p) = counts p := by
    intro k d
    simp only [counts, setDelay, Prod.mk.injEq, and_true]
    funext j
    by_cases hj : j = k
    · subst hj
      simp
    · simp [hj]
  cases e with
  | incrementBlinkingLightsCount | decrementBlinkingLightsCount | incrementAlarmFlashCount
  | decrementAlarmFlashCount => cases he
  | _ => exact hdelay _ _

def Count.branch : Count → Branch
  | .training => .training
  | .alarm => .alarm

theorem branch_of_id {c : Count} {b : Behavior} (h : b.behaviorId = c.behaviorId) :
    CountEdits.branch b = some c.branch := by
  cases c <;> simp [CountEdits.branch, h, Count.behaviorId, Count.branch, timeBehavior,
    repeatedBehavior]

theorem exec_current {b : Branch} {c : Count} {p : Play} (h : Current p c ∨ b = c.branch) :
    Current (b.exec p) c := by
  obtain h | rfl := h
  · cases c <;> cases b <;> first | rfl | exact h
  · cases c <;> rfl

def Underway (s : Updaters) : TaskPc → Prop
  | .wait | .choose => True
  | .recompute b => ∀ c ∈ s.edited, Current s.system.shared.play c ∨ b = c.branch
  | .delete => ∀ c ∈ s.edited, Current s.system.shared.play c
  | .returned => False

structure Serial (s : Updaters) : Prop where
  deletions : ∀ d ∈ s.deletions, d.2 = d.1
  tasks : (s.tasks = [] ∧ ∀ c ∈ s.edited, Current s.system.shared.play c) ∨
    ∃ t, s.tasks = [t] ∧ s.taskHandlerbehaviorUpdater = some t.id ∧ Underway s t.pc

section Steps
variable {s t : Updaters}

theorem serial_reached (h : Serial s) : Reached s where
  deletions := h.deletions
  counts hn := by
    obtain ⟨-,hc⟩ | ⟨t,ht,-⟩ := h.tasks
    · exact hc
    · rw [hn] at ht
      cases ht

theorem serial_frame (h : Serial s) (ht : t.tasks = s.tasks) (hd : t.deletions = s.deletions)
    (hh : t.taskHandlerbehaviorUpdater = s.taskHandlerbehaviorUpdater)
    (he : t.edited = s.edited)
    (hc : ∀ c, Current s.system.shared.play c → Current t.system.shared.play c) : Serial t := by
  refine ⟨by rw [hd]; exact h.deletions,?_⟩
  rw [ht, hh, he]
  obtain ⟨hn,hcur⟩ | ⟨u,hu,hid,hw⟩ := h.tasks
  · exact .inl ⟨hn,fun c hm => hc c (hcur c hm)⟩
  · refine .inr ⟨u,hu,hid,?_⟩
    obtain ⟨id,pc⟩ := u
    cases pc with
    | wait | choose => trivial
    | recompute b => exact fun c hm => (hw c (he ▸ hm)).imp_left (hc c)
    | delete => exact fun c hm => hc c (hw c (he ▸ hm))
    | returned => exact hw

theorem serial_press (h : Serial s) (e : Setting) (hp : edits e ≠ none → s.tasks = []) :
    Serial (touchSetting e s) := by
  rw [touchSetting]
  cases he : edits e with
  | none =>
    exact serial_frame h rfl rfl rfl rfl fun c hc =>
      (current_of_counts (press_counts he _) c).mpr hc
  | some c =>
    refine ⟨h.deletions,.inr ⟨{ id := s.created },?_,rfl,trivial⟩⟩
    show s.tasks ++ _ = _
    rw [hp (by simp [he])]
    rfl

/-- The one task alive takes a step. -/
theorem serial_updater {u : Task} (h : Serial s) (hu : s.tasks = [u])
    (hp : u.pc = .choose → ∀ c ∈ s.edited, Current s.system.shared.play c ∨
      s.system.shared.play.lastBehavior.behaviorId = c.behaviorId) :
    Serial (updateBehaviors u.id s u.pc) := by
  obtain ⟨hn,-⟩ | ⟨v,hv,hid,hw⟩ := h.tasks
  · rw [hn] at hu
    cases hu
  rw [hu] at hv
  cases hv
  obtain ⟨id,pc⟩ := u
  have hset : ∀ pc', (s.tasks.map fun t => if t.id = id then { t with pc := pc' } else t) =
      [{ id := id, pc := pc' }] := by
    intro pc'
    rw [hu]
    simp
  cases pc with
  | wait =>
    rw [updateBehaviors]
    split
    · exact ⟨h.deletions,.inr ⟨_,hset _,hid,trivial⟩⟩
    · exact ⟨h.deletions,.inr ⟨_,hset _,hid,trivial⟩⟩
  | choose =>
    rw [updateBehaviors]
    refine ⟨h.deletions,.inr ⟨_,hset _,hid,?_⟩⟩
    cases hb : branch s.system.shared.play.lastBehavior with
    | none =>
      intro c hc
      refine (hp rfl c hc).resolve_right fun hm => ?_
      rw [branch_of_id hm] at hb
      cases hb
    | some b =>
      intro c hc
      refine (hp rfl c hc).imp_right fun hm => ?_
      rw [branch_of_id hm] at hb
      exact (Option.some.inj hb).symm
  | recompute b =>
    exact ⟨h.deletions,.inr ⟨_,hset _,hid,fun c hc => exec_current (hw c hc)⟩⟩
  | delete =>
    refine ⟨?_,.inl ⟨?_,hw⟩⟩
    · intro d hd
      obtain hd | hd := List.mem_append.mp hd
      · exact h.deletions d hd
      · rw [List.mem_singleton.mp hd]
        show s.taskHandlerbehaviorUpdater.getD id = id
        rw [hid]
        rfl
    · show List.filter _ (List.map _ _) = []
      rw [hset, hid]
      simp
  | returned => exact hw.elim

theorem serial_step (s : Updaters) (m : Move) (h : Serial s) (hm : Patient s m) :
    Ends (step s m) Serial (fun _ => True) := by
  cases m with
  | other m =>
    refine ends_bind (ends_self _) fun t ht => ?_
    refine serial_frame h rfl rfl rfl rfl fun c hc => ?_
    obtain hk | hk := other_step ht
    · exact (current_of_counts hk c).mpr hc
    · exact hk c
  | press e =>
    simp only [step, ends_ok]
    split
    · exact serial_press h e hm
    · exact h
  | updater id =>
    simp only [step, ends_ok]
    split
    · next t ht =>
      have hid : t.id = id := by simpa using List.find?_some ht
      have hmem := List.mem_of_find?_eq_some ht
      obtain ⟨hn,-⟩ | ⟨u,hu,-⟩ := h.tasks
      · rw [hn] at hmem
        cases hmem
      · rw [hu, List.mem_singleton] at hmem
        subst hmem
        rw [← hid]
        refine serial_updater h hu fun hpc => hm ?_
        rw [hu, ← hid, ← hpc]
        exact List.mem_singleton_self _
    · exact h

end Steps

/-- On patient runs every task deletes itself, and every count edited is
current whenever no task is alive. -/
theorem patient_edits_reach (s : System) (ms : List Move)
    (h : Meets step Patient { system := s } ms) :
    Runs step Reached (fun _ => True) { system := s } ms := by
  refine runs_of_meets (fun s hs => serial_reached hs) serial_step ?_ h
  exact ⟨by simp,.inl ⟨rfl,by simp⟩⟩

def trainingPage : System where
  shared := { play := openBehavior 0 (putBehavior 0
    { createRepeatingBehavior {} {} with lightCounter := 1 } (initBehaviors {} {})) }

def startedTraining : List Move :=
  [.other .start,.other (.touch {}),.other (.touch {}),.other (.visit 0 { opens := some 0 })]

def patientEdit : List Move :=
  startedTraining ++ [.press .incrementBlinkingLightsCount,.updater 0,.other (.stop 9000),
    .other (.visit 9000 { opens := some 0 }),.updater 0,.updater 0,.updater 0,.updater 0,
    .press .incrementBlinkingLightsCount]

theorem patient_edit_reaches : Meets step Patient { system := trainingPage } patientEdit ∧
    Runs step Reached (fun _ => True) { system := trainingPage } patientEdit := by
  have h : Meets step Patient { system := trainingPage } patientEdit := by decide +kernel
  exact ⟨h,patient_edits_reach trainingPage patientEdit h⟩

def hastyEdits : List Move :=
  startedTraining ++ [.press .incrementBlinkingLightsCount,.press .incrementBlinkingLightsCount,
    .other (.visit 0 { opens := some 1 }),.updater 0,.updater 0,.updater 0,.updater 0]

theorem hasty_edit_deletes_other :
    ¬Runs step Reached (fun _ => True) { system := trainingPage } hastyEdits := by
  intro h
  have hr := ok_getD (x := run step { system := trainingPage } hastyEdits) {} (by decide +kernel)
  have hd := (runs_last h hr).deletions (0,1) (by decide +kernel)
  cases hd

end THue.CountEdits
