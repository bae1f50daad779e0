import THue.BehaviorTask

/-!
# Whether a START is heard

START sets `activated` and `startBehaviorNow`, and nothing counts how often. The
task clears both flags when a run ends. A START stands until the task has
called `initEntertainmentMode` and `connect` after it, unless STOP is touched.
It does so exactly where it comes before `initEntertainmentMode` of a run, or
where STOP is touched before the older run takes its next closing statement.
-/

set_option autoImplicit false

namespace THue.StartRequests
open THue.Globals THue.Firebase THue.Entertainment THue.BehaviorTask THue.FaultRun

/-- START and STOP on the page of one behavior, and the steps of the tasks. -/
def Presses : Move → Prop
  | .start | .stop _ | .touch _ | .firebase | .behavior _ => True
  | .visit .. | .select .. | .refresh => False

def Press := { m : Move // Presses m }

def pressStep (s : System) (m : Press) : Except Fault System := step s m.val

/-- The step that sets the flags of START. -/
def Arms (s : System) (m : Press) : Prop :=
  match m.val with
  | .touch _ => ∃ k, s.touch = .startArm k
  | _ => False

/-- A STOP that the touch task takes. -/
def Stops (s : System) (m : Press) : Prop :=
  match m.val with
  | .stop _ => s.touch = .idle
  | _ => False

def At (pcs : List BehaviorPc) (s : System) (m : Press) : Prop :=
  match m.val with
  | .behavior _ => s.behavior ∈ pcs
  | _ => False

def Closes : System → Press → Prop := At [.close,.clear,.closeAgain,.clearAgain]

/-- Both flags of START, on the page of the last behavior opened. -/
def Standing (s : System) : Prop :=
  s.shared.play.startBehaviorNow = true ∧ Active s.shared.play s.shared.play.lastBehaviorId

/-- The flags stand until STOP or until `connect` follows `initEntertainmentMode`;
`opened` tells whether the latter was called. -/
def Awaits : Bool → System → List Press → Prop
  | _, s, [] => Standing s
  | opened, s, m::ms => Standing s ∧ (Stops s m ∨ (opened = true ∧ At [.connect] s m) ∨
      (At [.init] s m ∧ Ends (pressStep s m) (fun t => Awaits true t ms) (fun _ => True)) ∨
      (¬At [.init] s m ∧
        Ends (pressStep s m) (fun t => Awaits opened t ms) (fun _ => True)))

instance stops_decidable (s : System) : ∀ m, Decidable (Stops s m)
  | ⟨.stop _,_⟩ => inferInstanceAs (Decidable (_ = _))
  | ⟨.visit ..,_⟩ | ⟨.select ..,_⟩ | ⟨.start,_⟩ | ⟨.refresh,_⟩ | ⟨.touch _,_⟩ | ⟨.firebase,_⟩
  | ⟨.behavior _,_⟩ => isFalse id

instance at_decidable (pcs : List BehaviorPc) (s : System) : ∀ m, Decidable (At pcs s m)
  | ⟨.behavior _,_⟩ => inferInstanceAs (Decidable (_ ∈ _))
  | ⟨.visit ..,_⟩ | ⟨.select ..,_⟩ | ⟨.start,_⟩ | ⟨.refresh,_⟩ | ⟨.touch _,_⟩ | ⟨.firebase,_⟩
  | ⟨.stop _,_⟩ => isFalse id

instance standing_decidable (s : System) : Decidable (Standing s) :=
  inferInstanceAs (Decidable (_ ∧ _))

instance awaits_decidable : ∀ opened s ms, Decidable (Awaits opened s ms)
  | _, s, [] => inferInstanceAs (Decidable (Standing s))
  | opened, s, m::ms =>
      match hx : pressStep s m with
      | .ok t =>
          have := awaits_decidable true t ms
          have := awaits_decidable opened t ms
          decidable_of_iff (Standing s ∧ (Stops s m ∨ (opened = true ∧ At [.connect] s m) ∨
            (At [.init] s m ∧ Awaits true t ms) ∨ (¬At [.init] s m ∧ Awaits opened t ms)))
            (by simp [Awaits, hx])
      | .error e =>
          decidable_of_iff (Standing s ∧ (Stops s m ∨ (opened = true ∧ At [.connect] s m) ∨
            At [.init] s m ∨ ¬At [.init] s m)) (by simp [Awaits, hx])

/-- A START that finds an older run between `initEntertainmentMode` and its end. -/
def ArmsLate (s : System) (m : Press) : Prop := Arms s m ∧ s.behavior ∉ [.loop,.init]

def OnPage (s : System) : Prop :=
  s.touch = .idle ∨ s.touch = .startPush s.shared.play.lastBehaviorId ∨
    s.touch = .startArm s.shared.play.lastBehaviorId

section Steps
variable {s t : System} {m : Press}

theorem at_behavior {pcs : List BehaviorPc} (h : At pcs s m) : s.behavior ∈ pcs := by
  obtain ⟨m,hm⟩ := m
  cases m with
  | behavior o => exact h
  | visit now v | select now lightId isSelected a | refresh => exact hm.elim
  | start | stop now | firebase | touch w => exact h.elim

theorem onPage_step (h : OnPage s) (hs : pressStep s m = .ok t) : OnPage t := by
  obtain ⟨m,hm⟩ := m
  cases m with
  | visit now v | select now lightId isSelected a | refresh => exact hm.elim
  | start =>
    cases hs
    split
    · rename_i hi
      rw [startTouched]
      split
      · exact .inr (.inl rfl)
      · exact h
    · exact h
  | stop now =>
    cases hs
    split
    · rename_i hi
      exact .inl hi
    · exact h
  | touch w =>
    cases hs
    obtain ⟨shared,touch,firebase,behavior⟩ := s
    obtain rfl | rfl | rfl : touch = .idle ∨ touch = .startPush shared.play.lastBehaviorId ∨
        touch = .startArm shared.play.lastBehaviorId := h
    · exact .inl rfl
    · exact .inr (.inr rfl)
    · exact .inl rfl
  | firebase => cases hs; exact h
  | behavior o =>
    obtain ⟨⟨pc,u⟩,hb,hs⟩ := bind_ok.mp hs
    cases hs
    have hl : u.play.lastBehaviorId = s.shared.play.lastBehaviorId := by
      obtain rfl | ⟨-,-,hl⟩ := behavior_step_frame hb
      · exact toggleOff_last _ _ s.shared
      · exact hl
    rw [OnPage, hl]
    exact h

theorem init_from_loop {o : Oracle} {pc pc' : BehaviorPc} {s t : Shared}
    (h : behaviorStep o pc s = .ok (pc',t)) (hp : pc' = .init) : pc = .loop := by
  cases pc with
  | loop => rfl
  | init => obtain ⟨u,-,h⟩ := bind_ok.mp h; cases h; simp at hp
  | trainColor i l now =>
    obtain ⟨-,rfl,-⟩ | ⟨-,rfl,-⟩ := colour_loop_cases h paintEntry_painted <;> simp at hp
  | alarmColor i l =>
    obtain ⟨-,rfl,-⟩ | ⟨-,rfl,-⟩ := colour_loop_cases h paintEntry_painted <;> simp at hp
  | partyColor l =>
    obtain ⟨-,rfl,-⟩ | ⟨-,rfl,-⟩ := colour_loop_cases h paintRandom_painted <;> simp at hp
  | connect | dispatch | train i | trainWait i now | alarmWait now | alarm i | party =>
    cases h
    split_ifs at hp
  | _ => cases h; simp at hp

theorem behavior_step_start {o : Oracle} {pc pc' : BehaviorPc} {s t : Shared}
    (hpc : pc ∉ [.close,.clear,.closeAgain,.clearAgain])
    (h : behaviorStep o pc s = .ok (pc',t)) :
    t.play.startBehaviorNow = s.play.startBehaviorNow ∧
      t.play.behaviors = s.play.behaviors ∧ t.play.lastBehaviorId = s.play.lastBehaviorId := by
  cases pc with
  | close | clear | closeAgain | clearAgain => simp at hpc
  | init =>
    obtain ⟨u,hu,h⟩ := bind_ok.mp h
    cases h
    obtain ⟨m,-,hu⟩ := bind_ok.mp hu
    cases hu
    exact ⟨rfl,rfl,rfl⟩
  | trainColor i l now =>
    obtain ⟨-,-,_,_,_,-,-,-,rfl⟩ | ⟨-,-,rfl⟩ := colour_loop_cases h paintEntry_painted
    · exact ⟨rfl,rfl,rfl⟩
    · exact ⟨rfl,rfl,rfl⟩
  | alarmColor i l =>
    obtain ⟨-,-,_,_,_,-,-,-,rfl⟩ | ⟨-,-,rfl⟩ := colour_loop_cases h paintEntry_painted
    · exact ⟨rfl,rfl,rfl⟩
    · exact ⟨rfl,rfl,rfl⟩
  | partyColor l =>
    obtain ⟨-,-,_,_,_,-,-,-,rfl⟩ | ⟨-,-,rfl⟩ := colour_loop_cases h paintRandom_painted
    · exact ⟨rfl,rfl,rfl⟩
    · exact ⟨rfl,rfl,rfl⟩
  | _ => cases h; exact ⟨rfl,rfl,rfl⟩

/-- Only STOP and the closing statements lower a flag. -/
theorem standing_step (hp : OnPage s) (h : Standing s) (hstop : ¬Stops s m) (hclose : ¬Closes s m)
    (hs : pressStep s m = .ok t) : Standing t := by
  obtain ⟨m,hm⟩ := m
  cases m with
  | visit now v | select now lightId isSelected a | refresh => exact hm.elim
  | start =>
    cases hs
    split
    · rw [startTouched]
      split
      · exact h
      · exact h
    · exact h
  | stop now =>
    cases hs
    split
    · rename_i hi
      exact absurd hi hstop
    · exact h
  | touch w =>
    cases hs
    obtain ⟨shared,touch,firebase,behavior⟩ := s
    obtain rfl | rfl | rfl : touch = .idle ∨ touch = .startPush shared.play.lastBehaviorId ∨
        touch = .startArm shared.play.lastBehaviorId := hp
    · exact h
    · exact h
    · exact ⟨rfl,(active_arm _ _ _).mpr (.inl rfl)⟩
  | firebase => cases hs; exact h
  | behavior o =>
    obtain ⟨⟨pc,u⟩,hb,hs⟩ := bind_ok.mp hs
    cases hs
    obtain ⟨hst,hbe,hl⟩ := behavior_step_start hclose hb
    refine ⟨hst.trans h.1,?_⟩
    show Active u.play u.play.lastBehaviorId
    rw [Active, hbe, hl]
    exact h.2

theorem armed_standing (hp : OnPage s) (ha : Arms s m) (hs : pressStep s m = .ok t) :
    Standing t ∧ t.behavior = s.behavior := by
  obtain ⟨m,hm⟩ := m
  cases m with
  | touch w =>
    cases hs
    obtain ⟨k,hk⟩ := ha
    obtain ⟨shared,touch,firebase,behavior⟩ := s
    obtain rfl | rfl | rfl : touch = .idle ∨ touch = .startPush shared.play.lastBehaviorId ∨
        touch = .startArm shared.play.lastBehaviorId := hp
    · cases hk
    · cases hk
    · exact ⟨⟨rfl,(active_arm _ _ _).mpr (.inl rfl)⟩,rfl⟩
  | visit now v | select now lightId isSelected a | refresh => exact hm.elim
  | start | stop now | firebase | behavior o => exact ha.elim

theorem closed_standing (hc : Closes s m) (hs : pressStep s m = .ok t) :
    ¬Standing t := by
  obtain ⟨m,hm⟩ := m
  cases m with
  | behavior o =>
    obtain ⟨⟨pc,u⟩,hb,hs⟩ := bind_ok.mp hs
    cases hs
    have hc : s.behavior ∈ [BehaviorPc.close,.clear,.closeAgain,.clearAgain] := hc
    have hoff : ¬Active (toggleOff o.clock s.shared.play.lastBehaviorId s.shared).play
        s.shared.play.lastBehaviorId := by simp [active_toggleOff]
    simp only [List.mem_cons, List.not_mem_nil, or_false] at hc
    obtain he | he | he | he := hc
    · rw [he] at hb
      cases hb
      rintro ⟨-,ha⟩
      rw [toggleOff_last] at ha
      exact hoff ha
    · rw [he] at hb
      cases hb
      rintro ⟨hst,-⟩
      cases hst
    · rw [he] at hb
      cases hb
      rintro ⟨-,ha⟩
      rw [toggleOff_last] at ha
      exact hoff ha
    · rw [he] at hb
      cases hb
      rintro ⟨hst,-⟩
      cases hst
  | visit now v | select now lightId isSelected a | refresh => exact hm.elim
  | start | stop now | firebase | touch w => exact hc.elim

theorem closes_ok (hc : Closes s m) : ∃ t, pressStep s m = .ok t := by
  obtain ⟨m,hm⟩ := m
  cases m with
  | behavior o =>
    have hc : s.behavior ∈ [BehaviorPc.close,.clear,.closeAgain,.clearAgain] := hc
    simp only [List.mem_cons, List.not_mem_nil, or_false] at hc
    obtain he | he | he | he := hc <;>
      exact ⟨_,by simp only [pressStep, step, he, behaviorStep]; rfl⟩
  | visit now v | select now lightId isSelected a | refresh => exact hm.elim
  | start | stop now | firebase | touch w => exact hc.elim

theorem stays_step (hn : ¬At [s.behavior] s m) (hs : pressStep s m = .ok t) :
    t.behavior = s.behavior := by
  obtain ⟨m,hm⟩ := m
  cases m with
  | visit now v | select now lightId isSelected a | refresh => exact hm.elim
  | start =>
    cases hs
    split
    · rw [startTouched]
      split <;> rfl
    · rfl
  | stop now => cases hs; split <;> rfl
  | touch w | firebase => cases hs; rfl
  | behavior o => exact absurd List.mem_cons_self hn

theorem init_step (ha : At [.init] s m) (hs : pressStep s m = .ok t) : t.behavior = .connect := by
  obtain ⟨m,hm⟩ := m
  cases m with
  | visit now v | select now lightId isSelected a | refresh => exact hm.elim
  | start | stop now | firebase | touch w => exact ha.elim
  | behavior o =>
    obtain ⟨⟨pc,u⟩,hb,hs⟩ := bind_ok.mp hs
    cases hs
    rw [List.mem_singleton.mp ha] at hb
    obtain ⟨v,-,hb⟩ := bind_ok.mp hb
    cases hb
    rfl

theorem prompt_step (hl : s.behavior = .loop) (h : Standing s) (hs : pressStep s m = .ok t) :
    t.behavior = .loop ∨ t.behavior = .init := by
  by_cases hn : At [s.behavior] s m
  · obtain ⟨m,hm⟩ := m
    cases m with
    | visit now v | select now lightId isSelected a | refresh => exact hm.elim
    | start | stop now | firebase | touch w => exact hn.elim
    | behavior o =>
      obtain ⟨⟨pc,u⟩,hb,hs⟩ := bind_ok.mp hs
      cases hs
      rw [hl] at hb
      cases hb
      exact .inr (if_pos h.1)
  · exact .inl ((stays_step hn hs).trans hl)

theorem late_step (hl : s.behavior ∉ [.loop,.init]) (hc : ¬Closes s m)
    (hs : pressStep s m = .ok t) : t.behavior ∉ [.loop,.init] := by
  by_cases hn : At [s.behavior] s m
  · obtain ⟨m,hm⟩ := m
    cases m with
    | visit now v | select now lightId isSelected a | refresh => exact hm.elim
    | start | stop now | firebase | touch w => exact hn.elim
    | behavior o =>
      obtain ⟨⟨pc,u⟩,hb,hs⟩ := bind_ok.mp hs
      cases hs
      have hloop : s.behavior ≠ .loop := by rintro he; simp [he] at hl
      have hpc : s.behavior ∉ [.close,.clear,.closeAgain,.clearAgain] := hc
      intro hm
      obtain he | he : pc = .loop ∨ pc = .init := by simpa using hm
      · obtain hb | hb | ⟨hb,-⟩ := behavior_step_end hb (.inl he)
        · simp [hb] at hpc
        · simp [hb] at hpc
        · exact hloop hb
      · exact hloop (init_from_loop hb he)
  · rw [stays_step hn hs]
    exact hl

end Steps

theorem awaits_standing {opened : Bool} {s : System} {ms : List Press} (h : Awaits opened s ms) :
    Standing s := by
  cases ms with
  | nil => exact h
  | cons m ms => exact h.1

theorem opened_awaits {s : System} {ms : List Press} (hp : OnPage s) (h : Standing s)
    (hb : s.behavior = .connect) : Awaits true s ms := by
  induction ms generalizing s with
  | nil => exact h
  | cons m ms ih =>
    refine ⟨h,?_⟩
    by_cases hstop : Stops s m
    · exact .inl hstop
    by_cases hc : At [.connect] s m
    · exact .inr (.inl ⟨rfl,hc⟩)
    have hstay : ¬At [s.behavior] s m := by rw [hb]; exact hc
    have hclose : ¬Closes s m := fun hc => by simpa [hb] using at_behavior hc
    have hinit : ¬At [.init] s m := fun hi => by simpa [hb] using at_behavior hi
    refine .inr (.inr (.inr ⟨hinit,?_⟩))
    cases hs : pressStep s m with
    | error e => trivial
    | ok t =>
      exact ih (onPage_step hp hs) (standing_step hp h hstop hclose hs)
        ((stays_step hstay hs).trans hb)

theorem prompt_awaits {s : System} {ms : List Press} (hp : OnPage s) (h : Standing s)
    (hb : s.behavior = .loop ∨ s.behavior = .init) : Awaits false s ms := by
  induction ms generalizing s with
  | nil => exact h
  | cons m ms ih =>
    refine ⟨h,?_⟩
    by_cases hstop : Stops s m
    · exact .inl hstop
    have hclose : ¬Closes s m := fun hc => by
      have hm := at_behavior hc
      obtain hl | hl := hb <;> simp [hl] at hm
    by_cases hi : At [.init] s m
    · refine .inr (.inr (.inl ⟨hi,?_⟩))
      cases hs : pressStep s m with
      | error e => trivial
      | ok t =>
        exact opened_awaits (onPage_step hp hs) (standing_step hp h hstop hclose hs)
          (init_step hi hs)
    · refine .inr (.inr (.inr ⟨hi,?_⟩))
      cases hs : pressStep s m with
      | error e => trivial
      | ok t =>
        refine ih (onPage_step hp hs) (standing_step hp h hstop hclose hs) ?_
        obtain hl | hl := hb
        · exact prompt_step hl h hs
        · refine .inr ((stays_step ?_ hs).trans hl)
          rw [hl]
          exact hi

theorem late_awaits {s : System} {ms : List Press} (hp : OnPage s) (h : Standing s)
    (hb : s.behavior ∉ [.loop,.init]) :
    Awaits false s ms ↔ Unless pressStep Closes Stops s ms := by
  induction ms generalizing s with
  | nil => exact iff_of_true h trivial
  | cons m ms ih =>
    have hinit : ¬At [.init] s m := fun hi => hb (by simp [List.mem_singleton.mp (at_behavior hi)])
    simp only [Awaits, Unless, h, hinit, Bool.false_eq_true, false_and, true_and, false_or,
      not_false_eq_true]
    by_cases hstop : Stops s m
    · exact iff_of_true (.inl hstop) (.inl hstop)
    refine or_congr_right ?_
    by_cases hclose : Closes s m
    · obtain ⟨t,hs⟩ := closes_ok hclose
      rw [hs]
      exact iff_of_false (fun ha => closed_standing hclose hs (awaits_standing ha))
        (fun hn => hn.1 hclose)
    · rw [and_iff_right hclose]
      cases hs : pressStep s m with
      | error e => exact Iff.rfl
      | ok t =>
        exact ih (onPage_step hp hs) (standing_step hp h hstop hclose hs) (late_step hb hclose hs)

/-- Every START stands until it is served or taken back exactly where STOP
follows each START that comes during a run before that run is closed. -/
theorem starts_heard_iff (shared : Shared) (firebase : TaskPc) (behavior : BehaviorPc)
    (ms : List Press) :
    Whenever pressStep Arms (Awaits false)
      { shared := shared, firebase := firebase, behavior := behavior } ms ↔
    Whenever pressStep ArmsLate (Unless pressStep Closes Stops)
      { shared := shared, firebase := firebase, behavior := behavior } ms := by
  refine whenever_iff (I := OnPage) (fun s m t hp hs => onPage_step hp hs)
    (fun s m t ms hp hs => ?_) (.inl rfl) ms
  have ht := onPage_step hp hs
  by_cases ha : Arms s m
  · obtain ⟨hst,hb⟩ := armed_standing hp ha hs
    by_cases hl : s.behavior ∈ [.loop,.init]
    · have hprompt : Awaits false t ms := prompt_awaits ht hst (by rw [hb]; simpa using hl)
      exact iff_of_true (fun _ => hprompt) (fun h => absurd hl h.2)
    · rw [imp_iff_right ha, imp_iff_right ⟨ha,hl⟩]
      exact late_awaits ht hst (by rw [hb]; exact hl)
  · exact iff_of_true (fun h => absurd h ha) (fun h => absurd h.1 ha)

def press (m : Move) (h : Presses m) : Press := ⟨m,h⟩

def startTouches : List Press := [press .start trivial,press (.touch {}) trivial]

def behaviorSteps (n : ℕ) : List Press := List.replicate n (press (.behavior {}) trivial)

def partyPage : Shared :=
  setBehavior 2 { createTransitionBehavior {} {} with lightCounter := 1 }
    { play := openBehavior 2 (initBehaviors {} {}) }

def restarted : List Press :=
  startTouches ++ [press (.touch {}) trivial] ++ behaviorSteps 9 ++
    [press (.stop 9000) trivial] ++ startTouches

theorem restarted_party_silent : ¬Whenever pressStep Arms (Awaits false) { shared := partyPage }
    (restarted ++ press (.touch {}) trivial :: behaviorSteps 3) := by
  intro h
  have hr := ok_getD (x := run pressStep { shared := partyPage } restarted) {}
    (by decide +kernel)
  have ha := whenever_at h hr (m := press (.touch {}) trivial) ⟨2,by decide +kernel⟩ rfl
  revert ha
  decide +kernel

end THue.StartRequests
