import THue.CountEdits

/-!
# The counts that the edit pages show

Both edit pages draw the training's setting when they are opened; a press draws
the setting of its own page. What a behavior plays is the count that the last
task or refresh stored in it, a byte.
-/

set_option autoImplicit false

namespace THue.ShownCounts
open THue.Globals THue.Entertainment THue.BehaviorTask THue.BehaviorSettings THue.CountEdits
open THue.FaultRun

/-- The edit page on screen with the count drawn on it. -/
structure Edit where
  play : Play := {}
  page : Option Count := none
  shown : ℤ := 0

def changeBehaviorForTraining (s : Edit) : Edit where
  play := openBehavior 0 s.play
  page := some .training
  shown := s.play.blinkingLightsEntries

def changeBehaviorForAlarm (s : Edit) : Edit where
  play := openBehavior 1 s.play
  page := some .alarm
  shown := s.play.blinkingLightsEntries

def opens : Count → Edit → Edit
  | .training => changeBehaviorForTraining
  | .alarm => changeBehaviorForAlarm

def openAll (opened : List Count) (s : Edit) : Edit := opened.foldl (fun s c => opens c s) s

def touchCount (e : Setting) (c : Count) (s : Edit) : Edit :=
  { s with play := press e s.play, shown := c.setting (press e s.play) }

/-- A press with its task, which chooses a behavior after the pages `before` and
is done after the pages `after`. -/
def pressCount (e : Setting) (c : Count) (before after : List Count) (s : Edit) : Edit :=
  let chosen := openAll before (touchCount e c s)
  let last := openAll after chosen
  { last with play := (branch chosen.play.lastBehavior).elim last.play (·.exec last.play) }

/-- Any other page may make a behavior the last one opened; a refresh ends on the home page. -/
inductive Move where
  | open (c : Count)
  | leave (v : Visit)
  | press (e : Setting) (before after : List Count)
  | refresh (unset : Behavior)

def follow (s : Edit) : Move → Except Fault Edit
  | .open c => .ok (opens c s)
  | .leave v =>
      .ok { s with play := v.opens.elim s.play (openBehavior · s.play), page := none }
  | .press e before after =>
      .ok (match edits e with
        | some c => if s.page = some c then pressCount e c before after s else s
        | none => { s with play := press e s.play })
  | .refresh unset => .ok { s with play := initBehaviors unset s.play, page := none }

structure Playing where
  pc : BehaviorPc := .dispatch
  shared : Shared := {}
  played : List RGBCommand := []

def begun (b : Behavior) : BehaviorPc → List RGBCommand
  | .train i | .alarm i =>
      if i < b.entriesCount.toNat then (List.ofFn b.entries)[i]?.toList else []
  | _ => []

def playStep (s : Playing) (o : Oracle) : Except Fault Playing :=
  if s.pc = .close then .ok s
  else do
    let (pc,shared) ← behaviorStep o s.pc s.shared
    pure { pc := pc, shared := shared, played := s.played ++ begun (running s.shared) s.pc }

def Plays (b : Behavior) (colours : List RGBCommand) : Prop :=
  ∀ s os t, running s = b → run playStep { shared := s } os = .ok t → t.pc = .close →
    t.played = colours

def colour (i : ℕ) : RGBCommand := if i % 2 = 0 then red else warm

def alternating (n : ℕ) : List RGBCommand := (List.range n).map colour

def Alternates (b : Behavior) : Prop :=
  ∀ i : Fin 500, i.val < b.entriesCount.toNat → b.entries i = colour i.val

def stored (p : Play) (c : Count) : UInt8 := (p.behaviors c.behavior).entriesCount

/-- The page on screen shows the count of its behavior, which is what is played. -/
structure Honest (s : Edit) : Prop where
  shown : ∀ c ∈ s.page, s.shown = (stored s.play c).toNat
  entries : ∀ c : Count, Alternates (s.play.behaviors c.behavior)
  plays : ∀ c, Plays (s.play.behaviors c.behavior) (alternating (stored s.play c).toNat)

/-- The page on screen after `opened`, when it was that of `c` before. -/
def lastPage (c : Count) (opened : List Count) : Count := opened.getLast?.getD c

def drawn (p : Play) (c : Count) (opened : List Count) : ℤ :=
  if opened = [] then c.setting p else p.blinkingLightsEntries

/-- A page is opened while the count of its behavior is the training's setting.
After a press the number drawn last is the count on whose page it stands: as a
byte, its setting if the task recomputes it, and what was stored if not. -/
def Fair (s : Edit) : Move → Prop
  | .open c => s.play.blinkingLightsEntries = (stored s.play c).toNat
  | .press e before after => ∀ c ∈ edits e, s.page = some c →
      drawn (press e s.play) c (before++after) =
        (if lastPage c before = lastPage c (before++after) then
          toUInt8 ((lastPage c before).setting (press e s.play))
        else stored s.play (lastPage c (before++after))).toNat
  | .leave _ | .refresh _ => True

instance fair_decidable (s : Edit) : ∀ m, Decidable (Fair s m)
  | .open _ => inferInstanceAs (Decidable (_ = _))
  | .press e _ _ => inferInstanceAs (Decidable (∀ c ∈ edits e, s.page = some c → _ = _))
  | .leave _ | .refresh _ => isTrue trivial

section Plays
variable {o : Oracle} {pc pc' : BehaviorPc} {s t : Shared} {b : Behavior}

theorem running_kept (h : behaviorStep o pc s = .ok (pc',t))
    (hpc : pc ≠ .close ∧ pc ≠ .closeAgain ∧ pc ≠ .init) : running t = running s := by
  obtain ⟨hc | hc,-⟩ | ⟨l,-,-,-,_,_,-,-,-,rfl⟩ | ⟨hi,-⟩ | hp := behavior_step_cases h
  · exact absurd hc hpc.1
  · exact absurd hc hpc.2.1
  · rfl
  · exact absurd hi hpc.2.2
  · rw [running, running, hp.behaviors, hp.last]

def Stage (b : Behavior) (played : List RGBCommand) : BehaviorPc → Prop
  | .dispatch | .alarmWait _ | .alarmResend _ => played = []
  | .train i | .alarm i =>
      i ≤ b.entriesCount.toNat ∧ played = (List.ofFn b.entries).take i
  | .trainColor i .. | .trainUpdate i _ | .trainWait i _ | .trainResend i _ | .alarmColor i _
  | .alarmUpdate i =>
      i < b.entriesCount.toNat ∧ played = (List.ofFn b.entries).take (i+1)
  | .close => played = (List.ofFn b.entries).take b.entriesCount.toNat
  | _ => False

def Entered (b : Behavior) (s : Playing) : Prop := running s.shared = b ∧ Stage b s.played s.pc

theorem stage_loop {i : ℕ} {into : BehaviorPc} {played : List RGBCommand}
    (hi : i ≤ b.entriesCount.toNat ∧ played = (List.ofFn b.entries).take i)
    (hinto : i < b.entriesCount.toNat ∧ played ++ (List.ofFn b.entries)[i]?.toList =
      (List.ofFn b.entries).take (i+1) →
      Stage b (played ++ (List.ofFn b.entries)[i]?.toList) into) :
    Stage b (played ++ if i < b.entriesCount.toNat then (List.ofFn b.entries)[i]?.toList else [])
      (if i < b.entriesCount.toNat then into else .close) := by
  obtain ⟨hle,rfl⟩ := hi
  by_cases hlt : i < b.entriesCount.toNat
  · rw [if_pos hlt, if_pos hlt]
    exact hinto ⟨hlt,List.take_add_one.symm⟩
  · obtain rfl : i = b.entriesCount.toNat := by omega
    rw [if_neg hlt, if_neg hlt, List.append_nil]
    rfl

theorem stage_step {played : List RGBCommand} (hb : running s = b)
    (hid : b.behaviorId = repeatedBehavior ∨ b.behaviorId = timeBehavior)
    (hs : Stage b played pc) (hpc : pc ≠ .close) (h : behaviorStep o pc s = .ok (pc',t)) :
    Stage b (played ++ begun b pc) pc' := by
  subst hb
  cases pc with
  | dispatch =>
    obtain rfl : played = [] := hs
    cases h
    obtain hid | hid := hid
    · rw [if_pos hid]
      exact ⟨Nat.zero_le _,rfl⟩
    · rw [if_neg (by rw [hid]; decide), if_pos hid]
      rfl
  | train i =>
    cases h
    exact stage_loop hs id
  | alarm i =>
    cases h
    exact stage_loop hs id
  | trainColor i l now =>
    change Stage (running s) (played ++ []) pc'
    rw [List.append_nil]
    obtain ⟨-,rfl,-⟩ | ⟨-,rfl,-⟩ := colour_loop_cases h paintEntry_painted
    · exact hs
    · exact hs
  | alarmColor i l =>
    change Stage (running s) (played ++ []) pc'
    rw [List.append_nil]
    obtain ⟨-,rfl,-⟩ | ⟨-,rfl,-⟩ := colour_loop_cases h paintEntry_painted
    · exact hs
    · exact hs
  | trainUpdate i now | trainResend i now | alarmResend now | alarmUpdate i =>
    change Stage (running s) (played ++ []) pc'
    rw [List.append_nil]
    cases h
    exact hs
  | trainWait i now =>
    change Stage (running s) (played ++ []) pc'
    rw [List.append_nil]
    cases h
    split
    · exact hs
    · exact hs
  | alarmWait now =>
    change Stage (running s) (played ++ []) pc'
    rw [List.append_nil]
    cases h
    split
    · exact hs
    · exact ⟨Nat.zero_le _,hs⟩
  | close => exact absurd rfl hpc
  | _ => exact hs.elim

theorem playStep_entered {u v : Playing}
    (hid : b.behaviorId = repeatedBehavior ∨ b.behaviorId = timeBehavior) (hu : Entered b u)
    (h : playStep u o = .ok v) : Entered b v := by
  rw [playStep] at h
  split at h
  · cases h
    exact hu
  · next hpc =>
    obtain ⟨⟨pc,t⟩,hstep,h⟩ := bind_ok.mp h
    cases h
    obtain ⟨hb,hs⟩ := hu
    have hbegun : ∀ played, Stage b played u.pc → u.pc ≠ .closeAgain ∧ u.pc ≠ .init := by
      intro played hstage
      refine ⟨?_,?_⟩
      · intro hc
        rw [hc] at hstage
        exact hstage
      · intro hc
        rw [hc] at hstage
        exact hstage
    refine ⟨(running_kept hstep ⟨hpc,hbegun _ hs⟩).trans hb,?_⟩
    rw [hb]
    exact stage_step hb hid hs hpc hstep

theorem plays_taken (hid : b.behaviorId = repeatedBehavior ∨ b.behaviorId = timeBehavior) :
    Plays b ((List.ofFn b.entries).take b.entriesCount.toNat) := by
  intro s os t hb hrun hclose
  have hmeets : Meets playStep (fun _ _ => True) { shared := s } os :=
    meets_moves fun _ _ => trivial
  have hstart : Entered b { shared := s } := ⟨hb,rfl⟩
  have hentered : Entered b t := invariant_run
    (fun u o v hu _ h => playStep_entered hid hu h) hstart hmeets hrun
  have hstage := hentered.2
  rw [hclose] at hstage
  exact hstage

theorem taken_alternating (h : Alternates b) :
    (List.ofFn b.entries).take b.entriesCount.toNat = alternating b.entriesCount.toNat := by
  have hbyte := b.entriesCount.toNat_lt
  refine List.ext_getElem ?_ fun i hi hi' => ?_
  · rw [List.length_take, List.length_ofFn, alternating, List.length_map, List.length_range]
    omega
  · rw [List.length_take, List.length_ofFn] at hi
    rw [List.getElem_take, List.getElem_ofFn, h ⟨i,by omega⟩ (by dsimp only; omega)]
    simp [alternating]

end Plays

section Edits
variable {s t : Edit} {p : Play} {c : Count} {e : Setting} {opened before after : List Count}

/-- No behavior is running, each count has its behavior, and the page on screen
is the last one opened. -/
structure Kept (s : Edit) : Prop where
  ids : ∀ c : Count, (s.play.behaviors c.behavior).behaviorId = c.behaviorId
  entries : ∀ c : Count, Alternates (s.play.behaviors c.behavior)
  last : ∀ c ∈ s.page, s.play.lastBehavior.behaviorId = c.behaviorId
  rests : ∀ k, (s.play.behaviors k).activated = false
  lastRests : s.play.lastBehavior.activated = false

theorem opens_eq (c : Count) (s : Edit) : opens c s = {
    play := openBehavior c.behavior s.play
    page := some c
    shown := s.play.blinkingLightsEntries } := by
  cases c <;> rfl

theorem opens_kept (c : Count) (hs : Kept s) : Kept (opens c s) := by
  rw [opens_eq]
  refine ⟨hs.ids,hs.entries,?_,hs.rests,hs.rests _⟩
  rintro _ ⟨⟩
  exact hs.ids c

/-- What a list of pages leaves behind the page of `c`. -/
structure Opened (c : Count) (opened : List Count) (s t : Edit) : Prop where
  play : ∃ k, t.play = { s.play with lastBehavior := t.play.lastBehavior, lastBehaviorId := k }
  page : t.page = some (lastPage c opened)
  shown : t.shown = if opened = [] then s.shown else s.play.blinkingLightsEntries
  last : t.play.lastBehavior.behaviorId = (lastPage c opened).behaviorId
  lastRests : t.play.lastBehavior.activated = false

theorem openAll_opened (hs : Kept s) (hc : s.page = some c) :
    Opened c opened s (openAll opened s) := by
  induction opened generalizing s c with
  | nil => exact ⟨⟨_,rfl⟩,hc,rfl,hs.last c hc,hs.lastRests⟩
  | cons d opened ih =>
    have hopened := opens_kept d hs
    have hlastPage : lastPage c (d::opened) = lastPage d opened := by
      rw [lastPage, lastPage, List.getLast?_cons]
      rfl
    rw [show openAll (d::opened) s = openAll opened (opens d s) from rfl]
    rw [opens_eq] at hopened ⊢
    obtain ⟨⟨k,hplay⟩,hpage,hshown,hlast,hrests⟩ := ih hopened (c := d) rfl
    rw [← hlastPage] at hpage hlast
    refine ⟨⟨k,hplay⟩,hpage,?_,hlast,hrests⟩
    rw [if_neg (List.cons_ne_nil _ _), hshown]
    split <;> rfl

theorem opened_kept (hs : Kept s) (h : Opened c opened s t) : Kept t := by
  obtain ⟨k,hplay⟩ := h.play
  refine ⟨?_,?_,?_,?_,h.lastRests⟩
  · rw [hplay]
    exact hs.ids
  · rw [hplay]
    exact hs.entries
  · intro d hd
    obtain rfl : lastPage c opened = d := Option.some.inj (h.page.symm.trans hd)
    exact h.last
  · rw [hplay]
    exact hs.rests

theorem press_count (he : edits e = some c) (p : Play) :
    ∃ m n, press e p = { p with blinkingLightsEntries := m, alarmEntries := n } := by
  cases e with
  | incrementBlinkingLightsCount | incrementAlarmFlashCount => exact ⟨_,_,rfl⟩
  | decrementBlinkingLightsCount =>
    obtain ⟨n,hn⟩ := decrementBlinkingLightsCount_with p
    exact ⟨n,_,hn⟩
  | decrementAlarmFlashCount =>
    obtain ⟨n,hn⟩ := decrementAlarmFlashCount_with p
    exact ⟨_,n,hn⟩
  | _ => cases he

theorem press_kept (e : Setting) (hs : Kept s) {shown : ℤ} :
    Kept { s with play := press e s.play, shown := shown } := by
  obtain ⟨-,-,hbehaviors⟩ := press_keeps e s.play
  have hlast : (press e s.play).lastBehavior = s.play.lastBehavior := by
    cases e with
    | decrementBlinkingLightsCount =>
      obtain ⟨n,hn⟩ := decrementBlinkingLightsCount_with s.play
      rw [press, hn]
    | decrementAlarmFlashCount =>
      obtain ⟨n,hn⟩ := decrementAlarmFlashCount_with s.play
      rw [press, hn]
    | _ => rfl
  refine ⟨fun c => ?_,fun c => ?_,fun c hc => ?_,fun k => ?_,?_⟩
  · obtain ⟨d,hd⟩ := hbehaviors c.behavior
    rw [hd]
    exact hs.ids c
  · obtain ⟨d,hd⟩ := hbehaviors c.behavior
    rw [hd]
    exact hs.entries c
  · rw [hlast]
    exact hs.last c hc
  · obtain ⟨d,hd⟩ := hbehaviors k
    rw [hd]
    exact hs.rests k
  · rw [hlast]
    exact hs.lastRests

def recomputed (n : ℤ) (b : Behavior) : Behavior :=
  { b with entriesCount := toUInt8 n, entries := alternate (toUInt8 n) b.entries }

theorem recomputed_alternates (n : ℤ) (b : Behavior) : Alternates (recomputed n b) :=
  fun _ hi => if_pos hi

theorem exec_eq (c : Count) (p : Play) : c.branch.exec p =
    putBehavior c.behavior (recomputed (c.setting p) (p.behaviors c.behavior)) p := by
  have hput : ∀ k n, updateEntries k (setEntriesCount k n p) =
      putBehavior k (recomputed n (p.behaviors k)) p := by
    intro k n
    simp [updateEntries, setEntriesCount, putBehavior, recomputed]
  cases c with
  | training => exact hput 0 _
  | alarm => exact hput 1 _

theorem count_behavior {c d : Count} (h : d ≠ c) : d.behavior ≠ c.behavior := by
  cases c <;> cases d <;> first | exact absurd rfl h | decide

theorem exec_stored (c d : Count) (p : Play) : stored (c.branch.exec p) d =
    if c = d then toUInt8 (c.setting p) else stored p d := by
  rw [exec_eq]
  by_cases h : c = d
  · subst h
    simp [stored, putBehavior, recomputed]
  · simp [stored, putBehavior, h, count_behavior (Ne.symm h)]

theorem exec_kept (c : Count) (hs : Kept s) : Kept { s with play := c.branch.exec s.play } := by
  rw [exec_eq]
  let t := putBehavior c.behavior
    (recomputed (c.setting s.play) (s.play.behaviors c.behavior)) s.play
  have hput : ∀ k, t.behaviors k = recomputed (c.setting s.play) (s.play.behaviors k) ∨
      t.behaviors k = s.play.behaviors k := by
    intro k
    by_cases hk : k = c.behavior
    · subst hk
      exact .inl (Function.update_self ..)
    · exact .inr (Function.update_of_ne hk ..)
  refine ⟨fun d => ?_,fun d => ?_,hs.last,fun k => ?_,hs.lastRests⟩
  · obtain h | h := hput d.behavior
    · exact (congrArg Behavior.behaviorId h).trans (hs.ids d)
    · exact (congrArg Behavior.behaviorId h).trans (hs.ids d)
  · obtain h | h := hput d.behavior
    · exact h ▸ recomputed_alternates _ _
    · exact h ▸ hs.entries d
  · obtain h | h := hput k
    · exact (congrArg Behavior.activated h).trans (hs.rests k)
    · exact (congrArg Behavior.activated h).trans (hs.rests k)

structure Pressed (e : Setting) (c : Count) (before after : List Count) (s t : Edit) : Prop where
  kept : Kept t
  page : t.page = some (lastPage c (before++after))
  shown : t.shown = drawn (press e s.play) c (before++after)
  stored : ∀ d, stored t.play d = if lastPage c before = d then
    toUInt8 ((lastPage c before).setting (press e s.play)) else ShownCounts.stored s.play d

theorem pressCount_pressed (hs : Kept s) (hc : s.page = some c) (he : edits e = some c) :
    Pressed e c before after s (pressCount e c before after s) := by
  have htouch : Kept (touchCount e c s) := press_kept e hs
  have hchosen : Opened c before (touchCount e c s) (openAll before (touchCount e c s)) :=
    openAll_opened htouch hc
  have hlast : Opened c (before++after) (touchCount e c s)
      (openAll (before++after) (touchCount e c s)) := openAll_opened htouch hc
  rw [openAll, List.foldl_append] at hlast
  have hbranch := branch_of_id hchosen.last
  have hresult : pressCount e c before after s =
      { openAll after (openAll before (touchCount e c s)) with
        play := (lastPage c before).branch.exec
          (openAll after (openAll before (touchCount e c s))).play } := by
    rw [pressCount, hbranch]
    rfl
  obtain ⟨k,hplay⟩ := hlast.play
  obtain ⟨m,n,hpress⟩ := press_count he s.play
  rw [hresult]
  refine ⟨exec_kept _ (opened_kept htouch hlast),hlast.page,?_,fun d => ?_⟩
  · refine hlast.shown.trans ?_
    rw [drawn]
    split <;> rfl
  · rw [exec_stored]
    have hsetting : (lastPage c before).setting (openAll after (openAll before
        (touchCount e c s))).play = (lastPage c before).setting (press e s.play) := by
      rw [show (openAll after (openAll before (touchCount e c s))).play = _ from hplay]
      cases lastPage c before <;> rfl
    have hstored : stored (openAll after (openAll before (touchCount e c s))).play d =
        stored s.play d := by
      rw [show (openAll after (openAll before (touchCount e c s))).play = _ from hplay]
      show stored (press e s.play) d = _
      rw [hpress]
      rfl
    rw [hsetting, hstored]

structure Stands (id : ℕ) (pc : CountEdits.TaskPc) (p : Play) (u : Updaters) : Prop where
  tasks : u.tasks = [{ id := id, pc := pc }]
  handle : u.taskHandlerbehaviorUpdater = some id
  touch : u.system.touch = .idle
  play : u.system.shared.play = p

variable {u : Updaters} {id : ℕ} {pc : CountEdits.TaskPc}

def visited (now : UInt32) (a : Option Firebase.Action) (c : Count) : CountEdits.Move :=
  .other (.visit now { opens := some c.behavior, action := a })

theorem stands_visits (now : UInt32) (a : Option Firebase.Action) (h : Stands id pc s.play u) :
    Ends (run CountEdits.step u (opened.map (visited now a)))
      (Stands id pc (openAll opened s).play) (fun _ => False) := by
  induction opened generalizing s u with
  | nil => exact h
  | cons c opened ih =>
    rw [show openAll (c::opened) s = openAll opened (opens c s) from rfl]
    refine ih (s := opens c s) ⟨h.tasks,h.handle,?_,?_⟩
    · simp [h.touch]
    · simp [h.touch, h.play, opens_eq, Visit.exec]

theorem stands_updater (h : Stands id pc p u) :
    CountEdits.step u (.updater id) = .ok (updateBehaviors id u pc) := by
  simp [CountEdits.step, h.tasks]

theorem stands_setPc (h : Stands id pc p u) (pc' : CountEdits.TaskPc) :
    Stands id pc' p (setPc id pc' u) :=
  ⟨by simp [setPc, h.tasks],h.handle,h.touch,h.play⟩

theorem stands_chosen (h : Stands id .wait p u) (hr : p.lastBehavior.activated = false)
    (hc : p.lastBehavior.behaviorId = c.behaviorId) :
    Ends (run CountEdits.step u [.updater id,.updater id])
      (Stands id (.recompute c.branch) p) (fun _ => False) := by
  have hwait : updateBehaviors id u .wait = setPc id .choose u := by
    rw [updateBehaviors, h.play, hr]
    rfl
  have hchoose : updateBehaviors id (setPc id .choose u) .choose =
      setPc id (.recompute c.branch) (setPc id .choose u) := by
    rw [updateBehaviors, (stands_setPc h .choose).play, branch_of_id hc]
    rfl
  rw [run, stands_updater h, hwait]
  show Ends (run CountEdits.step (setPc id .choose u) [.updater id]) _ _
  rw [run, stands_updater (stands_setPc h .choose), hchoose]
  exact stands_setPc (stands_setPc h .choose) _

theorem stands_done (h : Stands id (.recompute c.branch) p u) :
    Ends (run CountEdits.step u [.updater id,.updater id])
      (fun t => t.tasks = [] ∧ t.system.touch = .idle ∧
        t.system.shared.play = c.branch.exec p) (fun _ => False) := by
  have hexec : Stands id .delete (c.branch.exec p)
      (updateBehaviors id u (.recompute c.branch)) := by
    refine ⟨by simp [updateBehaviors, setPc, setPlay, h.tasks],h.handle,h.touch,?_⟩
    show c.branch.exec u.system.shared.play = _
    rw [h.play]
  rw [run, stands_updater h]
  show Ends (run CountEdits.step (updateBehaviors id u (.recompute c.branch)) [.updater id]) _ _
  rw [run, stands_updater hexec]
  refine ⟨?_,hexec.touch,hexec.play⟩
  show (vTaskDelete id _).tasks = []
  simp [vTaskDelete, setPc, hexec.tasks, hexec.handle]

/-- The press with its task is what the steps of the touch task and of the task give. -/
theorem press_refined (hs : Kept s) (hc : s.page = some c) (he : edits e = some c)
    (hu : u.tasks = []) (hi : u.system.touch = .idle) (hplay : u.system.shared.play = s.play)
    (now : UInt32) (a : Option Firebase.Action) :
    Ends (run CountEdits.step u (.press e :: (before.map (visited now a) ++
      ([.updater u.created,.updater u.created] ++ (after.map (visited now a) ++
        [.updater u.created,.updater u.created])))))
      (fun t => t.tasks = [] ∧ t.system.touch = .idle ∧
        t.system.shared.play = (pressCount e c before after s).play) (fun _ => False) := by
  have htouch : Kept (touchCount e c s) := press_kept e hs
  have hchosen : Opened c before (touchCount e c s) (openAll before (touchCount e c s)) :=
    openAll_opened htouch hc
  have hpress : Stands u.created .wait (touchCount e c s).play (touchSetting e u) := by
    rw [touchSetting, he]
    refine ⟨?_,rfl,hi,?_⟩
    · show u.tasks ++ _ = _
      rw [hu]
      rfl
    · show press e u.system.shared.play = _
      rw [hplay]
      rfl
  have hresult : (pressCount e c before after s).play = (lastPage c before).branch.exec
      (openAll after (openAll before (touchCount e c s))).play := by
    rw [pressCount, branch_of_id hchosen.last]
    rfl
  have hstart : CountEdits.step u (.press e) = .ok (touchSetting e u) := by
    rw [CountEdits.step, if_pos hi]
  rw [run, hstart, hresult]
  show Ends (run CountEdits.step (touchSetting e u) _) _ _
  rw [run_append]
  refine ends_bind (stands_visits now a hpress) fun v hv => ?_
  rw [run_append]
  refine ends_bind (stands_chosen hv hchosen.lastRests hchosen.last) fun w hw => ?_
  rw [run_append]
  exact ends_bind (stands_visits now a hw) fun x hx => stands_done hx

theorem kept_honest (hs : Kept s) (hshown : ∀ c ∈ s.page, s.shown = (stored s.play c).toNat) :
    Honest s := by
  refine ⟨hshown,hs.entries,fun c => ?_⟩
  have hid : (s.play.behaviors c.behavior).behaviorId = repeatedBehavior ∨
      (s.play.behaviors c.behavior).behaviorId = timeBehavior := by
    rw [hs.ids c]
    cases c
    · exact .inl rfl
    · exact .inr rfl
  rw [stored, ← taken_alternating (hs.entries c)]
  exact plays_taken hid

theorem pressCount_honest (hs : Kept s) (hc : s.page = some c) (he : edits e = some c) :
    Honest (pressCount e c before after s) ↔ Fair s (.press e before after) := by
  have hp : Pressed e c before after s (pressCount e c before after s) :=
    pressCount_pressed hs hc he
  have hfair : Fair s (.press e before after) ↔
      (pressCount e c before after s).shown =
        (stored (pressCount e c before after s).play (lastPage c (before++after))).toNat := by
    rw [hp.shown, hp.stored, Fair, he]
    simp [hc]
  rw [hfair]
  refine ⟨fun h => h.shown _ hp.page,fun h => kept_honest hp.kept fun d hd => ?_⟩
  obtain rfl : lastPage c (before++after) = d := Option.some.inj (hp.page.symm.trans hd)
  exact h

theorem initBehaviors_kept (unset : Behavior) (hs : ∀ k, (p.behaviors k).activated = false)
    (hlast : p.lastBehavior.activated = false) :
    Kept { play := initBehaviors unset p, page := none, shown := s.shown } := by
  refine ⟨fun c => ?_,fun c => ?_,by rintro _ ⟨⟩,fun k => ?_,hlast⟩
  · cases c <;> rfl
  · cases c
    · exact fun _ hi => if_pos hi
    · exact fun _ hi => if_pos hi
  · show (if k = 0 then createRepeatingBehavior unset p
      else if k = 1 then createTimebasedBehavior unset p
      else if k = 2 then createTransitionBehavior unset p else p.behaviors k).activated = false
    split
    · rfl
    split
    · rfl
    split
    · rfl
    · exact hs k

theorem follow_honest (hs : Kept s) (hh : Honest s) (m : Move) :
    Ends (follow s m) (fun t => Kept t ∧ (Honest t ↔ Fair s m)) (fun _ => False) := by
  cases m with
  | «open» c =>
    have hkept := opens_kept c hs
    rw [opens_eq] at hkept
    rw [follow, opens_eq]
    refine ⟨hkept,fun h => h.shown c rfl,fun h => kept_honest hkept ?_⟩
    rintro _ ⟨⟩
    exact h
  | leave v =>
    have hkept : Kept { s with play := v.opens.elim s.play (openBehavior · s.play)
                               page := none } := by
      cases v.opens with
      | none => exact ⟨hs.ids,hs.entries,(by rintro _ ⟨⟩),hs.rests,hs.lastRests⟩
      | some k => exact ⟨hs.ids,hs.entries,(by rintro _ ⟨⟩),hs.rests,hs.rests k⟩
    exact ⟨hkept,iff_of_true (kept_honest hkept (by rintro _ ⟨⟩)) trivial⟩
  | refresh unset =>
    have hkept := initBehaviors_kept (s := s) unset hs.rests hs.lastRests
    exact ⟨hkept,iff_of_true (kept_honest hkept (by rintro _ ⟨⟩)) trivial⟩
  | press e before after =>
    rw [follow]
    cases he : edits e with
    | none =>
      have hkept : Kept { s with play := press e s.play } := press_kept e hs
      refine ⟨hkept,iff_of_true (kept_honest hkept fun c hc => ?_) ?_⟩
      · have hstored : stored (press e s.play) c = stored s.play c := by
          obtain ⟨d,hd⟩ := (press_keeps e s.play).2.2 c.behavior
          rw [stored, hd]
          rfl
        exact (hh.shown c hc).trans (congrArg (fun b : UInt8 => (b.toNat : ℤ)) hstored.symm)
      · intro c hc
        rw [he] at hc
        cases hc
    | some c =>
      dsimp only
      by_cases hc : s.page = some c
      · rw [if_pos hc]
        exact ⟨(pressCount_pressed hs hc he).kept,pressCount_honest hs hc he⟩
      · rw [if_neg hc]
        refine ⟨hs,iff_of_true hh ?_⟩
        intro d hd hpage
        rw [he] at hd
        cases hd
        exact absurd hpage hc

end Edits

/-- The counts shown are those run exactly in the fair runs. -/
theorem honest_iff_fair (unset : Behavior) (ms : List Move) :
    Runs follow Honest (fun _ => True) { play := initBehaviors unset {} } ms ↔
      Meets follow Fair { play := initBehaviors unset {} } ms := by
  have hstart : Kept { play := initBehaviors unset {} } :=
    initBehaviors_kept (s := {}) unset (fun _ => rfl) rfl
  have hboot : Honest { play := initBehaviors unset {} } :=
    kept_honest hstart (by rintro _ ⟨⟩)
  exact runs_iff_meets_of_step (fun _ m hs hh => follow_honest hs hh m) hstart hboot ms

/-- While plus takes the training to 110, its page may be opened again. -/
example : Meets follow Fair { play := initBehaviors {} {} } [.open .training,
    .press .incrementBlinkingLightsCount [.training] [],.refresh {},.open .training] := by
  decide +kernel

/-- The alarm's page shows the training's 100 over a count of 10; the sixteenth plus
on the training's page shows 260 over a count of 4. -/
theorem alarm_shows_training :
    (¬∀ unset ms, Runs follow Honest (fun _ => True) { play := initBehaviors unset {} } ms) ∧
    ¬Runs follow Honest (fun _ => True) { play := initBehaviors {} {} }
      (.open .training :: List.replicate 16 (.press .incrementBlinkingLightsCount [] [])) := by
  refine ⟨fun hall => ?_,fun h => ?_⟩
  · have hrun := ok_getD (x := run follow { play := initBehaviors {} {} } [.open .alarm]) {}
      (by decide +kernel)
    have hshown := (runs_last (hall {} [.open .alarm]) hrun).shown .alarm (by decide +kernel)
    exact absurd hshown (by decide +kernel)
  · have hrun := ok_getD (x := run follow { play := initBehaviors {} {} }
      (.open .training :: List.replicate 16 (.press .incrementBlinkingLightsCount [] []))) {}
      (by decide +kernel)
    have hshown := (runs_last h hrun).shown .training (by decide +kernel)
    exact absurd hshown (by decide +kernel)

end THue.ShownCounts
