import THue.Firebase

/-!
# Delivery of logged actions

Any number of producer calls, the push of START and the consumer loop share
one set of fields. The channel is orderly as long as a call that is accepted
finds no action still waiting and does not raise the flag the consumer is
about to lower; then every accepted action is pushed once, as it was given.
-/

set_option autoImplicit false

namespace THue.LogDelivery
open THue.Firebase THue.FaultRun

/-- The globals, the consumer, and whether the push of a START is still due. -/
structure Channel where
  log : Log := {}
  task : TaskPc := .test .message
  direct : Bool := false

inductive Move where
  | append (now : UInt32) (a : Action)
  | start (interaction action context what : String)
  | startPush
  | consume

def step (s : Channel) : Move → Except Unit Channel
  | .append now a => .ok { s with log := firebaseAppendUserAction now a s.log }
  | .start i a c w =>
      if s.direct then .error ()
      else .ok { s with log := runTaskFields i a c w s.log, direct := true }
  | .startPush =>
      if s.direct then
        .ok { s with log := taskFireBaseAppendUserActionWithWhat s.log, direct := false }
      else .error ()
  | .consume =>
      .ok { s with task := (firebaseTask s.task s.log).1, log := (firebaseTask s.task s.log).2 }

/-- Nothing is under way: no flag, no push due, the consumer between tests. -/
def Quiet (s : Channel) : Prop :=
  s.direct = false ∧ (∀ k, flag s.log k = false) ∧ ∃ k, s.task = .test k

/-- Once nothing is under way, the pushed actions are the accepted ones. -/
def Delivered (s : Channel) : Prop := Quiet s → s.log.pushed.Perm s.log.accepted

def Unsent (s : Channel) (k : Kind) : Prop := flag s.log k = true ∧ s.task ≠ .reset k

def Free (s : Channel) : Prop := s.direct = false ∧ ∀ k, ¬Unsent s k

/-- No accepted call overtakes a waiting action or races the reset of its flag. -/
def Clear (s : Channel) : Move → Prop
  | .append now a => passes now s.log = true → Free s ∧ s.task ≠ .reset a.kind
  | .start .. => Free s
  | _ => True

structure Orderly (s : Channel) : Prop where
  pushing : ∀ k, s.task = .push k → flag s.log k = true
  single : ∀ j k, Unsent s j → Unsent s k → j = k
  alone : s.direct = true → ∀ k, ¬Unsent s k
  idle : Free s → s.log.pushed = s.log.accepted
  waiting : ∀ k, Unsent s k → s.log.pushed ++ [build s.log k] = s.log.accepted
  due : s.direct = true → s.log.pushed ++ [build s.log .withWhat] = s.log.accepted

theorem orderly_start : Orderly {} where
  pushing := by simp
  single := by
    rintro j k ⟨hj,_⟩
    cases j <;> cases hj
  alone := by simp
  idle _ := rfl
  waiting := by
    rintro k ⟨hk,_⟩
    cases k <;> cases hk
  due := by simp

theorem orderly_delivered (s : Channel) (h : Orderly s) : Delivered s := by
  rintro ⟨hd,hf,-⟩
  rw [h.idle ⟨hd,fun k hu => by cases (hf k).symm.trans hu.1⟩]

/-- An accepted call on a free channel leaves exactly its own action waiting. -/
theorem orderly_append (s : Channel) (now : UInt32) (a : Action) (h : Orderly s)
    (hc : Clear s (.append now a)) :
    Orderly { s with log := firebaseAppendUserAction now a s.log } := by
  obtain he | ⟨hp,he⟩ := append_cases s.log a now
  · rw [he]
    exact h
  · obtain ⟨⟨hd,hu⟩,hr⟩ := hc hp
    have hu' : ∀ k, Unsent { s with log := firebaseAppendUserAction now a s.log } k →
        k = a.kind := by
      rintro k ⟨hk,ht⟩
      by_contra hn
      apply hu k
      refine ⟨?_,ht⟩
      simp only [he, flag_setFlag, if_neg hn, flag_writeFields] at hk
      cases k <;> exact hk
    have ha : s.log.pushed = s.log.accepted := h.idle ⟨hd,hu⟩
    have hwait : (firebaseAppendUserAction now a s.log).pushed ++
        [build (firebaseAppendUserAction now a s.log) a.kind] =
        (firebaseAppendUserAction now a s.log).accepted := by
      simp [he, ha]
    constructor
    · intro k hk
      exact absurd ⟨h.pushing k hk,by rw [hk]; simp⟩ (hu k)
    · intro j k hj hk
      rw [hu' j hj, hu' k hk]
    · intro hd'
      exact absurd hd' (by simp [hd])
    · rintro ⟨-,hn⟩
      exact absurd ⟨by simp [he],hr⟩ (hn a.kind)
    · intro k hk
      rw [hu' k hk]
      exact hwait
    · intro hd'
      exact absurd hd' (by simp [hd])

theorem orderly_run (s : Channel) (i a c w : String) (h : Orderly s) (hf : Free s) :
    Orderly { s with log := runTaskFields i a c w s.log, direct := true } := by
  have hflag : ∀ k, flag (runTaskFields i a c w s.log) k = flag s.log k := by
    intro k
    cases k <;> rfl
  have hu : ∀ k, ¬Unsent { s with log := runTaskFields i a c w s.log, direct := true } k :=
    fun k hk => hf.2 k ⟨(hflag k).symm.trans hk.1,hk.2⟩
  constructor
  · intro k hk
    exact (hflag k).trans (h.pushing k hk)
  · intro j k hj
    exact absurd hj (hu j)
  · exact fun _ => hu
  · rintro ⟨hd,-⟩
    cases hd
  · intro k hk
    exact absurd hk (hu k)
  · intro _
    exact congrArg (· ++ [Action.withWhat i a c w]) (h.idle hf)

theorem orderly_direct (s : Channel) (h : Orderly s) (hd : s.direct = true) :
    Orderly { s with log := taskFireBaseAppendUserActionWithWhat s.log, direct := false } := by
  have hu : ∀ k, ¬Unsent
      { s with log := taskFireBaseAppendUserActionWithWhat s.log, direct := false } k :=
    fun k hk => h.alone hd k ⟨(flag_pushJSON s.log k .withWhat).symm.trans hk.1,hk.2⟩
  constructor
  · intro k hk
    exact (flag_pushJSON s.log k .withWhat).trans (h.pushing k hk)
  · intro j k hj
    exact absurd hj (hu j)
  · exact fun _ => hu
  · exact fun _ => h.due hd
  · intro k hk
    exact absurd hk (hu k)
  · intro hd'
    cases hd'

/-- The consumer: a test commits to a raised flag, a push delivers the action
that waits, a reset lowers a flag whose action is delivered. -/
theorem orderly_consume (s : Channel) (h : Orderly s) :
    Orderly { s with task := (firebaseTask s.task s.log).1,
                     log := (firebaseTask s.task s.log).2 } := by
  obtain ⟨log,task,direct⟩ := s
  cases task with
  | test k =>
    have hmove : ∀ t : TaskPc, (t = .push k ∧ flag log k = true ∨ t = .test k.next) →
        Orderly ⟨log,t,direct⟩ := by
      intro t ht
      have hu : ∀ j, Unsent ⟨log,t,direct⟩ j ↔ Unsent ⟨log,.test k,direct⟩ j := by
        intro j
        obtain ⟨rfl,_⟩ | rfl := ht <;> simp [Unsent]
      refine ⟨?_,?_,?_,?_,?_,h.due⟩
      · intro j hj
        obtain ⟨rfl,hk⟩ | rfl := ht
        · cases hj
          exact hk
        · cases hj
      · intro i j hi hj
        exact h.single i j ((hu i).mp hi) ((hu j).mp hj)
      · exact fun hd j hj => h.alone hd j ((hu j).mp hj)
      · exact fun hf => h.idle ⟨hf.1,fun j hj => hf.2 j ((hu j).mpr hj)⟩
      · exact fun j hj => h.waiting j ((hu j).mp hj)
    by_cases hk : flag log k = true
    · simpa [firebaseTask, hk] using hmove (.push k) (Or.inl ⟨rfl,hk⟩)
    · simpa [firebaseTask, hk] using hmove (.test k.next) (Or.inr rfl)
  | push k =>
    have hk : Unsent ⟨log,.push k,direct⟩ k := ⟨h.pushing k rfl,by simp⟩
    have hu : ∀ j, ¬Unsent ⟨pushJSON k log,.reset k,direct⟩ j := by
      rintro j ⟨hj,ht⟩
      have hj' : Unsent ⟨log,.push k,direct⟩ j := ⟨by simpa using hj,by simp⟩
      exact ht (by rw [h.single j k hj' hk])
    rw [firebaseTask_push]
    refine ⟨by simp,fun j _ hj => absurd hj (hu j),fun _ => hu,?_,
      fun j hj => absurd hj (hu j),?_⟩
    · exact fun _ => h.waiting k hk
    · exact fun hd => absurd hk (h.alone hd k)
  | reset k =>
    have hu : ∀ j, Unsent ⟨setFlag log false k,.test k.next,direct⟩ j ↔
        Unsent ⟨log,.reset k,direct⟩ j := by
      intro j
      by_cases hj : j = k
      · simp [Unsent, hj]
      · simp [Unsent, hj, Ne.symm hj]
    refine ⟨by simp [firebaseTask],?_,?_,?_,?_,?_⟩
    · exact fun i j hi hj => h.single i j ((hu i).mp hi) ((hu j).mp hj)
    · exact fun hd j hj => h.alone hd j ((hu j).mp hj)
    · intro hf
      simpa [firebaseTask] using h.idle ⟨hf.1,fun j hj => hf.2 j ((hu j).mpr hj)⟩
    · intro j hj
      simpa [firebaseTask] using h.waiting j ((hu j).mp hj)
    · intro hd
      simpa [firebaseTask] using h.due hd

theorem orderly_step (s : Channel) (m : Move) (h : Orderly s) (hc : Clear s m) :
    Ends (step s m) Orderly (fun _ => True) := by
  cases m with
  | append now a => exact orderly_append s now a h hc
  | start i a c w =>
    simp only [step]
    split
    · trivial
    · exact orderly_run s i a c w h hc
  | startPush =>
    simp only [step]
    split
    · rename_i hd
      exact orderly_direct s h hd
    · trivial
  | consume => exact orderly_consume s h

def Consumes (s t : Channel) : Prop :=
  ∃ n, run step s (List.replicate n .consume) = .ok t

theorem consumes_trans {s t u : Channel} (h : Consumes s t) (g : Consumes t u) :
    Consumes s u := by
  obtain ⟨n,hn⟩ := h
  obtain ⟨m,hm⟩ := g
  refine ⟨n+m,?_⟩
  rw [List.replicate_add]
  exact run_append_ok.mpr ⟨t,hn,hm⟩

theorem consumes_flag (s : Channel) (k : Kind) (hk : s.task = .test k) :
    ∃ t, Consumes s t ∧ t.task = .test k.next ∧ t.direct = s.direct ∧
      ∀ j, flag t.log j = if j = k then false else flag s.log j := by
  obtain ⟨log,task,direct⟩ := s
  cases hk
  by_cases hf : flag log k = true
  · refine ⟨⟨setFlag (pushJSON k log) false k,.test k.next,direct⟩,⟨3,?_⟩,rfl,rfl,by simp⟩
    simp [List.replicate, run, step, firebaseTask, hf]
    rfl
  · refine ⟨⟨log,.test k.next,direct⟩,⟨1,?_⟩,rfl,rfl,fun j => ?_⟩
    · simp [List.replicate, run, step, firebaseTask, hf]
      rfl
    · by_cases hj : j = k
      · subst hj
        simpa using hf
      · simp [hj]

theorem consumes_test (s : Channel) :
    ∃ t k, Consumes s t ∧ t.task = .test k ∧ t.direct = s.direct := by
  obtain ⟨log,task,direct⟩ := s
  cases task with
  | test k => exact ⟨_,k,⟨0,rfl⟩,rfl,rfl⟩
  | push k =>
    refine ⟨⟨setFlag (pushJSON k log) false k,.test k.next,direct⟩,_,⟨2,?_⟩,rfl,rfl⟩
    simp [List.replicate, run, step, firebaseTask]
    rfl
  | reset k => exact ⟨⟨setFlag log false k,.test k.next,direct⟩,_,⟨1,rfl⟩,rfl,rfl⟩

theorem consumes_quiet (s : Channel) (hd : s.direct = false) : ∃ t, Consumes s t ∧ Quiet t := by
  obtain ⟨t0,k,h0,hk,d0⟩ := consumes_test s
  obtain ⟨t1,h1,hk1,d1,f1⟩ := consumes_flag t0 k hk
  obtain ⟨t2,h2,hk2,d2,f2⟩ := consumes_flag t1 k.next hk1
  obtain ⟨t3,h3,hk3,d3,f3⟩ := consumes_flag t2 k.next.next hk2
  refine ⟨t3,consumes_trans h0 (consumes_trans h1 (consumes_trans h2 h3)),?_,?_,_,hk3⟩
  · rw [d3, d2, d1, d0, hd]
  · intro j
    rw [f3, f2, f1]
    cases j <;> cases k <;> simp [Kind.next]

/-- The moves that finish what has been begun: no producer among them. -/
def Finishes (m : Move) : Prop := m = .startPush ∨ m = .consume

theorem quiet_reached (s : Channel) :
    ∃ ms t, (∀ m ∈ ms, Finishes m) ∧ run step s ms = .ok t ∧ Quiet t := by
  cases hd : s.direct with
  | false =>
    obtain ⟨t,⟨n,hn⟩,hq⟩ := consumes_quiet s hd
    exact ⟨_,t,fun m hm => Or.inr (List.eq_of_mem_replicate hm),hn,hq⟩
  | true =>
    obtain ⟨t,⟨n,hn⟩,hq⟩ := consumes_quiet
      { s with log := taskFireBaseAppendUserActionWithWhat s.log, direct := false } rfl
    refine ⟨.startPush::List.replicate n .consume,t,?_,run_cons_ok.mpr ⟨_,?_,hn⟩,hq⟩
    · intro m hm
      rcases List.mem_cons.mp hm with rfl | hm
      · exact Or.inl rfl
      · exact Or.inr (List.eq_of_mem_replicate hm)
    · simp [step, hd]

theorem finishes_accepted (s t : Channel) (m : Move) (hm : Finishes m)
    (ht : step s m = .ok t) : t.log.accepted = s.log.accepted := by
  obtain rfl | rfl := hm
  · simp only [step] at ht
    split at ht
    · cases ht
      rfl
    · cases ht
  · cases ht
    obtain ⟨log,task,direct⟩ := s
    cases task with
    | test k => by_cases hk : flag log k = true <;> simp [firebaseTask, hk]
    | push k => simp [firebaseTask]
    | reset k => simp [firebaseTask]

theorem finishing_run (s t : Channel) (ms : List Move) (hm : ∀ m ∈ ms, Finishes m)
    (ho : Orderly s) (hr : run step s ms = .ok t) :
    Orderly t ∧ t.log.accepted = s.log.accepted := by
  induction ms generalizing s with
  | nil => cases hr; exact ⟨ho,rfl⟩
  | cons m ms ih =>
    obtain ⟨u,hu,ht⟩ := run_cons_ok.mp hr
    have hf := hm m (by simp)
    have hc : Clear s m := by obtain rfl | rfl := hf <;> trivial
    obtain ⟨h,ha⟩ := ih u (fun n hn => hm n (by simp [hn]))
      (ends_of_ok (orderly_step s m ho hc) hu) ht
    exact ⟨h,ha.trans (finishes_accepted s u m hf hu)⟩

/-- Every accepted action is pushed exactly once and unchanged, in every run
in which no accepted call overtakes a waiting action: whenever nothing is
under way, and after the consumer has finished what is. -/
theorem clear_runs_deliver (ms : List Move) (h : Meets step Clear {} ms) :
    Runs step Delivered (fun _ => True) {} ms ∧
      ∀ t, run step {} ms = .ok t → ∃ ns u, (∀ m ∈ ns, Finishes m) ∧
        run step t ns = .ok u ∧ u.log.accepted = t.log.accepted ∧
        u.log.pushed.Perm t.log.accepted := by
  refine ⟨runs_of_meets orderly_delivered orderly_step orderly_start h,fun t ht => ?_⟩
  have ho : Orderly t := invariant_run
    (fun s m u hs hm hu => ends_of_ok (orderly_step s m hs hm) hu) orderly_start h ht
  obtain ⟨ns,u,hn,hu,hq⟩ := quiet_reached t
  obtain ⟨hou,ha⟩ := finishing_run t u ns hn ho hu
  have hp := orderly_delivered u hou hq
  exact ⟨ns,u,hn,hu,ha,ha ▸ hp⟩

def openedRooms : Action := .message "touchScreenInteraction" "navigate" "drawAllRooms"

def calmRun : List Move :=
  [.append 1001 drawHomeAction,.consume,.consume,.consume,.append 2002 openedRooms]

theorem calm_run_delivers : Meets step Clear {} calmRun ∧
    Runs step Delivered (fun _ => True) {} calmRun := by
  have h : Meets step Clear {} calmRun := by
    refine ⟨fun _ => ⟨⟨rfl,?_⟩,by simp⟩,trivial,trivial,trivial,fun _ => ⟨⟨rfl,?_⟩,?_⟩,trivial⟩
    · rintro k ⟨hk,_⟩
      cases k <;> cases hk
    · rintro k ⟨hk,_⟩
      cases k <;> cases hk
    · rintro ⟨⟩
  exact ⟨h,(clear_runs_deliver calmRun h).1⟩

/-- A second call that passes the throttle before the consumer has seen the
first: the first action is never pushed. -/
def overtakingRun : List Move :=
  [.append 1001 drawHomeAction,.append 2002 openedRooms,.consume,.consume,.consume]

theorem overtaken_action_lost : ¬Runs step Delivered (fun _ => True) {} overtakingRun := by
  intro h
  have hp := runs_last h rfl ⟨rfl,fun k => by cases k <;> rfl,_,rfl⟩
  exact absurd hp.length_eq (by decide)

end THue.LogDelivery
