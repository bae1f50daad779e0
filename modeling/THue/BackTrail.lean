import THue.PagePath
import Mathlib.Data.List.Basic

/-!
# Going back

A run is replayed with the list of the pages from which the pages on the path
were opened, each as it was when it was last on screen. Going back restores
the first of them, unless the dial has opened the light page on an edit page:
for that page `goBack` has no branch.
-/

set_option autoImplicit false

namespace THue.BackTrail
open THue.Globals THue.CheckedArray THue.FaultRun THue.Bridge THue.TouchScreen THue.Pages
open THue.PageDrawing THue.Navigation THue.PagePath

structure Snapshot where
  page : ℤ
  room : Option ℤ
  behavior : Option (Fin 20)
  count : ℤ
  path : List ℤ
  back : Bool
  deriving DecidableEq, Repr

def snapshot (s : Eink) : Snapshot where
  page := s.nav.currentRoomID
  room := if s.nav.currentRoomID = drawRoomID then some s.house.lastRoom else none
  behavior := if s.nav.currentRoomID = drawBehaviorID then some s.shared.play.lastBehaviorId
    else none
  count := s.nav.pagePageCounter
  path := front s.nav.pagePath s.nav.pagePageCounter.toNat
  back := s.nav.isGoingBack

/-- A run and the pages from which the pages above home were opened. -/
structure Browsing where
  eink : Eink
  openers : List Snapshot := []

def record (s : Eink) (openers : List Snapshot) : Option Event → List Snapshot
  | none => openers
  | some e =>
      if Opener e then snapshot s::openers
      else if Homing e then []
      else if e = .goBack then openers.tail
      else openers

def browse (b : Browsing) (m : Pages.Move) : Except Fault Browsing := do
  let t ← Pages.step b.eink m
  pure { eink := t, openers := record b.eink b.openers (handler b.eink m) }

/-- Any touch of the back button shows the page that opened the one on screen as it was. -/
def Undoes (b : Browsing) : Prop :=
  ∀ a x y, handler b.eink (.touch a x y) = some .goBack →
    Ends (Pages.step b.eink (.touch a x y)) (fun t => b.openers.head? = some (snapshot t)) Elsewhere

/-- The dial does not open the light page while an edit page is on screen. -/
def Aside (b : Browsing) : Pages.Move → Prop
  | .touch _ _ _ => True
  | .dial _ _ => dialOpens b.eink → b.eink.nav.currentRoomID ≠ changeBehaviorID

instance aside_decidable (b : Browsing) : ∀ m, Decidable (Aside b m)
  | .touch _ _ _ => isTrue trivial
  | .dial _ _ => inferInstanceAs (Decidable (_ → _))

variable {h : ℕ} {k q : PageKind} {below : List PageKind} {s t : Eink}

/-- Page `k` over `n` others, as the path and the last pages opened record it. -/
def shot (s : Eink) (h : ℕ) (k : PageKind) (n : ℕ) : Snapshot where
  page := k.id s.uiLevel
  room := if k = .room then some s.house.lastRoom else none
  behavior := if k = .behavior then some s.shared.play.lastBehaviorId else none
  count := ((h+n+1 : ℕ):ℤ)
  path := front s.nav.pagePath (h+n+1)
  back := false

def shots (s : Eink) (h : ℕ) : List PageKind → List Snapshot
  | [] => []
  | k::ks => shot s h k ks.length::shots s h ks

theorem id_room (level : ℤ) : k.id level = drawRoomID ↔ k = .room :=
  id_iff (p := .room) (by decide) (by decide) level

theorem id_behavior (level : ℤ) : k.id level = drawBehaviorID ↔ k = .behavior :=
  id_iff (p := .behavior) (by decide) (by decide) level

theorem snapshot_shot (hs : Standing h k below s) : snapshot s = shot s h k below.length := by
  simp only [snapshot, shot, hs.id, id_room, id_behavior, hs.count, hs.back, Int.toNat_natCast]

theorem shots_congr {ks : List PageKind} (hlevel : t.uiLevel = s.uiLevel)
    (hpath : front t.nav.pagePath (h+ks.length) = front s.nav.pagePath (h+ks.length))
    (hroom : .room ∈ ks → t.house.lastRoom = s.house.lastRoom)
    (hlast : .behavior ∈ ks → t.shared.play.lastBehaviorId = s.shared.play.lastBehaviorId) :
    shots t h ks = shots s h ks := by
  induction ks with
  | nil => rfl
  | cons k ks ih =>
    have hshot : shot t h k ks.length = shot s h k ks.length := by
      simp only [shot, hlevel, Snapshot.mk.injEq, true_and, and_true]
      refine ⟨?_,?_,hpath⟩
      · split
        · next hk => rw [hroom (by simp [hk])]
        · rfl
      · split
        · next hk => rw [hlast (by simp [hk])]
        · rfl
    have hlow : front t.nav.pagePath (h+ks.length) = front s.nav.pagePath (h+ks.length) := by
      have := congrArg (fun l : List ℤ => l.take (h+ks.length)) hpath
      simpa only [front_take _ _ _ (show h+ks.length ≤ h+(k::ks).length by simp)] using this
    rw [shots, shots, hshot, ih hlow (fun hm => hroom (List.mem_cons_of_mem _ hm))
      (fun hm => hlast (List.mem_cons_of_mem _ hm))]

/-- No page opens over a page of its own kind, so a room or behavior page that
is opened is the only one on the path. -/
theorem trail_fresh (ht : Trail (k::below)) (hf : Follows k q) (hq : q = .room ∨ q = .behavior) :
    q ∉ k::below := by
  obtain rfl | rfl := hq
  · cases hf
    cases ht with
    | step hf ht => cases hf; cases ht with
      | home => decide
      | step hf => cases hf
  · cases hf
    cases ht with
    | step hf ht => cases hf; cases ht with
      | home => decide
      | step hf => cases hf

/-- The openers are the pages below the one on screen, and none is an edit page. -/
def Kept (b : Browsing) : Prop :=
  ∃ h k below, Standing h k below b.eink ∧ .edit ∉ below ∧ b.openers = shots b.eink h below

theorem record_opener {e : Event} {os : List Snapshot} (he : Opener e) :
    record s os (some e) = snapshot s::os := if_pos he

theorem record_homing {e : Event} {os : List Snapshot} (he : Homing e) :
    record s os (some e) = [] := by
  have ho : ¬Opener e := by
    obtain rfl | rfl := he <;> decide
  rw [record, if_neg ho, if_pos he]

theorem record_back {os : List Snapshot} : record s os (some .goBack) = os.tail := rfl

theorem record_stay {e : Event} {os : List Snapshot} (ho : ¬Opener e) (hh : ¬Homing e)
    (hb : e ≠ .goBack) : record s os (some e) = os := by
  rw [record, if_neg ho, if_neg hh, if_neg hb]

theorem path_above {h n : ℕ} {path : Fin 10 → ℤ} {i : Fin 10} {v : ℤ} (hi : h+n ≤ i.val) :
    front (Function.update path i v) (h+n) = front path (h+n) :=
  front_update_above _ _ _ _ hi

theorem outcome_kept {e : Event} {os : List Snapshot} (hs : Standing h k below s)
    (hedit : .edit ∉ below) (hos : os = shots s h below) (hk : Opener e → k ≠ .edit)
    (ho : Outcome h k below s e t) :
    Kept { eink := t, openers := record s os (some e) } := by
  obtain ⟨he,q,ho⟩ | ⟨he,ht⟩ | ⟨rfl,p,rest,rfl,ht⟩ | ⟨h1,h2,h3,ht⟩ := ho
  · obtain ⟨i,hi,hpath⟩ := ho.path
    have hshots : shots t h (k::below) = shots s h (k::below) := by
      refine shots_congr ho.level ?_ (fun hm => ho.room fun hq => ?_)
        fun hm => ho.behavior fun hq => ?_
      · rw [hpath]
        exact path_above (by rw [List.length_cons]; omega)
      · subst hq
        exact trail_fresh hs.trail ho.follows (Or.inl rfl) hm
      · subst hq
        exact trail_fresh hs.trail ho.follows (Or.inr rfl) hm
    refine ⟨h,q,k::below,ho.standing,?_,?_⟩
    · simp only [List.mem_cons, not_or]
      exact ⟨fun hc => hk he hc.symm,hedit⟩
    · rw [record_opener he, hshots, hos, shots, snapshot_shot hs]
  · obtain ⟨i,hi⟩ := ht.standing
    exact ⟨i,.home,[],hi,by simp,record_homing he⟩
  · refine ⟨h,p,rest,ht.standing,fun hm => hedit (List.mem_cons_of_mem _ hm),?_⟩
    rw [record_back, hos, shots, List.tail_cons]
    exact (shots_congr ht.level (by rw [ht.path]) (fun _ => ht.room) fun _ => ht.behavior).symm
  · refine ⟨h,k,below,ht.standing,hedit,?_⟩
    rw [record_stay h1 h2 h3, hos]
    exact (shots_congr ht.level (by rw [ht.nav]) (fun _ => ht.room) fun _ => ht.behavior).symm

theorem opener_edit {m : Pages.Move} {e : Event} (hs : Standing h k below s)
    (hm : handler s m = some e) (ha : Aside { eink := s } m) (he : Opener e) : k ≠ .edit := by
  rintro rfl
  cases m with
  | touch a x y =>
    obtain ⟨i,-,hi⟩ := Option.bind_eq_some_iff.mp hm
    have hoff := hs.offers i e hi
    cases e <;> simp [Offers, Bar] at hoff <;> revert he <;> simp [Opener]
  | dial a id =>
    by_cases hd : dialOpens s
    · exact ha hd (hs.id.trans rfl)
    · rw [handler, if_neg hd] at hm
      cases hm

theorem browse_kept {b : Browsing} {m : Pages.Move} (hb : Kept b) (hl : Level (answers m))
    (ha : Aside b m) : Ends (browse b m) Kept (fun _ => True) := by
  obtain ⟨h,k,below,hs,hedit,hos⟩ := hb
  have hback : handler b.eink m = some .goBack → below.head? ≠ some .edit :=
    fun _ hh => hedit (List.mem_of_mem_head? hh)
  obtain ⟨hn,hstay⟩ | ⟨e,he,ho⟩ := step_outcome hs m (level_pos hl) hback
  · rw [browse, hstay, hn]
    exact ⟨h,k,below,hs,hedit,hos⟩
  · rw [browse, he]
    have hk : Opener e → k ≠ .edit := opener_edit hs he (by cases m <;> exact ha)
    exact ends_bind (ends_mono ho (fun _ ht => ht) fun _ _ => trivial)
      fun t ht => outcome_kept hs hedit hos hk ht

theorem kept_undoes {b : Browsing} (hb : Kept b) : Undoes b := by
  obtain ⟨h,k,below,hs,hedit,hos⟩ := hb
  intro a x y hm
  obtain ⟨i,hi,he⟩ := Option.bind_eq_some_iff.mp hm
  have hsource := offers_source (hs.offers i _ he)
  obtain ⟨p,rest,rfl⟩ := trail_below hs.trail hsource
  have hp : p ≠ .edit := fun hp => hedit (by simp [hp])
  simp only [Pages.step, Pages.touch, hi, he]
  refine ends_imp (goBack_back (standing_press hs (b.eink.screen.buttons i)) hp a)
    fun t ht => ?_
  have hshot : shots t h (p::rest) = shots b.eink h (p::rest) := shots_congr ht.level
    (by rw [ht.path]) (fun _ => ht.room) fun _ => ht.behavior
  rw [hos, snapshot_shot ht.standing, ← hshot]
  rfl

/-- In a run from boot going back undoes going forward, as long as the dial
opens no light over an edit page. -/
theorem back_undoes {a : Answers} {ms : List Pages.Move} (ha : Level a)
    (hms : ∀ m ∈ ms, Level (answers m)) (hs : fetchData a {} = .ok s)
    (hm : Meets browse Aside { eink := s } ms) :
    Runs browse Undoes (fun _ => True) { eink := s } ms := by
  exact runs_of_meets (fun _ hb => kept_undoes hb) (fun _ _ hb hm => browse_kept hb hm.1 hm.2)
    ⟨0,.home,[],boot_standing ha hs,by simp,rfl⟩ (meets_forall hms hm)

def firstBehavior : Pages.Move := .touch {} 30 60

def edit : Pages.Move := .touch {} 100 125

def dial : Pages.Move := .dial {} 0

theorem light_undone : Runs browse Undoes (fun _ => True) { eink := boot }
    [behaviors,firstBehavior,dial,back,edit,back] :=
  back_undoes (by decide) (by decide) boot_fetched (by decide +kernel)

/-- Going back from a light opened over an edit page shows no other page. -/
theorem edit_lost : ¬∀ (a : Answers) (s : Eink) (ms : List Pages.Move), Level a →
    (∀ m ∈ ms, Level (answers m)) → fetchData a {} = .ok s →
      Runs browse Undoes (fun _ => True) { eink := s } ms := by
  intro hall
  have hruns := runs_ends (hall {} boot [behaviors,firstBehavior,edit,dial] (by decide) (by decide)
    boot_fetched)
  have hrun : Ends (run browse { eink := boot } [behaviors,firstBehavior,edit,dial])
      (fun b => handler b.eink back = some .goBack ∧
        ¬Ends (Pages.step b.eink back) (fun t => b.openers.head? = some (snapshot t))
          (fun _ => True)) (fun _ => False) := by decide +kernel
  cases hb : run browse { eink := boot } [behaviors,firstBehavior,edit,dial] with
  | error e =>
    rw [hb] at hrun
    exact hrun
  | ok b =>
    rw [hb] at hruns hrun
    exact hrun.2 (ends_mono (hruns {} 29 251 hrun.1) (fun _ h => h) fun _ _ => trivial)

end THue.BackTrail
