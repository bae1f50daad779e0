import THue.Navigation

/-!
# The path stays well formed

After each step the counter is between one and ten and its cell holds the id
of the page on screen. Two moves break this: entering a page into a full path,
which refreshing without going home does as well, and going back to an edit
page, for which no page is drawn.
-/

set_option autoImplicit false

namespace THue.PagePath
open THue.Globals THue.FaultRun THue.Bridge THue.TouchScreen THue.Pages THue.PageDrawing
open THue.Navigation

def cell (n : Nav) (i : ℤ) : Option ℤ :=
  if h : 0 ≤ i ∧ i < 10 then some (n.pagePath ⟨i.toNat,by omega⟩) else none

def WellFormed (s : Eink) : Prop :=
  1 ≤ s.nav.pagePageCounter ∧ s.nav.pagePageCounter ≤ 10 ∧
    cell s.nav (s.nav.pagePageCounter-1) = some s.nav.currentRoomID

/-- The levels that the database is asked for. -/
def Level (a : Answers) : Prop := ∀ v ∈ a.level, v = 1 ∨ v = 2 ∨ v = 3

/-- A page is entered only below the last cell, and going back does not lead to an edit page. -/
def Guarded (s : Eink) (m : Pages.Move) : Prop :=
  ∀ e ∈ handler s m, (Pushes e → s.nav.pagePageCounter < 10) ∧
    (e = .goBack → cell s.nav (s.nav.pagePageCounter-2) ≠ some changeBehaviorID)

instance wellFormed_decidable (s : Eink) : Decidable (WellFormed s) :=
  inferInstanceAs (Decidable (_ ∧ _))

instance level_decidable (a : Answers) : Decidable (Level a) :=
  inferInstanceAs (Decidable (∀ v ∈ a.level, _))

instance guarded_decidable (s : Eink) (m : Pages.Move) : Decidable (Guarded s m) :=
  inferInstanceAs (Decidable (∀ e ∈ handler s m, _))

variable {h : ℕ} {k : PageKind} {below : List PageKind} {s : Eink}

theorem cell_inside {n : Nav} {i : ℕ} (hi : i < 10) : cell n (i:ℤ) = some (n.pagePath ⟨i,hi⟩) := by
  rw [cell, dif_pos (by omega)]
  rfl

theorem read_cell {n : Nav} {i v : ℤ} (e : Fault) :
    CheckedArray.read n.pagePath i e = .ok v ↔ cell n i = some v := by
  rw [CheckedArray.read, cell]
  by_cases h : 0 ≤ i ∧ i < 10
  · rw [dif_pos h, dif_pos (by exact_mod_cast h), Except.ok.injEq, Option.some.injEq]
  · rw [dif_neg h, dif_neg (by exact_mod_cast h)]
    simp

theorem standing_wellFormed (hs : Standing h k below s) : WellFormed s := by
  obtain ⟨⟨hlt,hcell⟩,-⟩ := hs.path
  have hc : s.nav.pagePageCounter-1 = ((h+below.length:ℕ):ℤ) := by
    rw [hs.count]
    omega
  refine ⟨by omega,by omega,?_⟩
  rw [hc, cell_inside hlt, hcell, hs.id]

theorem edit_below {p : PageKind} {rest : List PageKind} (hs : Standing h k (p::rest) s) :
    cell s.nav (s.nav.pagePageCounter-2) = some (p.id s.uiLevel) := by
  obtain ⟨-,⟨hlt,hcell⟩,-⟩ := hs.path
  have hc : s.nav.pagePageCounter-2 = ((h+rest.length:ℕ):ℤ) := by
    rw [hs.count, List.length_cons]
    omega
  rw [hc, cell_inside hlt, hcell]

def OnScreen (s : Eink) : Prop := ∃ h k below, Standing h k below s

theorem outcome_onScreen {e : Event} {t : Eink} (ho : Outcome h k below s e t) : OnScreen t := by
  obtain ⟨-,q,ho⟩ | ⟨-,ho⟩ | ⟨-,p,rest,-,ho⟩ | ⟨-,-,-,ho⟩ := ho
  · exact ⟨_,_,_,ho.standing⟩
  · obtain ⟨i,hi⟩ := ho.standing
    exact ⟨_,_,_,hi⟩
  · exact ⟨_,_,_,ho.standing⟩
  · exact ⟨_,_,_,ho.standing⟩

theorem level_pos {a : Answers} (hl : Level a) : ∀ v ∈ a.level, 1 ≤ v := by
  intro v hv
  obtain rfl | rfl | rfl := hl v hv <;> decide

theorem step_onScreen {m : Pages.Move} (hs : OnScreen s) (hl : Level (answers m))
    (hm : Guarded s m) : Ends (Pages.step s m) OnScreen Elsewhere := by
  obtain ⟨h,k,below,hs⟩ := hs
  have hback : handler s m = some .goBack → below.head? ≠ some .edit := by
    intro he hhead
    cases below with
    | nil => cases hhead
    | cons p rest =>
      obtain rfl : p = .edit := Option.some.inj hhead
      exact (hm _ he).2 rfl (edit_below hs)
  obtain ⟨-,hstay⟩ | ⟨e,he,ho⟩ := step_outcome hs m (level_pos hl) hback
  · rw [hstay]
    exact ⟨h,k,below,hs⟩
  · refine ends_mono ho (fun t ht => outcome_onScreen ht) fun f hf => ?_
    obtain hf | ⟨hp,hb⟩ := hf
    · exact hf
    · have := (standing_wellFormed hs).1
      exact absurd ⟨by omega,(hm e he).1 hp⟩ hb.2

theorem boot_standing {a : Answers} (hl : Level a) (hs : fetchData a {} = .ok s) :
    Standing 0 .home [] s := by
  have hlevel : 1 ≤ a.level.getD (3:ℤ) := by
    cases hv : a.level with
    | none => decide
    | some v => exact level_pos hl v hv
  obtain ⟨c,hnav,hcl,ht⟩ := ends_of_ok (fetchData_shown a {} hlevel) hs
  exact standing_home (by rw [hnav]) (by rw [hnav]; rfl) (hcl ▸ hlevel) ht

theorem path_wellFormed {a : Answers} {ms : List Pages.Move} (ha : Level a)
    (hms : ∀ m ∈ ms, Level (answers m)) (hs : fetchData a {} = .ok s)
    (hm : Meets Pages.step Guarded s ms) : Runs Pages.step WellFormed Elsewhere s ms := by
  refine runs_of_meets (fun s hs => ?_) (fun s m hs hm => step_onScreen hs hm.1 hm.2)
    ⟨0,.home,[],boot_standing ha hs⟩ (meets_forall hms hm)
  obtain ⟨h,k,below,hs⟩ := hs
  exact standing_wellFormed hs

def boot : Eink := (fetchData {} {}).toOption.getD {}

theorem boot_fetched : fetchData {} {} = .ok boot := ok_getD {} (by decide +kernel)

def refresh : Pages.Move := .touch {} 29 251

def behaviors : Pages.Move := .touch {} 130 76

def back : Pages.Move := .touch {} 29 251

theorem there_and_back : Runs Pages.step WellFormed Elsewhere boot [refresh,behaviors,back] :=
  path_wellFormed (by decide) (by decide) boot_fetched (by decide +kernel)

/-- Boot fills one cell of the path and each refresh the next. -/
theorem tenth_refresh_outside : ¬∀ (a : Answers) (s : Eink) (ms : List Pages.Move), Level a →
    (∀ m ∈ ms, Level (answers m)) → fetchData a {} = .ok s →
      Runs Pages.step WellFormed Elsewhere s ms := by
  intro hall
  have hruns := runs_ends (hall {} boot (List.replicate 10 refresh) (by decide) (by decide)
    boot_fetched)
  have hrun : ¬Ends (run Pages.step boot (List.replicate 10 refresh)) (fun _ => True)
      (fun e => e ≠ .outside .pagePath 10) := by decide +kernel
  exact hrun (ends_imp hruns (fun _ _ => trivial) 10)

end THue.PagePath
