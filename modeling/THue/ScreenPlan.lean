import THue.Navigation
import THue.Rectangles

/-!
# The plans of the pages

Every page draws its buttons within a plan of rectangles apart from each
other, one for each slot of the button array. Slots left over from an earlier
page of a list stay within the plan, so the count may pass them again.
-/

set_option autoImplicit false

namespace THue.ScreenPlan
open THue.Globals THue.Entertainment THue.CheckedArray THue.FaultRun THue.TouchScreen
open THue.Bridge THue.Pages THue.PagedLists THue.PageDrawing THue.Rectangles

/-- A fault other than a button outside the array. -/
def Aside (e : Fault) : Prop := ∀ i, e ≠ .outside .buttons i

theorem aside {n : ArrayName} (hn : n ≠ .buttons) (i : ℤ) : Aside (.outside n i) :=
  fun _ he => hn (Fault.outside.inj he).1

theorem aside_data : Data Aside := ⟨fun _ h => Fault.noConfusion h,fun _ i hn => aside hn.1 i⟩

def rect (b : Button) : Rect ℤ := ⟨b.x,b.y,b.width,b.height⟩

theorem inside_iff {x y : ℤ} {b : Button} : inside x y b = true ↔ (x,y) ∈ (rect b).interior := by
  simp only [inside, mem_rect, rect, decide_eq_true_eq, and_assoc, add_comm b.x b.width]

def Held (S : Event → Prop) (b : Button) : Prop :=
  (∀ e, b.event = some e → S e) ∧ (b.event = none → b.width = 0)

/-- The first `c` slots are drawn, and all slots lie within the plan. -/
structure Filled (S : Event → Prop) (plan : List (Rect ℤ)) (c : ℕ) (s : Screen) : Prop where
  count : s.buttonCount = c
  fits : Fits plan (fun k => rect (s.buttons k))
  held : ∀ k, Held S (s.buttons k)

/-- A drawing step fills the slots of the plan from `c` up to `d`. -/
def Fills (S : Event → Prop) (plan : List (Rect ℤ)) (c d : ℕ) (f : Screen → Except Fault Screen) :
    Prop :=
  ∀ s, Filled S plan c s → Ends (f s) (Filled S plan d) Aside

section Fills
variable {S : Event → Prop} {plan : List (Rect ℤ)} {c d m : ℕ} {r q : Rect ℤ} {e : Event}
variable {f g : Screen → Except Fault Screen} {b : Button}

theorem held_some (he : b.event = some e) (hS : S e) : Held S b := by
  refine ⟨fun e' he' => ?_,fun hn => ?_⟩
  · rw [he] at he'
    exact Option.some.inj he' ▸ hS
  · rw [he] at hn
    cases hn

theorem held_empty : Held S ({} : Button) := by
  refine ⟨fun e he => ?_,fun _ => rfl⟩
  cases he

theorem filled_set {s : Screen} (hfits : Fits plan fun k => rect (s.buttons k))
    (hheld : ∀ k, Held S (s.buttons k)) (i : Fin 30) (hb : Held S b)
    (hq : ∀ r, plan[i.val]? = some r → Within (rect b) r) (m : ℕ) :
    Filled S plan m { s with buttons := Function.update s.buttons i b, buttonCount := (m:ℤ) } := by
  refine ⟨rfl,fits_update (i := i) (q := rect b) hfits hq ?_ fun k hk => ?_,fun k => ?_⟩
  · simp only [Function.update_self]
  · simp only [Function.update_of_ne hk]
  · by_cases hk : k = i
    · subst hk
      simp only [Function.update_self]
      exact hb
    · simp only [Function.update_of_ne hk]
      exact hheld k

theorem filled_add {s : Screen} (h : Filled S plan c s) (hc : c < 30) (he : b.event = some e)
    (hS : S e) (hq : ∀ r, plan[c]? = some r → Within (rect b) r) :
    ∃ t, addButtonToArray b s = .ok t ∧ Filled S plan (c+1) t ∧ t.topIndex = s.topIndex :=
  ⟨_,addButton_at b c hc h.count,
    filled_set h.fits h.held ⟨c,hc⟩ (held_some he hS) hq (c+1),rfl⟩

theorem filled_push {s : Screen} (h : Filled S plan plan.length s) (i : Fin 30)
    (hi : i.val = plan.length) (hb : Held S b) (hq : Within (rect b) q) :
    Filled S (plan ++ [q]) (plan ++ [q]).length { s with
      buttons := Function.update s.buttons i b, buttonCount := ((plan ++ [q]).length:ℤ) } := by
  have hset := filled_set h.fits h.held i hb (fun r hr => by
    rw [hi, List.getElem?_eq_none (le_refl _)] at hr
    cases hr) (plan ++ [q]).length
  refine ⟨rfl,fits_snoc hset.fits fun k hk => ?_,hset.held⟩
  obtain rfl : k = i := Fin.ext (hk.trans hi.symm)
  simp only [Function.update_self]
  exact hq

theorem fills_add (he : b.event = some e) (hS : S e) (hb : rect b = q) (hr : plan[c]? = some r)
    (hq : Within q r) (h30 : plan.length ≤ 30) : Fills S plan c (c+1) (addButtonToArray b) := by
  intro s hs
  have hc : c < plan.length := (List.getElem?_eq_some_iff.mp hr).1
  obtain ⟨t,ht,hf,-⟩ := filled_add hs (by omega) he hS
    fun r' hr' => hb ▸ Option.some.inj (hr.symm.trans hr') ▸ hq
  rw [ht]
  exact hf

theorem fills_pure : Fills S plan c c pure := fun _ hs => hs

theorem fills_bind (hf : Fills S plan c d f) (hg : Fills S plan d m g) :
    Fills S plan c m (fun s => f s >>= g) :=
  fun s hs => ends_bind (hf s hs) fun t ht => hg t ht

theorem drawSquare_fills {x y width height id : ℤ} {text : String} (hS : S e)
    (hr : plan[c]? = some r) (hq : Within ⟨x,y,width,height⟩ r) (h30 : plan.length ≤ 30) :
    Fills S plan c (c+1) (drawSquare x y width height text e id) :=
  fills_add rfl hS rfl hr hq h30

theorem drawBitmap_filled {x y width height : ℤ} (text : String) (id brightness : ℤ)
    (on border : Bool) (position : Option ℤ) {s : Screen} (h : Filled S plan c s) (hS : S e)
    (hr : plan[c]? = some r) (hq : Within ⟨x,y,width,height⟩ r) (h30 : plan.length ≤ 30) :
    ∃ t, drawBitmap x y 0 0 width height text e id false on brightness border position s = .ok t ∧
      Filled S plan (c+1) t ∧ t.topIndex = s.topIndex := by
  have hc : c < plan.length := (List.getElem?_eq_some_iff.mp hr).1
  refine filled_add h (by omega) rfl hS fun r' hr' => ?_
  obtain rfl := Option.some.inj (hr.symm.trans hr')
  simpa [rect] using hq

theorem drawBitmap_fills {x y width height : ℤ} (text : String) (id : ℤ) (hS : S e)
    (hr : plan[c]? = some r) (hq : Within ⟨x,y,width,height⟩ r) (h30 : plan.length ≤ 30) :
    Fills S plan c (c+1) (drawBitmap x y 0 0 width height text e id false false 0 false none) := by
  intro s hs
  obtain ⟨t,ht,hf,-⟩ := drawBitmap_filled text id 0 false false none hs hS hr hq h30
  rw [ht]
  exact hf

end Fills

def bar : List (Rect ℤ) := [⟨0,238,58,26⟩,⟨59,238,58,26⟩]

def blank : Rect ℤ := ⟨0,0,0,0⟩

/-- No handler turns a page. -/
def Steady (e : Event) : Prop := ¬Turns e

theorem headed_filled (text : String) (s : Screen) (rest : List (Rect ℤ)) :
    Filled Steady (bar ++ rest) 2 (headed text s) := by
  have hslot : ∀ k : Fin 30, k = 0 ∨ k = 1 ∨ (headed text s).buttons k = {} := by
    intro k
    by_cases hk : 2 ≤ k.val
    · exact .inr (.inr (headed_empty text s k hk))
    · omega
  refine ⟨rfl,fits_within fun k r hr => ?_,fun k => ?_⟩
  · obtain rfl | rfl | hk := hslot k
    · cases Option.some.inj hr
      exact within_refl (rect (navButton 0 _))
    · cases Option.some.inj hr
      exact within_refl (rect (navButton 59 _))
    · simp only [hk]
      exact .inl rfl
  · obtain rfl | rfl | hk := hslot k
    · refine held_some (e := if text ≠ "HJEM" then .goBack else .fetchData) rfl ?_
      split <;> simp [Steady, Turns]
    · exact held_some (e := .drawHomeFromHomeButton) rfl (by simp [Steady, Turns])
    · rw [hk]
      exact held_empty

/-- Place `j` of two columns that start at `left`, a pitch apart. -/
def cell (left pitch : ℤ) (j : ℕ) : Rect ℤ :=
  ⟨left+pitch*((j%2:ℕ):ℤ),56+pitch*((j/2:ℕ):ℤ),48,48⟩

section Columns
variable {S : Event → Prop} {plan : List (Rect ℤ)} {c n : ℕ} {i width height x y : ℤ}
variable {itemAt : ℤ → Except Fault Item}

/-- The entry at an even or odd position stands in the left or right column, and the next one
beside or below it. -/
theorem drawItems_filled (hitem : ∀ i, Ends (itemAt i) (fun item => S item.event) Aside)
    (hcells : ∀ j < n, plan[c+j]? = some (cell 22 85 j)) (h30 : plan.length ≤ 30)
    (hw : width ≤ 48) (hh : height ≤ 48) {rounds j : ℕ} (hj : j+rounds ≤ n)
    (hi : i%2 = (j:ℤ)%2) (hx : x = 22+85*((j%2:ℕ):ℤ)) (hy : y = 56+85*((j/2:ℕ):ℤ)) {s : Screen}
    (hs : Filled S plan (c+j) s) :
    Ends (drawItems itemAt width height rounds i x y s)
      (fun t => (∃ d ≤ c+n, Filled S plan d t) ∧ t.topIndex = s.topIndex) Aside := by
  induction rounds generalizing i x y j s with
  | zero => exact ⟨⟨c+j,by omega,hs⟩,rfl⟩
  | succ rounds ih =>
    refine ends_bind (hitem i) fun item hev => ?_
    by_cases hn : item.name = ""
    · rw [if_pos hn]
      exact ⟨⟨c+j,by omega,hs⟩,rfl⟩
    · rw [if_neg hn]
      have hcell := hcells j (by omega)
      have hwithin : Within ⟨x,y,width,height⟩ (cell 22 85 j) := by
        simp only [Within, cell]
        omega
      obtain ⟨t,ht,hf,htop⟩ := drawBitmap_filled item.name item.id item.brightness item.on
        item.isSelected (some i) (s := { s with drawn := s.drawn ++ [i] })
        ⟨hs.count,hs.fits,hs.held⟩ hev hcell hwithin h30
      refine ends_bind_ok ht ?_
      rw [← show t.topIndex = s.topIndex from htop]
      by_cases hodd : i%2 = 1
      · rw [if_pos hodd]
        exact ih (j := j+1) (by omega) (by omega) (by omega) (by omega) hf
      · rw [if_neg hodd]
        exact ih (j := j+1) (by omega) (by omega) (by omega) (by omega) hf

theorem drawListFromArray_filled (hitem : ∀ i, Ends (itemAt i) (fun item => S item.event) Aside)
    (hcells : ∀ j < n, plan[c+j]? = some (cell 22 85 j)) (h30 : plan.length ≤ 30)
    (hw : width ≤ 48) (hh : height ≤ 48) {start last bound : ℤ} (hstart : start%2 = 0)
    (hbound : bound-start ≤ n) {s : Screen} (hs : Filled S plan c s) :
    Ends (drawListFromArray itemAt width height start last bound s)
      (fun t => (∃ d ≤ c+n, Filled S plan d t) ∧ t.topIndex = toUInt8 last) Aside :=
  drawItems_filled (j := 0) (s := { s with topIndex := toUInt8 last, drawn := [] }) hitem hcells h30
    hw hh (by omega) hstart rfl rfl ⟨hs.count,hs.fits,hs.held⟩

theorem drawBehaviorsFrom_fills (hS : S .drawBehavior) (behaviors : Fin 20 → Behavior)
    (hcells : ∀ j < n, plan[c+j]? = some (cell 20 80 j)) (h30 : plan.length ≤ 30) {rounds j : ℕ}
    (hj : j+rounds ≤ n) (hx : x = 20+80*((j%2:ℕ):ℤ)) (hy : y = 56+80*((j/2:ℕ):ℤ)) :
    Fills S plan (c+j) (c+j+rounds) (drawBehaviorsFrom behaviors rounds j x y) := by
  induction rounds generalizing x y j with
  | zero => exact fills_pure
  | succ rounds ih =>
    intro s hs
    refine ends_bind (read_ends aside_data behaviors j (by decide)) fun behavior _ => ?_
    have hwithin : Within ⟨x,y,48,48⟩ (cell 20 80 j) := by
      simp only [Within, cell]
      omega
    have hadd := drawBitmap_fills behavior.name j hS (hcells j (by omega)) hwithin h30
    have hrest := fun x y hx hy => ih (j := j+1) (x := x) (y := y) (by omega) hx hy
    rw [show c+j+(rounds+1) = c+(j+1)+rounds by omega]
    refine ends_bind (hadd s hs) fun t ht => ?_
    by_cases hodd : j%2 = 1
    · rw [if_pos hodd]
      exact hrest _ _ (by omega) (by omega) t ht
    · rw [if_neg hodd]
      exact hrest _ _ (by omega) (by omega) t ht

end Columns

def grid : List (Rect ℤ) := (List.range 4).map (cell 22 85)

def gap : List (Rect ℤ) := List.replicate 5 blank

def prev : Rect ℤ := ⟨29,212,55,20⟩

def next : Rect ℤ := ⟨84,212,55,20⟩

def rack : List (Rect ℤ) := bar ++ blank :: grid

structure Turnable (s : Screen) : Prop where
  fits : Fits rack fun k => rect (s.buttons k)
  top : s.topIndex.toNat % 4 = 0

/-- A screen drawn within a plan. A handler that turns the page stands only
where turning it keeps to a plan. -/
structure Tidy (s : Screen) : Prop where
  planned : ∃ (plan : List (Rect ℤ)) (c : ℕ), plan.Pairwise Apart ∧ plan.length ≤ 30 ∧
    c ≤ plan.length ∧ s.buttonCount = c ∧ Fits plan fun k => rect (s.buttons k)
  handled : ∀ k, (s.buttons k).event = none → (s.buttons k).width = 0
  turns : Turnable s ∨ ∀ k e, (s.buttons k).event = some e → Steady e

section Lists
variable {S : Event → Prop} {plan : List (Rect ℤ)} {c d : ℕ} {s u : Screen} {counter : UInt8}

theorem tidy_steady (hp : plan.Pairwise Apart) (h30 : plan.length ≤ 30) (hd : d ≤ plan.length)
    (h : Filled Steady plan d s) : Tidy s :=
  ⟨⟨plan,d,hp,h30,hd,h.count,h.fits⟩,fun k => (h.held k).2,.inr fun k => (h.held k).1⟩

theorem tidy_turnable (hp : plan.Pairwise Apart) (h30 : plan.length ≤ 30) (hd : d ≤ plan.length)
    (h : Filled S plan d s) (ht : Turnable s) : Tidy s :=
  ⟨⟨plan,d,hp,h30,hd,h.count,h.fits⟩,fun k => (h.held k).2,.inl ht⟩

/-- A page with its bar and nothing else. -/
def Fresh (s : Screen) : Prop := ∀ rest, Filled Steady (bar ++ rest) 2 s

def Any (_ : Event) : Prop := True

theorem held_any {b : Button} (h : Held S b) : Held Any b := ⟨fun _ _ => trivial,h.2⟩

theorem grid_cells (front : List (Rect ℤ)) (j : ℕ) (hj : j < 4) :
    (front ++ grid)[front.length+j]? = some (cell 22 85 j) := by
  rw [List.getElem?_append_right (Nat.le_add_right _ _), Nat.add_sub_cancel_left, grid,
    List.getElem?_map, List.getElem?_range hj]
  rfl

theorem row_opened (counter : UInt8) (hu : Fresh u) (h4 : u.topIndex = 4) :
    ∃ t front, drawPaginationButtons counter u = .ok t ∧
      (front = bar ++ gap ∨ front = bar ++ gap ++ [next]) ∧
      ∀ rest, Filled Any (front ++ rest) front.length t := by
  rw [drawPaginationButtons_eq, if_neg (not_not_intro h4)]
  by_cases hn : u.topIndex < counter
  · rw [if_pos hn]
    refine ⟨_,_,rfl,.inr rfl,fun rest => ?_⟩
    have hf := hu (gap ++ [next] ++ rest)
    rw [← List.append_assoc, ← List.append_assoc] at hf
    refine filled_set hf.fits (fun k => held_any (hf.held k)) 7 (held_some rfl trivial) ?_ 8
    intro r hr
    cases Option.some.inj hr
    exact within_refl _
  · rw [if_neg hn]
    refine ⟨_,_,rfl,.inl rfl,fun rest => ?_⟩
    have hf := hu (gap ++ rest)
    rw [← List.append_assoc] at hf
    exact ⟨rfl,hf.fits,fun k => held_any (hf.held k)⟩

theorem row_turned (counter : UInt8) (hfits : Fits rack fun k => rect (s.buttons k))
    (hheld : ∀ k, Held Any (s.buttons k)) :
    ∃ t arrows, drawPaginationButtons counter s = .ok t ∧
      arrows ∈ [[],[prev],[next],[prev,next]] ∧ t.topIndex = s.topIndex ∧
      Filled Any (rack ++ arrows) (rack ++ arrows).length t := by
  have hrack : Filled Any rack rack.length { s with buttonCount := 7 } := ⟨rfl,hfits,hheld⟩
  have hprev : Filled Any (rack ++ [prev]) (rack ++ [prev]).length { s with
      buttons := Function.update s.buttons 7 (arrow 29 .drawPrevPage), buttonCount := 8 } :=
    filled_push hrack 7 rfl (held_some rfl trivial) (within_refl _)
  rw [drawPaginationButtons_eq]
  by_cases h4 : s.topIndex ≠ 4
  · rw [if_pos h4]
    by_cases hn : s.topIndex < counter
    · rw [if_pos hn]
      have hboth := filled_push hprev 8 rfl (b := arrow 84 .drawNextPage) (q := next)
        (held_some rfl trivial) (within_refl _)
      rw [List.append_assoc] at hboth
      exact ⟨_,[prev,next],rfl,by simp,rfl,hboth⟩
    · rw [if_neg hn]
      exact ⟨_,[prev],rfl,by simp,rfl,hprev⟩
  · rw [if_neg h4]
    by_cases hn : s.topIndex < counter
    · rw [if_pos hn]
      exact ⟨_,[next],rfl,by simp,rfl,filled_push hrack 7 rfl (b := arrow 84 .drawNextPage)
        (held_some rfl trivial) (within_refl _)⟩
    · rw [if_neg hn]
      exact ⟨_,[],rfl,by simp,rfl,by rw [List.append_nil]; exact hrack⟩

theorem rack_apart {arrows : List (Rect ℤ)} (h : arrows ∈ [[],[prev],[next],[prev,next]]) :
    (rack ++ arrows).Pairwise Apart ∧ (rack ++ arrows).length ≤ 30 := by
  revert arrows
  decide

/-- A drawing step that fills up to four cells of the grid and then stands at `top`. -/
def Lists (e : Event) (top : UInt8) (f : Screen → Except Fault Screen) : Prop :=
  ∀ S plan c s, S e → plan.length ≤ 30 → (∀ j < 4, plan[c+j]? = some (cell 22 85 j)) →
    Filled S plan c s →
      Ends (f s) (fun t => (∃ d ≤ c+4, Filled S plan d t) ∧ t.topIndex = top) Aside

theorem draw_lists (l : PagedList) (s : Eink) (start last : ℤ) (hstart : start%2 = 0)
    (hlast : last - start ≤ 4) : Lists l.event (toUInt8 last) (l.draw s start last) := by
  intro S plan c u hS h30 hcells hu
  refine drawListFromArray_filled (n := 4) (fun i => ?_) hcells h30 ?_ ?_ hstart ?_ hu
  · exact ends_imp (itemAt_ends aside_data l s i) fun item hi => hi ▸ hS
  · cases l <;> decide
  · cases l <;> decide
  · cases l with
    | rooms | selectable => exact hlast
    | lights =>
      simp only [PagedList.bound]
      split <;> omega

theorem first_lists (l : PagedList) (s : Eink) : Lists l.event 4 (l.draw s 0 4) :=
  draw_lists l s 0 4 (by decide) (by decide)

theorem list_steady (l : PagedList) : Steady l.event := by
  cases l <;> simp [Steady, Turns, PagedList.event]

section Open
variable {l : PagedList} {top : UInt8} {f : Screen → Except Fault Screen}

theorem lists_fresh (hf : Lists l.event top f) (hs : Fresh s) :
    Ends (f s) (fun t => Tidy t) Aside := by
  refine ends_imp (hf Steady (bar ++ grid) 2 s (list_steady l) (by decide)
    (fun j hj => grid_cells bar j hj) (hs grid)) ?_
  rintro t ⟨⟨d,hd,ht⟩,-⟩
  exact tidy_steady (by decide) (by decide) hd ht

theorem lists_paged {front : List (Rect ℤ)} (hf : Lists l.event 4 f)
    (hfront : front = bar ++ gap ∨ front = bar ++ gap ++ [next])
    (hs : ∀ rest, Filled Any (front ++ rest) front.length s) :
    Ends (f s) (fun t => Tidy t) Aside := by
  have hplan : (front ++ grid).Pairwise Apart ∧ (front ++ grid).length ≤ 30 := by
    obtain rfl | rfl := hfront <;> decide
  refine ends_imp (hf Any (front ++ grid) front.length s trivial hplan.2 (grid_cells front)
    (hs grid)) ?_
  rintro t ⟨⟨d,hd,ht⟩,htop⟩
  have hbar : Fits (bar ++ gap) fun k => rect (t.buttons k) := by
    have hleft := fits_left ht.fits
    obtain rfl | rfl := hfront
    · exact hleft
    · exact fits_left hleft
  refine tidy_turnable hplan.1 hplan.2 (by rw [List.length_append]; exact hd) ht
    ⟨fits_widen hbar (by decide),?_⟩
  rw [htop]
  decide

theorem filled_top (h : Filled S plan c s) (top : UInt8) :
    Filled S plan c { s with topIndex := top } := ⟨h.count,h.fits,h.held⟩

theorem list_tidy {paged : Prop} [Decidable paged] {b : Eink}
    {f g : Eink → Screen → Except Fault Screen} {Q : Eink → Prop} (hb : Fresh b.screen)
    (hf : ∀ d : Eink, d.screen.topIndex = 4 → d.house = b.house → Lists l.event 4 (f d))
    (hg : ¬paged → ∃ top, Lists l.event top (g b))
    (hQ : ∀ u, Tidy u → Q { b with screen := u }) :
    Ends (if paged then do
        let s ← onScreen (drawPaginationButtons counter)
          { b with screen := { b.screen with topIndex := 4 } }
        onScreen (f s) s
      else onScreen (g b) b) Q Aside := by
  split
  · obtain ⟨t,front,ht,hfront,hs⟩ := row_opened counter (u := { b.screen with topIndex := 4 })
      (fun rest => filled_top (hb rest) 4) rfl
    have htop : t.topIndex = 4 := (drawPaginationButtons_ok ht).top
    refine ends_bind_ok (onScreen_ok.mpr ⟨t,ht,rfl⟩) ?_
    exact ends_bind (lists_paged (hf _ htop rfl) hfront hs) fun u hu => hQ u hu
  · next hp =>
    obtain ⟨top,hlists⟩ := hg hp
    exact ends_bind (lists_fresh hlists hb) fun u hu => hQ u hu

end Open

theorem toUInt8_mod {n : ℤ} (h : n%4 = 0) : (toUInt8 n).toNat % 4 = 0 := by
  rw [toUInt8, UInt8.toNat_ofNat']
  omega

theorem turnPage_tidy {s : Eink} {start last : ℤ} (hstart : start%4 = 0) (hlast : last = start+4)
    (ht : Tidy s.screen) (hs : Turnable s.screen) {Q : Eink → Prop}
    (hQ : ∀ u, Tidy u → Q { s with screen := u }) : Ends (turnPage start last s) Q Aside := by
  have hheld : ∀ k, Held Any (s.screen.buttons k) := fun k => ⟨fun _ _ => trivial,ht.handled k⟩
  have hthree : Filled Any rack 3 { s.screen with buttonCount := 3 } := ⟨rfl,hs.fits,hheld⟩
  by_cases hl : ∃ l : PagedList, s.screen.currentPageOnScreen = l.text
  · obtain ⟨l,hl⟩ := hl
    rw [turnPage_eq start last hl]
    have hcells : ∀ j < 4, rack[3+j]? = some (cell 22 85 j) := grid_cells (bar ++ [blank])
    refine ends_bind (Q := fun t => ∃ u d, t = { s with screen := u } ∧ Filled Any rack d u ∧
      u.topIndex = toUInt8 last) ?_ ?_
    · refine ends_bind (draw_lists l s start last (by omega) (by omega) Any rack 3 _ trivial
        (by decide) hcells hthree) ?_
      rintro u ⟨⟨d,-,hu⟩,htop⟩
      exact ⟨u,d,rfl,hu,htop⟩
    · rintro t ⟨u,d,rfl,hu,htop⟩
      obtain ⟨v,arrows,hv,harrows,hvtop,hfilled⟩ := row_turned
        (l.counter { s with screen := u }) hu.fits hu.held
      refine ends_bind_ok hv ?_
      have hplan := rack_apart harrows
      refine hQ v (tidy_turnable hplan.1 hplan.2 (le_refl _) hfilled ⟨fits_left hfilled.fits,?_⟩)
      rw [hvtop, htop]
      exact toUInt8_mod (by omega)
  · have hnone : turnPage start last s =
        .ok { s with screen := { s.screen with buttonCount := 3 } } := by
      rw [turnPage]
      exact (if_neg fun h => hl ⟨.rooms,h⟩).trans
        ((if_neg fun h => hl ⟨.lights,h⟩).trans (if_neg fun h => hl ⟨.selectable,h⟩))
    rw [hnone]
    exact hQ _ (tidy_turnable (by decide) (by decide) (by decide) hthree ⟨hs.fits,hs.top⟩)

end Lists

end THue.ScreenPlan
