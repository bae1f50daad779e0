import THue.PageDrawing
import THue.BridgeArrays

/-!
# The bounds of the lists

A page shows four entries of a list and may stop at an empty name. It reads
inside the array of the list where it may start, and beyond it everywhere else;
the arrows that a touch finds say how far the list has been turned.
-/

set_option autoImplicit false

namespace THue.ListBounds
open THue.Globals THue.CheckedArray THue.FaultRun THue.Entertainment THue.BehaviorTask
open THue.TouchScreen THue.Bridge THue.Pages THue.PagedLists THue.PageDrawing THue.BridgeArrays

/-- What a handler at slot `k` may be: an arrow only where `P` says, and an entry
of the room list with its index. -/
def Allowed (P : Fin 30 → Event → Prop) (k : Fin 30) (e : Event) (id : ℤ) : Prop :=
  (Turns e → P k e) ∧ (e = .drawRoom → 0 ≤ id ∧ id < 50)

def Holds (P : Fin 30 → Event → Prop) (s : Screen) : Prop :=
  ∀ k e, (s.buttons k).event = some e → Allowed P k e (s.buttons k).id

def Adds (P : Fin 30 → Event → Prop) (f : Screen → Except Fault Screen) : Prop :=
  ∀ s, Holds P s → Ends (f s) (fun t => Holds P t ∧
    t.currentPageOnScreen = s.currentPageOnScreen ∧ t.topIndex = s.topIndex) Inside

def Usual (e : Event) : Prop := ¬Turns e ∧ e ≠ .drawRoom

instance usual_decidable (e : Event) : Decidable (Usual e) :=
  inferInstanceAs (Decidable (¬(_ ∨ _) ∧ _))

def Still (_ : Fin 30) (_ : Event) : Prop := False

section Drawing
variable {P : Fin 30 → Event → Prop} {f g : Screen → Except Fault Screen} {s t : Screen}

theorem holds_update {b : Button} {i : Fin 30} (hs : Holds P s)
    (hb : ∀ e, b.event = some e → Allowed P i e b.id) :
    Holds P { s with buttons := Function.update s.buttons i b } := by
  intro k e he
  dsimp only at he ⊢
  by_cases hk : k = i
  · subst hk
    rw [Function.update_self] at he ⊢
    exact hb e he
  · rw [Function.update_of_ne hk] at he ⊢
    exact hs k e he

theorem usual_allowed {e : Event} (h : Usual e) (k : Fin 30) (id : ℤ) : Allowed P k e id :=
  ⟨fun ht => absurd ht h.1,fun hr => absurd hr h.2⟩

theorem turns_allowed {k : Fin 30} {e : Event} (ht : Turns e) (h : P k e) (id : ℤ) :
    Allowed P k e id := by
  refine ⟨fun _ => h,?_⟩
  rintro rfl
  obtain ht | ht := ht <;> cases ht

theorem adds_allowed {b : Button} (hb : ∀ k e, b.event = some e → Allowed P k e b.id) :
    Adds P (addButtonToArray b) := by
  intro s hs
  rw [addButtonToArray, write]
  split
  · exact ⟨holds_update hs fun e he => hb _ e he,rfl,rfl⟩
  · exact inside (by decide) _

theorem adds_button {b : Button} {e : Event} (he : b.event = some e) (hu : Usual e) :
    Adds P (addButtonToArray b) :=
  adds_allowed fun k _ h => Option.some.inj (he.symm.trans h) ▸ usual_allowed hu k b.id

theorem adds_pure : Adds P pure := fun _ hs => ⟨hs,rfl,rfl⟩

theorem adds_bind (hf : Adds P f) (hg : Adds P g) : Adds P (fun s => f s >>= g) := by
  intro s hs
  refine ends_bind (hf s hs) fun t ht => ends_imp (hg t ht.1) fun u hu => ?_
  exact ⟨hu.1,hu.2.1.trans ht.2.1,hu.2.2.trans ht.2.2⟩

theorem adds_when {c : Prop} [Decidable c] (hf : Adds P f) (hg : Adds P g) :
    Adds P (fun s => if c then f s >>= g else pure s >>= g) := by
  intro s hs
  by_cases hc : c
  · simp only [hc, if_true]
    exact adds_bind hf hg s hs
  · simp only [hc, if_false]
    exact hg s hs

def Entry (item : Item) : Prop :=
  ¬Turns item.event ∧ (item.event = .drawRoom → 0 ≤ item.id ∧ item.id < 50)

/-- The entries from `i` on are inside the array, up to the first without a name. -/
def Readable (itemAt : ℤ → Except Fault Item) : ℕ → ℤ → Prop
  | 0, _ => True
  | rounds+1, i => Ends (itemAt i)
      (fun item => Entry item ∧ (item.name = "" ∨ Readable itemAt rounds (i+1))) Inside

theorem items_add {itemAt : ℤ → Except Fault Item} {width height : ℤ} {rounds : ℕ} {i x y : ℤ}
    (h : Readable itemAt rounds i) : Adds P (drawItems itemAt width height rounds i x y) := by
  induction rounds generalizing i x y with
  | zero => exact adds_pure
  | succ rounds ih =>
    intro s hs
    refine ends_bind h ?_
    rintro item ⟨⟨hturn,hroom⟩,hrest⟩
    by_cases hn : item.name = ""
    · rw [if_pos hn]
      exact ⟨hs,rfl,rfl⟩
    · rw [if_neg hn]
      have hmore := hrest.resolve_left hn
      refine adds_bind (adds_allowed fun k e he => ?_) (fun t ht => ?_)
        { s with drawn := s.drawn ++ [i] } hs
      · exact Option.some.inj he ▸ ⟨fun ht => absurd ht hturn,hroom⟩
      · split <;> exact ih hmore t ht

theorem list_adds {itemAt : ℤ → Except Fault Item} {width height start last bound : ℤ}
    (h : Readable itemAt (bound-start).toNat start) (hs : Holds P s) :
    Ends (drawListFromArray itemAt width height start last bound s)
      (fun t => Holds P t ∧ t.currentPageOnScreen = s.currentPageOnScreen ∧
        t.topIndex = toUInt8 last) Inside :=
  items_add h { s with topIndex := toUInt8 last, drawn := [] } hs

theorem headed_holds (text : String) (s : Screen) : Holds P (headed text s) := by
  rw [headed]
  refine holds_update (holds_update (s := { s with
    buttons := fun _ => {}, buttonCount := 2, currentPageOnScreen := text }) ?_ ?_) ?_
  · intro k e he
    cases he
  · intro e he
    obtain rfl := Option.some.inj he
    split <;> exact usual_allowed (by decide) _ _
  · intro e he
    obtain rfl := Option.some.inj he
    exact usual_allowed (by decide) _ _

theorem row_opens {counter : UInt8} (hs : Holds Still s) (h4 : s.topIndex = 4) :
    Ends (drawPaginationButtons counter s)
      (fun t => Holds (fun k e => 7 ≤ k.val ∧ e = .drawNextPage) t ∧ t.topIndex = s.topIndex)
      Inside := by
  have hold : Holds (fun k e => 7 ≤ k.val ∧ e = .drawNextPage) s :=
    fun k e he => ⟨fun ht => absurd ((hs k e he).1 ht) id,(hs k e he).2⟩
  rw [drawPaginationButtons_eq, if_neg (not_not_intro h4), ends_ok]
  split
  · refine ⟨holds_update hold fun e he => ?_,rfl⟩
    obtain rfl := Option.some.inj he
    exact turns_allowed (Or.inl rfl) ⟨by decide,rfl⟩ _
  · exact ⟨hold,rfl⟩

/-- The row after a turn puts its arrows behind the entries. -/
theorem row_turns {counter : UInt8} (hs : Holds (fun k _ => 7 ≤ k.val) s) :
    Ends (drawPaginationButtons counter s)
      (fun t => Holds (fun k _ => 7 ≤ k.val) t ∧
        t.currentPageOnScreen = s.currentPageOnScreen ∧ t.topIndex = s.topIndex ∧
        ∀ k : Fin 30, (k.val:ℤ) < t.buttonCount → ∀ e, (t.buttons k).event = some e → Turns e →
          (e = .drawPrevPage ∧ s.topIndex ≠ 4) ∨ (e = .drawNextPage ∧ s.topIndex < counter))
      Inside := by
  cases hdraw : drawPaginationButtons counter s with
  | error e =>
    rw [drawPaginationButtons_eq] at hdraw
    cases hdraw
  | ok t =>
    have hrow := drawPaginationButtons_ok hdraw
    have hlive : ∀ k : Fin 30, 7 ≤ k.val → (k.val:ℤ) < t.buttonCount → ∀ e,
        (t.buttons k).event = some e → (e = .drawPrevPage ∧ s.topIndex ≠ 4) ∨
          (e = .drawNextPage ∧ s.topIndex < counter) := by
      intro k h7 hk e he
      obtain ⟨hp,h4⟩ | ⟨hn,hlt⟩ := hrow.turns k h7 hk
      · exact Or.inl ⟨Option.some.inj (he.symm.trans hp),h4⟩
      · exact Or.inr ⟨Option.some.inj (he.symm.trans hn),hlt⟩
    refine ⟨fun k e he => ?_,hrow.page,hrow.top,fun k hk e he ht => ?_⟩
    · by_cases hk : 7 ≤ k.val ∧ (k.val:ℤ) < t.buttonCount
      · have hturn : Turns e := (hlive k hk.1 hk.2 e he).symm.imp And.left And.left
        exact turns_allowed hturn hk.1 _
      · have hsame : t.buttons k = s.buttons k := by
          by_cases h7 : k.val < 7
          · exact hrow.below k h7
          · exact hrow.beyond k (by omega)
        rw [hsame] at he ⊢
        exact hs k e he
    · by_cases h7 : 7 ≤ k.val
      · exact hlive k h7 hk e he
      · rw [hrow.below k (by omega)] at he
        exact absurd ((hs k e he).1 ht) h7

end Drawing

def cells : PagedList → ℕ
  | .rooms | .lights => 50
  | .selectable => 20

/-- A page of the list may start at `i`: its four entries are inside the array,
or an empty name ends the last page of the rooms. -/
def Upto (h : House) (l : PagedList) (i : ℕ) : Prop :=
  i+4 ≤ cells l ∨ (l = .rooms ∧ i = 48 ∧ ∃ j : Fin 50, 48 ≤ j.val ∧ (h.rooms j).name = "")

instance upto_decidable (h : House) (l : PagedList) (i : ℕ) : Decidable (Upto h l i) :=
  inferInstanceAs (Decidable (_ ∨ _))

/-- What an arrow on a page of the list promises; the next page of the other two
lists may lie outside their arrays. -/
structure Leads (l : PagedList) (top : UInt8) (e : Event) : Prop where
  four : top.toNat%4 = 0 ∧ 4 ≤ top.toNat
  next : e = .drawNextPage → l = .lights → top.toNat+4 ≤ cells l
  prev : e = .drawPrevPage → 8 ≤ top.toNat ∧ top.toNat-4 ≤ cells l

/-- The handlers of a screen, and where the arrows that a touch finds lead. -/
structure Paged (s : Screen) : Prop where
  holds : Holds (fun k _ => 7 ≤ k.val) s
  live : ∀ k : Fin 30, (k.val:ℤ) < s.buttonCount → ∀ e, (s.buttons k).event = some e → Turns e →
    ∀ l : PagedList, s.currentPageOnScreen = l.text → Leads l s.topIndex e

structure Ranged (s : Eink) : Prop where
  house : Fitted s.house
  paged : Paged s.screen

section Lists
variable {h : House} {l : PagedList} {s : Eink} {u : Screen}

theorem still_paged (hu : Holds Still u) : Paged u :=
  ⟨fun k e he => ⟨fun ht => absurd ((hu k e he).1 ht) id,(hu k e he).2⟩,
    fun k _ e he ht => absurd ((hu k e he).1 ht) id⟩

theorem selectedFrom_inside (b : Behavior) (id : UInt8) (rounds p : ℕ) :
    Ends (selectedFrom b id rounds p) (fun _ => True) Inside := by
  induction rounds generalizing p with
  | zero => trivial
  | succ rounds ih =>
    exact ends_bind (other_read b.lightIds p (by decide)) fun _ _ =>
      ends_bind (ih (p+1)) fun _ _ => trivial

theorem itemAt_inside {i : ℤ} (h0 : 0 ≤ i) (hi : i < cells l) :
    Ends (l.itemAt s i) (fun item => Entry item ∧
      ∀ k : Fin 50, l = .rooms → (k.val:ℤ) = i → item.name = (s.house.rooms k).name) Inside := by
  cases l with
  | rooms =>
    refine ends_bind (inside_read s.house.rooms _ h0 hi) ?_
    rintro room ⟨k,hk,rfl⟩
    refine ⟨⟨by simp [Turns],fun _ => ⟨h0,hi⟩⟩,fun j _ hj => ?_⟩
    rw [show j = k from Fin.ext (by omega)]
  | lights =>
    refine ends_bind (inside_read s.house.lights _ h0 hi) fun light _ => ?_
    exact ⟨⟨by simp [Turns],fun hr => by cases hr⟩,fun j hl => by cases hl⟩
  | selectable =>
    refine ends_bind (inside_read s.house.entertainmentLights _ h0 hi) fun light _ => ?_
    split
    · exact ⟨⟨by simp [Turns],fun hr => by cases hr⟩,fun j hl => by cases hl⟩
    · refine ends_bind (selectedFrom_inside _ _ _ _) fun b _ => ?_
      exact ⟨⟨by simp [Turns],fun hr => by cases hr⟩,fun j hl => by cases hl⟩

theorem readable_inside {rounds : ℕ} {i : ℤ} (h0 : 0 ≤ i) (hi : i+rounds ≤ cells l) :
    Readable (l.itemAt s) rounds i := by
  induction rounds generalizing i with
  | zero => trivial
  | succ rounds ih =>
    refine ends_imp (itemAt_inside h0 (by omega)) fun item hitem => ?_
    exact ⟨hitem.1,Or.inr (ih (by omega) (by omega))⟩

theorem readable_stops {rounds : ℕ} {i : ℕ} {j : Fin 50} (hij : i ≤ j.val)
    (hj : (s.house.rooms j).name = "") : Readable (PagedList.rooms.itemAt s) rounds i := by
  induction rounds generalizing i with
  | zero => trivial
  | succ rounds ih =>
    have hlt : (i:ℤ) < cells .rooms := by
      have := j.isLt
      show (i:ℤ) < (50:ℕ)
      omega
    refine ends_imp (itemAt_inside (by omega) hlt) fun item hitem => ?_
    refine ⟨hitem.1,?_⟩
    by_cases he : i = j.val
    · exact Or.inl ((hitem.2 j rfl (by omega)).trans hj)
    · exact Or.inr (by exact_mod_cast ih (i := i+1) (by omega))

theorem bound_le (last : ℤ) : l.bound s last ≤ last := by
  cases l with
  | lights =>
    simp only [PagedList.bound]
    split <;> omega
  | rooms | selectable => exact le_refl last

theorem page_readable {i : ℕ} (hi : Upto s.house l i) :
    Readable (l.itemAt s) (l.bound s (i+4) - i).toNat i := by
  have hbound := bound_le (l := l) (s := s) (i+4)
  obtain hle | ⟨rfl,rfl,j,hj,hname⟩ := hi
  · exact readable_inside (by omega) (by omega)
  · exact readable_stops hj hname

theorem upto_cells {i : ℕ} (hi : Upto h l i) : i ≤ cells l := by
  obtain hle | ⟨rfl,rfl,-⟩ := hi
  · omega
  · decide

theorem cells_le (l : PagedList) : cells l ≤ 50 := by
  cases l <;> decide

theorem draw_adds (P : Fin 30 → Event → Prop) {i : ℕ} (hi : Upto s.house l i)
    (hu : Holds P u) :
    Ends (l.draw s i (i+4) u) (fun t => Holds P t ∧
      t.currentPageOnScreen = u.currentPageOnScreen ∧ t.topIndex = toUInt8 (i+4)) Inside :=
  list_adds (page_readable hi) hu

theorem row_leads (hs : Fitted s.house) {i : ℕ} (hmod : i%4 = 0) (hi : Upto s.house l i)
    {top : UInt8} (htop : top.toNat = i+4) {e : Event}
    (he : (e = .drawPrevPage ∧ top ≠ 4) ∨ (e = .drawNextPage ∧ top < l.counter s)) :
    Leads l top e := by
  have hcells := upto_cells hi
  refine ⟨by omega,?_,?_⟩
  · rintro rfl rfl
    obtain ⟨hp,-⟩ | ⟨-,hlt⟩ := he
    · cases hp
    · have hlt : top.toNat < s.house.lightCount.toNat := UInt8.lt_iff_toNat_lt.mp hlt
      have hcount := hs.count
      show _ ≤ 50
      omega
  · rintro rfl
    obtain ⟨-,h4⟩ | ⟨hn,-⟩ := he
    · have hne : top.toNat ≠ 4 := fun h => h4 (UInt8.toNat_inj.mp h)
      omega
    · cases hn

theorem text_inj {l m : PagedList} (h : l.text = m.text) : l = m := by
  revert h
  cases l <;> cases m <;> decide

/-- A turn to a page that may start. -/
structure Turnable (s : Eink) (l : PagedList) (start last : ℤ) (i : ℕ) : Prop where
  start : start = i
  last : last = i+4
  four : i%4 = 0
  upto : Upto s.house l i

theorem turnPage_ranged {start last : ℤ} (hs : Ranged s)
    (hi : ∀ l : PagedList, s.screen.currentPageOnScreen = l.text →
      ∃ i, Turnable s l start last i) : Ends (turnPage start last s) Ranged Inside := by
  obtain ⟨hhouse,hholds,-⟩ := hs
  by_cases hl : ∃ l : PagedList, s.screen.currentPageOnScreen = l.text
  · obtain ⟨l,hl⟩ := hl
    obtain ⟨i,rfl,rfl,hmod,hupto⟩ := hi l hl
    have hsmall := (upto_cells hupto).trans (cells_le l)
    have htop : (toUInt8 ((i:ℤ)+4)).toNat = i+4 := by
      exact_mod_cast toUInt8_cast (n := (i:ℤ)+4) (by omega) (by omega)
    rw [turnPage_eq i (i+4) hl]
    refine ends_bind (Q := fun t => ∃ v, t = { s with screen := v } ∧
      Holds (fun k _ => 7 ≤ k.val) v ∧ v.currentPageOnScreen = s.screen.currentPageOnScreen ∧
        v.topIndex = toUInt8 ((i:ℤ)+4)) ?_ ?_
    · refine ends_bind (draw_adds _ hupto (u := { s.screen with buttonCount := 3 }) hholds)
        fun v hv => ⟨v,rfl,hv⟩
    · rintro t ⟨v,rfl,hv,hpage,hvtop⟩
      have hcounter : l.counter { s with screen := v } = l.counter s := by cases l <;> rfl
      rw [hcounter]
      refine ends_bind (row_turns hv) fun w hw => ?_
      obtain ⟨hholds,hwpage,hwtop,hlive⟩ := hw
      refine ⟨hhouse,hholds,fun k hk e he ht m hm => ?_⟩
      obtain rfl := text_inj (hm.symm.trans (hwpage.trans (hpage.trans hl)))
      have he := hlive k hk e he ht
      rw [← hwtop] at he
      exact row_leads hhouse hmod hupto (by rw [hwtop, hvtop, htop]) he
  · have hno := fun l : PagedList => fun h => hl ⟨l,h⟩
    have hturn : turnPage start last s =
        .ok { s with screen := { s.screen with buttonCount := 3 } } :=
      (if_neg (hno .rooms)).trans ((if_neg (hno .lights)).trans (if_neg (hno .selectable)))
    rw [hturn]
    exact ⟨hhouse,hholds,fun k _ e _ _ l hpage => absurd hpage (hno l)⟩

/-! A page that may not start ends in a fault. -/

/-- The entries from `i` on have names up to one outside its array. -/
def Leaves (itemAt : ℤ → Except Fault Item) : ℕ → ℤ → Prop
  | 0, _ => False
  | rounds+1, i => Ends (itemAt i) (fun item => item.name ≠ "" ∧ Leaves itemAt rounds (i+1))
      (fun e => ¬Inside e)

theorem items_leave {itemAt : ℤ → Except Fault Item} {width height : ℤ} {rounds c : ℕ}
    {i x y : ℤ} (h : Leaves itemAt rounds i) (hc : u.buttonCount = c) (h30 : c+rounds ≤ 30) :
    Ends (drawItems itemAt width height rounds i x y u) (fun _ => False) (fun e => ¬Inside e) := by
  induction rounds generalizing i x y c u with
  | zero => exact h.elim
  | succ rounds ih =>
    refine ends_bind h ?_
    rintro item ⟨hname,hrest⟩
    rw [if_neg hname]
    refine ends_bind_ok (addButton_at _ c (by omega) hc) ?_
    split
    · exact ih hrest rfl (by omega)
    · exact ih hrest rfl (by omega)

theorem itemAt_outside {i : ℤ} (hl : l ≠ .lights) (hi : cells l ≤ i) :
    Ends (l.itemAt s i) (fun _ => False) (fun e => ¬Inside e) := by
  cases l with
  | rooms =>
    have hi : ((50:ℕ):ℤ) ≤ i := hi
    refine ends_bind (Q := fun _ => False) ?_ fun _ h => h.elim
    rw [read_outside s.house.rooms _ i (by omega)]
    exact fun h => h .rooms (by decide) i rfl
  | lights => exact absurd rfl hl
  | selectable =>
    have hi : ((20:ℕ):ℤ) ≤ i := hi
    refine ends_bind (Q := fun _ => False) ?_ fun _ h => h.elim
    rw [read_outside s.house.entertainmentLights _ i (by omega)]
    exact fun h => h .entertainmentLights (by decide) i rfl

theorem last_leaves (hname : ∀ j : Fin 50, 48 ≤ j.val → (s.house.rooms j).name ≠ "") :
    Leaves (PagedList.rooms.itemAt s) 4 48 := by
  have hroom : ∀ j : Fin 50, 48 ≤ j.val → ∃ item, PagedList.rooms.itemAt s j.val = .ok item ∧
      item.name ≠ "" :=
    fun j hj => ⟨_,bind_ok.mpr ⟨_,read_inside s.house.rooms _ j.val j.isLt,rfl⟩,hname j hj⟩
  obtain ⟨item,hitem,hn⟩ := hroom 48 (by decide)
  obtain ⟨next,hnext,hm⟩ := hroom 49 (by decide)
  have hend : Leaves (PagedList.rooms.itemAt s) 2 50 :=
    ends_imp (itemAt_outside (by decide) (by decide)) fun _ h => h.elim
  show Ends (PagedList.rooms.itemAt s 48) _ _
  rw [show PagedList.rooms.itemAt s 48 = _ from hitem]
  refine ⟨hn,?_⟩
  show Ends (PagedList.rooms.itemAt s 49) _ _
  rw [show PagedList.rooms.itemAt s 49 = _ from hnext]
  exact ⟨hm,hend⟩

theorem page_leaves {i : ℕ} (hl : l ≠ .lights) (hmod : i%4 = 0) (hi : ¬Upto s.house l i) :
    Leaves (l.itemAt s) (l.bound s (i+4) - i).toNat i := by
  have hrounds : (l.bound s (i+4) - i).toNat = 4 := by
    cases l with
    | lights => exact absurd rfl hl
    | rooms | selectable =>
      simp only [PagedList.bound]
      omega
  have hfar : ¬i+4 ≤ cells l := fun h => hi (Or.inl h)
  rw [hrounds]
  by_cases hlast : cells l ≤ i
  · exact ends_imp (itemAt_outside hl (by exact_mod_cast hlast)) fun _ h => h.elim
  · cases l with
    | lights => exact absurd rfl hl
    | rooms =>
      have h46 : ¬i+4 ≤ 50 := hfar
      have h50 : ¬50 ≤ i := hlast
      obtain rfl : i = 48 := by omega
      exact last_leaves fun j hj hn => hi (Or.inr ⟨rfl,rfl,j,hj,hn⟩)
    | selectable =>
      have h16 : ¬i+4 ≤ 20 := hfar
      have h20 : ¬20 ≤ i := hlast
      omega

end Lists

end THue.ListBounds
