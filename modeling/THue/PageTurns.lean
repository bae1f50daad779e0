import THue.PagedLists

/-!
# Turning the pages of a list

Which list buttons a touch can hit after any sequence of turns. A turn keeps
the cells between the entries it draws and the pagination row, so they still
hold entries of an earlier page whenever that page was fuller.
-/

set_option autoImplicit false

namespace THue.PageTurns
open THue.Globals THue.Entertainment THue.CheckedArray THue.FaultRun THue.TouchScreen
open THue.Bridge THue.Pages THue.PagedLists THue.PagedLists.PagedList

def pages : ℕ → List Turn → List ℕ
  | _, [] => []
  | w, d::ds => d.from w :: pages (d.from w) ds

def Listed (b : Button) : Prop :=
  b.event = some .drawLight ∨ b.event = some .drawRoom ∨ b.event = some .selectLight

/-- A list button that a touch can hit. -/
def Hits (s : Screen) (k : Fin 30) : Prop :=
  (k.val:ℤ) < s.buttonCount ∧ (s.buttons k).width ≠ 0 ∧ (s.buttons k).height ≠ 0 ∧
    Listed (s.buttons k)

/-- The list buttons that can be hit are those of the entries drawn. -/
structure Exact (l : PagedList) (s : Eink) : Prop where
  drawn : ∀ k, Hits s.screen k → ∃ p ∈ s.screen.drawn, l.Shows s p (s.screen.buttons k)
  hit : ∀ p ∈ s.screen.drawn, ∃! k, Hits s.screen k ∧ l.Shows s p (s.screen.buttons k)

/-- The cells below the pagination row: plain ones, and `m` that hold an entry of some page. -/
structure Shelf (l : PagedList) (m : ℕ) (s : Eink) : Prop where
  room : m ≤ 4
  plain : ∀ k : Fin 30, k.val < 3 ∨ (3+m ≤ k.val ∧ k.val < 7) → Plain (s.screen.buttons k)
  used : ∀ k : Fin 30, 3 ≤ k.val → k.val < 3+m →
    ∃ p : ℤ, l.Shows s p (s.screen.buttons k) ∧ p % 4 = (k.val-3:ℕ)

structure Ready (l : PagedList) (m w : ℕ) (s : Eink) : Prop where
  shelf : Shelf l m s
  page : s.screen.currentPageOnScreen = l.text
  top : s.screen.topIndex = toUInt8 (w+4)
  inside : w < 50
  four : w % 4 = 0
  next : ∀ k : Fin 30, (k.val:ℤ) < s.screen.buttonCount →
    (s.screen.buttons k).event = some .drawNextPage → (w:ℤ)+4 < l.bound s (w+8)
  prev : ∀ k : Fin 30, (k.val:ℤ) < s.screen.buttonCount →
    (s.screen.buttons k).event = some .drawPrevPage → 4 ≤ w

variable {l : PagedList} {s t u : Eink} {m w : ℕ}

theorem size_ne (l : PagedList) : l.size ≠ 0 := by
  cases l <;> decide

theorem shows_hits {p : ℤ} {k : Fin 30} (hk : (k.val:ℤ) < s.screen.buttonCount)
    (h : l.Shows t p (s.screen.buttons k)) : Hits s.screen k := by
  refine ⟨hk,?_,?_,?_⟩
  · rw [h.width]
    exact size_ne l
  · rw [h.height]
    exact size_ne l
  · rw [Listed, shows_event h]
    cases l <;> decide

theorem plain_misses {k : Fin 30} (h : Plain (s.screen.buttons k)) : ¬Hits s.screen k := by
  rintro ⟨-,-,-,hl | hl | hl⟩
  · exact h.2.1 hl
  · exact h.1 hl
  · exact h.2.2.1 hl

theorem shows_same {p q : ℤ} {b : Button} (hp : l.Shows s p b) (hq : l.Shows t q b) : p = q :=
  Option.some.inj (hp.position.symm.trans hq.position)

theorem exact_of_cells {c f : ℕ} (hf : ∀ k : Fin 30, c ≤ k.val → k.val < c+f →
      (k.val:ℤ) < s.screen.buttonCount ∧ l.Shows s (w+(k.val-c:ℕ)) (s.screen.buttons k))
    (hroom : f ≠ 0 → c+f ≤ 30)
    (hmiss : ∀ k : Fin 30, (k.val:ℤ) < s.screen.buttonCount → k.val < c ∨ c+f ≤ k.val →
      ¬Hits s.screen k)
    (hd : s.screen.drawn = (List.range f).map (fun j : ℕ => (w:ℤ)+j)) : Exact l s := by
  refine ⟨fun k hk => ?_,fun p hp => ?_⟩
  · have hin : c ≤ k.val ∧ k.val < c+f := by
      by_contra hn
      exact hmiss k hk.1 (by omega) hk
    refine ⟨_,?_,(hf k hin.1 hin.2).2⟩
    rw [hd]
    exact List.mem_map.mpr ⟨k.val-c,List.mem_range.mpr (by omega),rfl⟩
  · rw [hd] at hp
    obtain ⟨j,hj,rfl⟩ := List.mem_map.mp hp
    rw [List.mem_range] at hj
    have := hroom (by omega)
    obtain ⟨hc,hs⟩ := hf ⟨c+j,by omega⟩ (by simp) (by simpa using hj)
    rw [Nat.add_sub_cancel_left] at hs
    refine ⟨⟨c+j,by omega⟩,⟨shows_hits hc hs,hs⟩,fun k hk => Fin.ext ?_⟩
    have hin : c ≤ k.val ∧ k.val < c+f := by
      by_contra hn
      exact hmiss k hk.1.1 (by omega) hk.1
    have := shows_same (hf k hin.1 hin.2).2 hk.2
    simp only at this ⊢
    omega

theorem clear_misses {k : Fin 30} (h : Clear (s.screen.buttons k)) : ¬Hits s.screen k :=
  plain_misses h.1

theorem turn_misses {k : Fin 30} {d : Turn} (h : (s.screen.buttons k).event = some d.event) :
    ¬Hits s.screen k := by
  rintro ⟨-,-,-,hl⟩
  rw [Listed, h] at hl
  cases d <;> simp [Turn.event] at hl

theorem opened_exact {last : ℤ} {c f : ℕ} (h : Opened l last c f t)
    (hmiss : ∀ k : Fin 30, k.val < c → ¬Hits t.screen k) : Exact l t := by
  have hc := h.count
  refine exact_of_cells (w := 0) (fun k h1 h2 => ⟨by omega,?_⟩) h.room (fun k hk hout => ?_) ?_
  · simpa using h.items k h1 h2
  · exact hmiss k (by omega)
  · simpa using h.drawn

theorem opening_exact {counter : UInt8} {last : ℤ} {paged : Bool}
    (h : Opening l counter last t paged) :
    Exact l t := by
  cases h with
  | whole f ho hk => exact opened_exact ho fun k h2 => clear_misses (hk k h2)
  | paged c f ho hr hk =>
    refine opened_exact ho fun k hkc => ?_
    by_cases h7 : k.val < 7
    · exact clear_misses (hk k h7)
    · exact turn_misses (d := .next) (hr.next k (by omega) hkc).1

theorem bound_next {c : UInt8} (hc : l = .lights → c = t.house.lightCount)
    (h : w+4 < c.toNat) : (w:ℤ)+4 < l.bound t (w+8) := by
  cases l with
  | rooms => simp only [bound]; omega
  | lights =>
    rw [hc rfl] at h
    simp only [bound]
    split <;> omega
  | selectable => simp only [bound]; omega

theorem opening_ready {counter : UInt8} {last : ℤ} (h : Opening l counter last t true)
    (hc : l = .lights → counter = t.house.lightCount) : Ready l 0 0 t := by
  cases h with
  | paged c f ho hr hk =>
    have hcount := ho.count
    have hrow : ∀ k : Fin 30, (k.val:ℤ) < t.screen.buttonCount → ∀ d : Turn,
        (t.screen.buttons k).event = some d.event → k.val < c ∧ 7 ≤ k.val := by
      intro k hkc d he
      have h7 : ¬k.val < 7 := fun h7 => plain_turn (hk k h7).1 d he
      by_contra hn
      exact shows_turn (ho.items k (by omega) (by omega)) d he
    refine ⟨⟨by omega,fun k hk' => ?_,fun k h1 h2 => by omega⟩,ho.page,ho.top,by omega,rfl,
      fun k hkc he => ?_,fun k hkc he => ?_⟩
    · exact (hk k (by omega)).1
    · obtain ⟨hlt,h7⟩ := hrow k hkc .next he
      exact bound_next hc (by simpa using UInt8.lt_iff_toNat_lt.mp (hr.next k h7 hlt).2)
    · obtain ⟨hlt,h7⟩ := hrow k hkc .prev he
      rw [(hr.next k h7 hlt).1] at he
      cases he

theorem tap_turned {m : Tap} {n : ℕ} (h : Ready l n w s) (ho : Offered s m) (ht : tap s m = .ok t) :
    Turned l (m.turn.from w) s t ∧ m.turn.from w < 50 ∧ m.turn.from w % 4 = 0 := by
  obtain ⟨k,-,hk,he⟩ := turnAt_some ho
  obtain ⟨i,hi⟩ := touch_turn (a := m.answers) ho
  have hprev : m.turn = .prev → 4 ≤ w := fun hd => h.prev k hk (by rw [he, hd]; rfl)
  have hfour := h.four
  rw [tap, hi] at ht
  let p : Eink := { s with pressedButton := s.screen.buttons i }
  rw [turn_apply (s := p) h.top h.inside hprev] at ht
  refine ⟨turned_press (turnPage_turned (s := p) h.page ht),?_,?_⟩
  · cases hd : m.turn with
    | next =>
      rw [hd] at ht he
      refine turnPage_inside (s := p) h.page ht ?_
      rw [bound_congr (s := s) (t := p) _ ⟨rfl,rfl⟩, show Turn.from w .next = w+4 from rfl,
        show ((w+4:ℕ):ℤ)+4 = w+8 by omega]
      exact h.next k hk he
    | prev =>
      have := h.inside
      simp only [Turn.from]
      omega
  · cases hd : m.turn with
    | next =>
      simp only [Turn.from]
      omega
    | prev =>
      have := hprev hd
      simp only [Turn.from]
      omega

theorem turned_ready {n v : ℕ} (h : Ready l n w s) (ht : Turned l v s t) (hv : v < 50)
    (h4 : v % 4 = 0) : Ready l (max n (l.fill s v)) v t := by
  have hf := fill_le (l := l) (s := s) v
  have hn := h.shelf.room
  have hcount := ht.count
  have htop : t.screen.topIndex.toNat = v+4 := by
    rw [ht.top]
    exact_mod_cast toUInt8_toNat (n := v+4) (by omega)
  have hturns : ∀ k : Fin 30, (k.val:ℤ) < t.screen.buttonCount → ∀ d : Turn,
      (t.screen.buttons k).event = some d.event → 7 ≤ k.val := by
    intro k hk d he
    by_contra h7
    by_cases hin : 3 ≤ k.val ∧ k.val < 3+l.fill s v
    · exact shows_turn (ht.items k hin.1 hin.2) d he
    · rw [ht.kept k (by omega)] at he
      by_cases hu : 3 ≤ k.val ∧ k.val < 3+n
      · obtain ⟨p,hp,-⟩ := h.shelf.used k hu.1 hu.2
        exact shows_turn hp d he
      · exact plain_turn (h.shelf.plain k (by omega)) d he
  refine ⟨⟨by omega,fun k hk => ?_,fun k h3 hk => ?_⟩,ht.page,ht.top,hv,h4,fun k hk he => ?_,
    fun k hk he => ?_⟩
  · rw [ht.kept k (by omega)]
    exact h.shelf.plain k (by omega)
  · by_cases hin : k.val < 3+l.fill s v
    · refine ⟨_,(shows_congr ht.lists).mpr (ht.items k h3 hin),?_⟩
      omega
    · obtain ⟨p,hp,hmod⟩ := h.shelf.used k h3 (by omega)
      rw [ht.kept k (by omega)]
      exact ⟨p,(shows_congr ht.lists).mpr hp,hmod⟩
  · obtain ⟨hprev,-⟩ | ⟨-,hlt⟩ := ht.turns k (hturns k hk .next he) hk
    · rw [hprev] at he
      cases he
    · rw [← counter_congr ht.lists, UInt8.lt_iff_toNat_lt, htop] at hlt
      exact bound_next (c := l.counter t) (fun hl => by subst hl; rfl) hlt
  · obtain ⟨-,hne⟩ | ⟨hnext,-⟩ := ht.turns k (hturns k hk .prev he) hk
    · have : t.screen.topIndex.toNat ≠ 4 := fun h4 => hne (UInt8.toNat_inj.mp h4)
      omega
    · rw [hnext] at he
      cases he

theorem turned_exact {n v : ℕ} (h : Ready l n w s) (ht : Turned l v s t) (h4 : v % 4 = 0) :
    Exact l t ↔ n ≤ l.fill s v := by
  have hf := fill_le (l := l) (s := s) v
  have hn := h.shelf.room
  have hcount := ht.count
  constructor
  · intro he
    by_contra hlt
    -- the first cell above the entries drawn still holds one of a fuller page
    let k : Fin 30 := ⟨3+l.fill s v,by omega⟩
    have hk : t.screen.buttons k = s.screen.buttons k :=
      ht.kept k (Or.inr ⟨le_refl _,by simp [k]; omega⟩)
    obtain ⟨p,hp,hmod⟩ := h.shelf.used k (by simp [k]) (by simp [k]; omega)
    have hhit : Hits t.screen k := by
      refine shows_hits (l := l) (t := s) (p := p) (by simp only [k]; omega) ?_
      rw [hk]
      exact hp
    obtain ⟨q,hq,hs⟩ := he.drawn k hhit
    rw [hk] at hs
    obtain rfl := shows_same hp hs
    rw [ht.drawn] at hq
    obtain ⟨j,hj,rfl⟩ := List.mem_map.mp hq
    rw [List.mem_range] at hj
    simp only [k] at hmod
    omega
  · intro hle
    refine exact_of_cells (c := 3) (f := l.fill s v) (w := v) (fun k h3 hk => ⟨by omega,?_⟩)
      (fun _ => by omega) (fun k hk hout => ?_) ht.drawn
    · exact (shows_congr ht.lists).mpr (ht.items k h3 hk)
    · by_cases h7 : k.val < 7
      · refine plain_misses ?_
        rw [ht.kept k (by omega)]
        exact h.shelf.plain k (by omega)
      · obtain ⟨he,-⟩ | ⟨he,-⟩ := ht.turns k (by omega) hk
        · exact turn_misses (d := .prev) he
        · exact turn_misses (d := .next) he

theorem ready_runs {ms : List Tap} {n : ℕ} (h : Ready l n w s) (hm : Meets tap Offered s ms)
    (hr : run tap s ms = .ok u) :
    Runs tap (Exact l) (fun _ => True) s ms ↔ Exact l s ∧
      (∀ f ∈ (pages w (ms.map Tap.turn)).map (l.fill s), n ≤ f) ∧
      ((pages w (ms.map Tap.turn)).map (l.fill s)).Pairwise (· ≤ ·) := by
  induction ms generalizing s w n with
  | nil => simp [Runs, pages]
  | cons m ms ih =>
    obtain ⟨t,ht,hu⟩ := run_cons_ok.mp hr
    obtain ⟨hturned,hin,h4⟩ := tap_turned h hm.1 ht
    have hmt := hm.2
    rw [ht] at hmt
    have hih := ih (turned_ready h hturned hin h4) hmt hu
    have hexact := turned_exact h hturned h4
    have hfill : l.fill t = l.fill s := funext fun v => fill_congr v hturned.lists
    rw [hfill] at hih
    simp only [Runs, ht, ends_ok, hih, hexact, List.map_cons, pages, List.pairwise_cons,
      List.mem_cons, forall_eq_or_imp]
    constructor
    · rintro ⟨he,hle,hall,hp⟩
      refine ⟨he,⟨hle,fun f hf => ?_⟩,fun f hf => ?_,hp⟩
      · exact (le_max_left _ _).trans (hall f hf)
      · exact (le_max_right _ _).trans (hall f hf)
    · rintro ⟨he,⟨hle,hall⟩,hfirst,hp⟩
      exact ⟨he,hle,fun f hf => max_le (hall f hf) (hfirst f hf),hp⟩

/-- After a list is opened, the buttons that can be hit stay those of the page
drawn exactly when no page turned to is less full than one turned to before. -/
theorem exact_iff_nondecreasing {a : Answers} {room : ℤ} {ms : List Tap}
    (ho : openList a room s l = .ok t) (hm : Meets tap Offered t ms)
    (hr : run tap t ms = .ok u) :
    Runs tap (Exact l) (fun _ => True) t ms ↔
      ((pages 0 (ms.map Tap.turn)).map (l.fill t)).Pairwise (· ≤ ·) := by
  obtain ⟨counter,last,paged,h,hc⟩ := openList_opening ho
  have he := opening_exact h
  cases paged with
  | true =>
    rw [ready_runs (opening_ready h hc) hm hr]
    exact ⟨fun hp => hp.2.2,fun hp => ⟨he,fun f _ => Nat.zero_le f,hp⟩⟩
  | false =>
    cases ms with
    | nil => exact ⟨fun _ => List.Pairwise.nil,fun _ => he⟩
    | cons m ms => exact absurd hm.1 (opening_turnless h m)

def tenRooms : Eink :=
  { house := (getGroups (List.replicate 10 { name := "Stue" }) {}).toOption.getD {} }

def next : Tap := { x := 111, y := 222, turn := .next }

def prev : Tap := { x := 56, y := 222, turn := .prev }

theorem one_turn_exact : ∃ s u, openList {} 0 tenRooms .rooms = .ok s ∧
    Meets tap Offered s [next,prev] ∧ run tap s [next,prev] = .ok u ∧
    Runs tap (Exact .rooms) (fun _ => True) s [next,prev] := by
  refine ⟨_,_,rfl,by decide +kernel,rfl,?_⟩
  exact (exact_iff_nondecreasing (show openList {} 0 tenRooms .rooms = .ok _ from rfl)
    (by decide +kernel) rfl).mpr (by decide +kernel)

theorem stale_not_exact {k : Fin 30} {p : ℤ} (hk : Hits s.screen k)
    (hp : (s.screen.buttons k).position = some p) (hd : p ∉ s.screen.drawn) : ¬Exact l s := by
  intro h
  obtain ⟨q,hq,hs⟩ := h.drawn k hk
  obtain rfl : q = p := Option.some.inj (hs.position.symm.trans hp)
  exact hd hq

/-- The third page shows two rooms; a button of the second page stays live below them. -/
theorem third_page_stale : ∃ s u, openList {} 0 tenRooms .rooms = .ok s ∧
    Meets tap Offered s [next,next] ∧ run tap s [next,next] = .ok u ∧ ¬Exact .rooms u := by
  refine ⟨_,_,rfl,by decide +kernel,rfl,
    stale_not_exact (k := 5) (p := 6) ?_ rfl (by decide +kernel)⟩
  exact ⟨by decide +kernel,by decide +kernel,by decide +kernel,Or.inr (Or.inl rfl)⟩

end THue.PageTurns
