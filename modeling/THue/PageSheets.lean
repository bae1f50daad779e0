import THue.RoomPaging

/-!
# Pages with both directions

A page of a paged list with its arrows: which directions it offers, and what a
touch on either of them leaves. The count that the arrows compare with is a
parameter, since an opener may use another one than a turn.
-/

set_option autoImplicit false

namespace THue.PageSheets
open THue.Globals THue.Entertainment THue.CheckedArray THue.FaultRun THue.TouchScreen THue.Bridge
open THue.Pages THue.PagedLists THue.PagedLists.PagedList

variable {l : PagedList} {c w : ℕ} {s t : Eink}

/-- Some point of the screen turns the page in direction `d`. -/
def Offers (d : Turn) (s : Eink) : Prop := ∃ m, Offered s m ∧ m.turn = d

def Off (b : Button) : Prop :=
  (∀ x, inside x 222 b = false) ∧ ∀ d : Turn, b.event ≠ some d.event

theorem headed_off (text : String) (u : Screen) (k : Fin 30) : Off ((headed text u).buttons k) := by
  by_cases hk : k.val < 2
  · obtain rfl | rfl : k = 0 ∨ k = 1 := by omega
    · refine ⟨fun x => by simp [headed, navButton, inside],fun d => ?_⟩
      by_cases ht : text = "HJEM" <;> cases d <;> simp [headed, ht, navButton, Turn.event]
    · refine ⟨fun x => by simp [headed, navButton, inside],fun d => ?_⟩
      cases d <;> simp [headed, navButton, Turn.event]
  · rw [headed_empty text u k (by omega)]
    exact ⟨fun x => by simp [inside],fun d => by simp⟩

theorem offers_of_first {d : Turn} {x : ℤ} {k : Fin 30} (hk : (k.val:ℤ) < s.screen.buttonCount)
    (he : (s.screen.buttons k).event = some d.event)
    (hin : inside x 222 (s.screen.buttons k) = true)
    (hj : ∀ j < k, inside x 222 (s.screen.buttons j) = false) : Offers d s := by
  refine ⟨{ x := x, y := 222, turn := d },?_,rfl⟩
  simp only [Offered, turnAt, onTouchEvent_first hk hin hj, he]
  cases d <;> rfl

structure Sheet (l : PagedList) (c w : ℕ) (s : Eink) : Prop where
  page : s.screen.currentPageOnScreen = l.text
  top : s.screen.topIndex = toUInt8 (w+4)
  four : w % 4 = 0
  inside : w < 50
  drawn : s.screen.drawn = (List.range (l.fill s w)).map (fun j : ℕ => (w:ℤ)+j)
  shown : ∀ j, j < l.fill s w → ∃ k : Fin 30, (k.val:ℤ) < s.screen.buttonCount ∧
    l.Shows s (w+j:ℕ) (s.screen.buttons k)
  next : Offers .next s ↔ w+4 < c
  prev : Offers .prev s ↔ w ≠ 0
  off : ∀ d, Offers d s → ∀ k : Fin 30, k.val < 7 → Off (s.screen.buttons k)

theorem sheet_top (h : Sheet l c w s) : s.screen.topIndex.toNat = w+4 := by
  have := h.inside
  rw [h.top]
  exact_mod_cast toUInt8_toNat (n := w+4) (by omega)

theorem top_ne_four (h : w < 50) (hw : w ≠ 0) : toUInt8 (w+4) ≠ 4 := by
  intro h4
  have htop : (toUInt8 (w+4)).toNat = w+4 := by
    exact_mod_cast toUInt8_toNat (n := w+4) (by omega)
  rw [h4] at htop
  change 4 = w+4 at htop
  omega

theorem turnPage_prev (hp : s.screen.currentPageOnScreen = l.text) (hw : w < 50) (h0 : w ≠ 0)
    (h : turnPage w (w+4) s = .ok t) :
    t.screen.buttons 7 = arrow 29 .drawPrevPage ∧ 7 < t.screen.buttonCount := by
  obtain ⟨u,v,hu,hv,rfl⟩ := (turnPage_ok hp).mp h
  have hd : ItemsDrawn (l.itemAt s) l.size l.size w 56 3 (l.fill s w)
      { s.screen with buttonCount := 3, topIndex := toUInt8 (w+4), drawn := [] } u :=
    drawListFromArray_ok rfl hu
  have htop : u.topIndex ≠ 4 := by
    rw [hd.top]
    exact top_ne_four hw h0
  rw [drawPaginationButtons_eq, if_pos htop] at hv
  by_cases hn : u.topIndex < l.counter s
  · rw [if_pos hn] at hv
    cases hv
    exact ⟨rfl,by simp⟩
  · rw [if_neg hn] at hv
    cases hv
    exact ⟨rfl,by simp⟩

theorem turned_off (hoff : ∀ k : Fin 30, k.val < 7 → Off (s.screen.buttons k))
    (ht : Turned l w s t) (k : Fin 30) (hk : k.val < 7) : Off (t.screen.buttons k) := by
  by_cases hin : 3 ≤ k.val ∧ k.val < 3+l.fill s w
  · have hs := ht.items k hin.1 hin.2
    refine ⟨fun x => ?_,shows_turn hs⟩
    have hy := ht.rows k hin.1 hin.2
    have hheight : (t.screen.buttons k).height ≤ 48 := by
      rw [hs.height]
      cases l <;> decide
    simp only [inside, decide_eq_false_iff_not]
    omega
  · rw [ht.kept k (by omega)]
    exact hoff k hk

theorem turned_offers {d : Turn} (hoff : ∀ k : Fin 30, k.val < 7 → Off (t.screen.buttons k))
    (ht : Turned l w s t) (hd : Offers d t) :
    (d = .prev ∧ t.screen.topIndex ≠ 4) ∨ (d = .next ∧ t.screen.topIndex < l.counter s) := by
  obtain ⟨m,ho,rfl⟩ := hd
  obtain ⟨k,-,hk,he⟩ := turnAt_some ho
  have h7 : 7 ≤ k.val := by
    by_contra h7
    exact (hoff k (by omega)).2 m.turn he
  cases hm : m.turn with
  | next =>
    obtain ⟨hp,-⟩ | ⟨-,hlt⟩ := ht.turns k h7 hk
    · rw [he, hm] at hp
      cases hp
    · exact Or.inr ⟨rfl,hlt⟩
  | prev =>
    obtain ⟨-,hne⟩ | ⟨hn,-⟩ := ht.turns k h7 hk
    · exact Or.inl ⟨rfl,hne⟩
    · rw [he, hm] at hn
      cases hn

theorem turned_sheet (h4 : w % 4 = 0) (hw : w < 50) (hp : s.screen.currentPageOnScreen = l.text)
    (hoff : ∀ k : Fin 30, k.val < 7 → Off (s.screen.buttons k))
    (h : turnPage w (w+4) s = .ok t) : Sheet l (l.counter s).toNat w t ∧ SameLists s t := by
  have ht := turnPage_turned hp h
  have hcount := ht.count
  have hfill := fill_le (l := l) (s := s) w
  have hsame := fill_congr (l := l) w ht.lists
  have hoff' := turned_off hoff ht
  have htop : t.screen.topIndex.toNat = w+4 := by
    rw [ht.top]
    exact_mod_cast toUInt8_toNat (n := w+4) (by omega)
  refine ⟨⟨ht.page,ht.top,h4,hw,?_,fun j hj => ?_,?_,?_,fun _ _ => hoff'⟩,ht.lists⟩
  · rw [ht.drawn, hsame]
  · rw [hsame] at hj
    refine ⟨⟨3+j,by omega⟩,by simp only; omega,?_⟩
    have := ht.items ⟨3+j,by omega⟩ (by simp) (by simp only; omega)
    rw [Nat.add_sub_cancel_left] at this
    exact (shows_congr ht.lists).mpr (by exact_mod_cast this)
  · constructor
    · intro hn
      obtain ⟨hd,-⟩ | ⟨-,hlt⟩ := turned_offers hoff' ht hn
      · cases hd
      · rw [UInt8.lt_iff_toNat_lt, htop] at hlt
        exact hlt
    · intro hlt
      obtain ⟨k,hk,he,hin,hj⟩ := ht.next (by rw [UInt8.lt_iff_toNat_lt, htop]; exact hlt)
      refine offers_of_first hk he hin fun j hjk => ?_
      by_cases h7 : 7 ≤ j.val
      · exact hj j hjk h7
      · exact (hoff' j (by omega)).1 111
  · constructor
    · intro hn h0
      obtain ⟨-,hne⟩ | ⟨hd,-⟩ := turned_offers hoff' ht hn
      · rw [ht.top, h0] at hne
        exact hne rfl
      · cases hd
    · intro h0
      obtain ⟨hb,h7⟩ := turnPage_prev hp hw h0 h
      refine offers_of_first (x := 56) (k := 7) h7 (by rw [hb]; rfl) (by rw [hb]; decide)
        fun j hj => ?_
      exact (hoff' j (by omega)).1 56

section Tap
variable {m : Tap}

theorem tap_turn (h : Sheet l c w s) (hm : Offered s m) :
    ∃ b, tap s m =
      turnPage (m.turn.from w:ℕ) ((m.turn.from w:ℕ)+4) { s with pressedButton := b } := by
  obtain ⟨i,hi⟩ := touch_turn (a := m.answers) hm
  refine ⟨s.screen.buttons i,?_⟩
  rw [tap, hi]
  refine turn_apply (s := { s with pressedButton := s.screen.buttons i }) h.top h.inside
    fun hd => ?_
  have := h.prev.mp ⟨m,hm,hd⟩
  have := h.four
  omega

theorem from_four (h : Sheet l c w s) (d : Turn) : d.from w % 4 = 0 := by
  have := h.four
  cases d <;> simp only [Turn.from] <;> omega

theorem next_bound (hc : l = .lights → c = s.house.lightCount.toNat) (h : w+4 < c) :
    ((w+4:ℕ):ℤ) < l.bound s ((w+4:ℕ)+4) := by
  cases l with
  | lights =>
    rw [hc rfl] at h
    simp only [bound]
    split <;> omega
  | rooms | selectable =>
    simp only [bound]
    omega

theorem tap_sheet (h : Sheet l c w s) (hc : l = .lights → c = s.house.lightCount.toNat)
    (hm : Offered s m) (ht : tap s m = .ok t) :
    Sheet l (l.counter s).toNat (m.turn.from w) t ∧ SameLists s t := by
  obtain ⟨b,hb⟩ := tap_turn h hm
  rw [hb] at ht
  let p : Eink := { s with pressedButton := b }
  have hin : m.turn.from w < 50 := by
    have := h.inside
    cases hd : m.turn with
    | prev =>
      simp only [Turn.from]
      omega
    | next =>
      rw [hd] at ht
      have hlt := next_bound hc (h.next.mp ⟨m,hm,hd⟩)
      refine turnPage_inside (l := l) (s := p) h.page ht ?_
      cases l <;> exact hlt
  obtain ⟨hs,hl⟩ :=
    turned_sheet (s := p) (from_four h m.turn) hin h.page (h.off m.turn ⟨m,hm,rfl⟩) ht
  cases l <;> exact ⟨hs,hl⟩

theorem tap_fits (h : Sheet l c w s) (hm : Offered s m)
    (hread : ∀ j : ℕ, j < 4 → ∃ item, l.itemAt s ((m.turn.from w:ℕ)+j) = .ok item) :
    ∃ t, tap s m = .ok t := by
  obtain ⟨b,hb⟩ := tap_turn h hm
  rw [hb]
  refine turnPage_fits (l := l) h.page fun j hj => ?_
  obtain ⟨item,hi⟩ := hread j hj
  exact ⟨item,by cases l <;> exact hi⟩

end Tap

theorem paged_off {counter : UInt8} {u v : Screen} (hpage : s.screen.currentPageOnScreen = l.text)
    (hoff : ∀ k, Off (s.screen.buttons k))
    (hu : drawPaginationButtons counter { s.screen with topIndex := 4 } = .ok u)
    (h : l.draw s 0 4 u = .ok v) (k : Fin 30) (hk : k.val < 7) : Off (v.buttons k) := by
  obtain ⟨n,hn,hr⟩ := row_opened rfl hu
  have hlow := hr.low
  have hp : u.currentPageOnScreen = l.text := (drawPaginationButtons_ok hu).page.trans hpage
  obtain ⟨f,-,hkept⟩ := draw_opened (s := s) hn hp h
  rw [hkept k (by omega), (drawPaginationButtons_ok hu).below k hk]
  exact hoff k

theorem opened_sheet {f n : ℕ} (ho : Opened l 4 n f t) (hf : f = l.fill t 0)
    (hnext : Offers .next t ↔ 4 < c) (hprev : ¬Offers .prev t)
    (hoff : ∀ d, Offers d t → ∀ k : Fin 30, k.val < 7 → Off (t.screen.buttons k)) :
    Sheet l c 0 t := by
  refine ⟨ho.page,ho.top,rfl,by omega,?_,fun j hj => ?_,by simpa using hnext,
    ⟨fun hp => absurd hp hprev,fun h0 => absurd rfl h0⟩,hoff⟩
  · rw [ho.drawn, hf]
    simp
  · have hcount := ho.count
    have hroom := ho.room (by omega)
    refine ⟨⟨n+j,by omega⟩,by simp only; omega,?_⟩
    have := ho.items ⟨n+j,by omega⟩ (by simp) (by simp only; omega)
    rw [Nat.add_sub_cancel_left] at this
    simpa using this

theorem whole_sheet {counter : UInt8} (h : Opening l counter 4 t false) (hc : c ≤ 4) :
    Sheet l c 0 t := by
  have hno := fun d : Turn => fun hd : Offers d t =>
    let ⟨m,hm,_⟩ := hd
    opening_turnless h m hm
  cases h with
  | whole f ho hk =>
    refine opened_sheet ho ho.fill ⟨fun hn => absurd hn (hno .next),fun hlt => by omega⟩ (hno .prev)
      fun d hd => absurd hd (hno d)

theorem paged_sheet {counter : UInt8} {last : ℤ} (h : Opening l counter last t true)
    (hoff : ∀ k : Fin 30, k.val < 7 → Off (t.screen.buttons k)) : Sheet l counter.toNat 0 t := by
  cases h with
  | paged n f ho hr hk =>
    have hcount := ho.count
    have hturn : ∀ d, Offers d t → d = .next ∧ 4 < counter := by
      rintro d ⟨m,hm,rfl⟩
      obtain ⟨k,-,hkc,he⟩ := turnAt_some hm
      have h7 : 7 ≤ k.val := by
        by_contra h7
        exact (hoff k (by omega)).2 m.turn he
      by_cases hn : k.val < n
      · obtain ⟨hnext,hlt⟩ := hr.next k h7 hn
        rw [he] at hnext
        cases hm : m.turn with
        | next => exact ⟨rfl,hlt⟩
        | prev =>
          rw [hm] at hnext
          cases hnext
      · exact absurd he (shows_turn (ho.items k (by omega) (by omega)) m.turn)
    refine opened_sheet ho ho.fill
      ⟨fun hn => UInt8.lt_iff_toNat_lt.mp (hturn .next hn).2,fun hlt => ?_⟩
      (fun hp => by cases (hturn .prev hp).1) fun _ _ => hoff
    have hrow := hr.offered (UInt8.lt_iff_toNat_lt.mpr hlt)
    have hev := hr.next 7 (by decide) (by simpa using hrow.2)
    refine offers_of_first (k := 7) (by omega) hev.1 hrow.1 fun j hj => ?_
    exact (hoff j (by omega)).1 111

end THue.PageSheets
