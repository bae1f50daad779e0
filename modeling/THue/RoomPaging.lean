import THue.PagedLists

/-!
# Paging through the rooms

What the pages of the room list show after a sequence of answers of the
bridge. The count that `getGroups` stores is one less than the number of
groups, and entries of earlier, longer answers stay in the array.
-/

set_option autoImplicit false

namespace THue.RoomPaging
open THue.Globals THue.Entertainment THue.CheckedArray THue.FaultRun THue.TouchScreen THue.Bridge
open THue.Pages THue.PagedLists THue.PagedLists.PagedList

def fetched (h : House) (as : List Answers) : Except Fault House :=
  run (fun h a => fetchHouse a h) h as

def Valid (a : Answers) : Prop := a.groups.length ≤ 50 ∧ ∀ g ∈ a.groups, g.name ≠ ""

def longest (as : List Answers) : ℕ := (as.map (fun a => a.groups.length)).foldr max 0

theorem lt_longest {as : List Answers} {p : ℕ} :
    p < longest as ↔ ∃ a ∈ as, p < a.groups.length := by
  induction as with
  | nil => simp [longest]
  | cons a as ih =>
    rw [show longest (a::as) = max a.groups.length (longest as) from rfl, lt_max_iff, ih]
    simp

theorem longest_le {as : List Answers} {n : ℕ} :
    longest as ≤ n ↔ ∀ a ∈ as, a.groups.length ≤ n := by
  rw [← not_lt, lt_longest]
  simp

theorem fetchHouse_ok {a : Answers} {h i : House} (hf : fetchHouse a h = .ok i) :
    storeFrom (.outside .rooms) 0 (a.groups.map Group.room) h.rooms = .ok i.rooms ∧
      i.roomsCount = toUInt8 ((a.groups.length:ℤ)-1) ∧
      i.roomPagination = decide (4 < i.roomsCount) := by
  obtain ⟨lights,-,hf⟩ := bind_ok.mp hf
  obtain ⟨j,hg,hf⟩ := bind_ok.mp hf
  obtain ⟨rooms,hr,hg⟩ := bind_ok.mp hg
  obtain ⟨lightIds,-,hf⟩ := bind_ok.mp hf
  cases hg
  cases hf
  exact ⟨hr,rfl,rfl⟩

theorem fetchHouse_rooms {a : Answers} {h i : House} (hf : fetchHouse a h = .ok i) (p : ℕ)
    (hp : p < 50) :
    i.rooms ⟨p,hp⟩ = (a.groups.map Group.room).getD p (h.rooms ⟨p,hp⟩) := by
  have hs := (storeFrom_ok (i := 0) (fetchHouse_ok hf).1).2 p hp
  rw [hs, if_pos (Nat.zero_le p), Nat.sub_zero]

theorem fetchHouse_named {a : Answers} {h i : House} (hf : fetchHouse a h = .ok i) (ha : Valid a)
    (p : ℕ) (hp : p < 50) :
    (i.rooms ⟨p,hp⟩).name ≠ "" ↔ p < a.groups.length ∨ (h.rooms ⟨p,hp⟩).name ≠ "" := by
  rw [fetchHouse_rooms hf]
  by_cases hl : p < a.groups.length
  · have hname := ha.2 a.groups[p] (List.getElem_mem hl)
    simpa [List.getD, hl, Group.room] using hname
  · simp [List.getD, hl]

theorem fetched_named {as : List Answers} {h i : House} (hf : fetched h as = .ok i)
    (ha : ∀ a ∈ as, Valid a) (p : ℕ) (hp : p < 50) :
    (i.rooms ⟨p,hp⟩).name ≠ "" ↔ p < longest as ∨ (h.rooms ⟨p,hp⟩).name ≠ "" := by
  induction as generalizing h with
  | nil =>
    cases hf
    simp [longest]
  | cons a as ih =>
    obtain ⟨j,hj,hi⟩ := run_cons_ok.mp hf
    rw [ih hi (fun b hb => ha b (List.mem_cons_of_mem a hb)),
      fetchHouse_named hj (ha a List.mem_cons_self), lt_longest, lt_longest]
    simp only [List.mem_cons, exists_eq_or_imp]
    rw [or_left_comm, or_assoc]

/-- The room array after a sequence of answers: `n` named rooms, the first of
them the groups of the latest answer. -/
structure Directory (n : ℕ) (groups : List Group) (h : House) : Prop where
  named : ∀ p (hp : p < 50), (h.rooms ⟨p,hp⟩).name ≠ "" ↔ p < n
  latest : ∀ p (hp : p < 50) (g : Group), groups[p]? = some g → (h.rooms ⟨p,hp⟩).name = g.name
  count : h.roomsCount = toUInt8 ((groups.length:ℤ)-1)
  pagination : h.roomPagination = decide (4 < h.roomsCount)
  most : groups.length ≤ n
  fits : n ≤ 50

theorem fetched_directory {as : List Answers} {a : Answers} {h : House}
    (hf : fetched {} (as++[a]) = .ok h) (ha : ∀ b ∈ as++[a], Valid b) :
    Directory (longest (as++[a])) a.groups h := by
  have hmem : a ∈ as++[a] := by simp
  obtain ⟨i,-,hi⟩ := run_append_ok.mp hf
  obtain ⟨j,hj,hi⟩ := run_cons_ok.mp hi
  cases hi
  refine ⟨fun p hp => ?_,fun p hp g hg => ?_,(fetchHouse_ok hj).2.1,(fetchHouse_ok hj).2.2,?_,?_⟩
  · rw [fetched_named hf ha]
    simp
  · rw [fetchHouse_rooms hj]
    simp [List.getD, hg, Group.room]
  · exact longest_le.mp (le_refl _) a hmem
  · exact longest_le.mpr fun b hb => (ha b hb).1

theorem leading_rooms {n : ℕ} {groups : List Group} {h : House} (hd : Directory n groups h)
    (rounds w : ℕ) : leading (roomItem h.rooms) rounds w = min rounds (n-w) := by
  have hn := hd.fits
  induction rounds generalizing w with
  | zero => simp [leading]
  | succ rounds ih =>
    by_cases hw : w < 50
    · have hitem : roomItem h.rooms w = .ok
          { name := (h.rooms ⟨w,hw⟩).name, event := .drawRoom, id := w } := by
        rw [roomItem, read_inside h.rooms _ w hw]
        rfl
      have hname := hd.named w hw
      have := ih (w+1)
      rw [leading, hitem]
      change (if (h.rooms ⟨w,hw⟩).name = "" then 0 else _) = _
      by_cases hlt : w < n
      · rw [if_neg (hname.mpr hlt)]
        push_cast at this
        rw [this]
        omega
      · rw [if_pos (not_not.mp fun h => hlt (hname.mp h))]
        omega
    · rw [leading, roomItem, read_outside h.rooms _ w (Or.inr (by omega))]
      change 0 = _
      omega

/-- A touch that turns to the next page. -/
def Forward (s : Eink) (m : Tap) : Prop := Offered s m ∧ m.turn = .next

instance forward_decidable (s : Eink) (m : Tap) : Decidable (Forward s m) :=
  inferInstanceAs (Decidable (_ ∧ _))

def More (s : Eink) : Prop := ∃ m, Forward s m

/-- The page of the room list from position `w` on, of `n` named rooms. -/
structure At (n : ℕ) (groups : List Group) (w : ℕ) (s : Eink) : Prop where
  stored : Directory n groups s.house
  page : s.screen.currentPageOnScreen = "ALLE RUM"
  top : s.screen.topIndex = toUInt8 (w+4)
  four : w % 4 = 0
  inside : w < 50
  drawn : s.screen.drawn = (List.range (min 4 (n-w))).map (fun j : ℕ => (w:ℤ)+j)
  shown : ∀ j, j < min 4 (n-w) → ∃ k : Fin 30, (k.val:ℤ) < s.screen.buttonCount ∧
    PagedList.rooms.Shows s (w+j:ℕ) (s.screen.buttons k)
  more : More s ↔ w+4 < s.house.roomsCount.toNat
  below : 4 < s.house.roomsCount.toNat → ∀ k : Fin 30, k.val < 7 →
    TouchScreen.inside 111 222 (s.screen.buttons k) = false ∧
      ∀ d : Turn, (s.screen.buttons k).event ≠ some d.event
  stop : n < w+4 → n < 50

variable {n w : ℕ} {groups : List Group} {s t : Eink}

theorem fill_rooms (hd : Directory n groups s.house) (w : ℕ) :
    PagedList.rooms.fill s w = min 4 (n-w) := by
  rw [fill, show (bound s (w+4) .rooms - w).toNat = 4 by simp only [bound]; omega]
  exact leading_rooms hd 4 w

theorem more_of_first {k : Fin 30} (hk : (k.val:ℤ) < s.screen.buttonCount)
    (he : (s.screen.buttons k).event = some .drawNextPage)
    (hin : inside 111 222 (s.screen.buttons k) = true)
    (hj : ∀ j < k, inside 111 222 (s.screen.buttons j) = false) : More s := by
  refine ⟨{ x := 111, y := 222, turn := .next },?_,rfl⟩
  simp only [Offered, turnAt, onTouchEvent_first hk hin hj, he]

theorem turned_at {w : ℕ} (h : At n groups w s) (hc : w+4 < s.house.roomsCount.toNat)
    (hw : w+4 < 50) (ht : Turned .rooms (w+4) s t) (hstop : n < w+8 → n < 50) :
    At n groups (w+4) t := by
  have hcount := ht.count
  have hfill := fill_rooms h.stored (w+4)
  have hcounter : PagedList.counter s .rooms = t.house.roomsCount := by
    rw [ht.lists.1]
    rfl
  have htop : t.screen.topIndex.toNat = w+8 := by
    rw [ht.top]
    exact_mod_cast toUInt8_toNat (n := w+8) (by omega)
  have hbelow : ∀ k : Fin 30, k.val < 7 → inside 111 222 (t.screen.buttons k) = false ∧
      ∀ d : Turn, (t.screen.buttons k).event ≠ some d.event := by
    intro k hk
    by_cases hin : 3 ≤ k.val ∧ k.val < 3+PagedList.rooms.fill s (w+4)
    · have hs := ht.items k hin.1 hin.2
      refine ⟨?_,fun d => shows_turn hs d⟩
      have hy := ht.rows k hin.1 hin.2
      have hheight : (t.screen.buttons k).height = 40 := hs.height
      have := h.four
      simp only [inside, decide_eq_false_iff_not]
      omega
    · rw [ht.kept k (by omega)]
      exact h.below (by omega) k hk
  refine ⟨ht.lists.1 ▸ h.stored,ht.page,ht.top,?_,hw,?_,fun j hj => ?_,?_,fun _ => hbelow,hstop⟩
  · have := h.four
    omega
  · rw [ht.drawn, hfill]
  · refine ⟨⟨3+j,by omega⟩,by simp only; omega,?_⟩
    have := ht.items ⟨3+j,by omega⟩ (by simp) (by simp only; omega)
    rw [Nat.add_sub_cancel_left] at this
    exact (shows_congr ht.lists).mpr (by exact_mod_cast this)
  · constructor
    · rintro ⟨m,ho,hm⟩
      obtain ⟨k,-,hk,he⟩ := turnAt_some ho
      have h7 : 7 ≤ k.val := by
        by_contra h7
        exact (hbelow k (by omega)).2 m.turn he
      obtain ⟨hp,-⟩ | ⟨-,hlt⟩ := ht.turns k h7 hk
      · rw [he, hm] at hp
        cases hp
      · rw [hcounter, UInt8.lt_iff_toNat_lt, htop] at hlt
        omega
    · intro hlt
      obtain ⟨k,hk,he,hin,hj⟩ := ht.next (by rw [hcounter, UInt8.lt_iff_toNat_lt, htop]; omega)
      refine more_of_first hk he hin fun j hjk => ?_
      by_cases h7 : 7 ≤ j.val
      · exact hj j hjk h7
      · exact (hbelow j (by omega)).1

theorem forward_turn {m : Tap} (h : At n groups w s) (hm : Forward s m) :
    ∃ b, tap s m = turnPage (w+4:ℕ) ((w+4:ℕ)+4) { s with pressedButton := b } := by
  obtain ⟨i,hi⟩ := touch_turn (a := m.answers) hm.1
  refine ⟨s.screen.buttons i,?_⟩
  rw [tap, hi, hm.2]
  exact turn_apply (d := .next) (s := { s with pressedButton := s.screen.buttons i }) h.top
    h.inside nofun

theorem forward_at {m : Tap} (h : At n groups w s) (hm : Forward s m) (ht : tap s m = .ok t) :
    At n groups (w+4) t := by
  obtain ⟨b,hb⟩ := forward_turn h hm
  rw [hb] at ht
  let p : Eink := { s with pressedButton := b }
  have hin : w+4 < 50 :=
    turnPage_inside (l := .rooms) (s := p) h.page ht (by simp only [bound]; omega)
  have hfill := fill_rooms (s := p) h.stored (w+4)
  refine turned_at h (h.more.mp ⟨m,hm⟩) hin (turned_press (turnPage_turned (s := p) h.page ht))
    fun hn => ?_
  have := turnPage_stop (l := .rooms) (s := p) h.page ht (by rw [hfill]; simp only [bound]; omega)
  rw [hfill] at this
  omega

theorem forward_fits {m : Tap} (h : At n groups w s) (hm : Forward s m) (hw : w+8 ≤ 50) :
    ∃ t, tap s m = .ok t := by
  obtain ⟨b,hb⟩ := forward_turn h hm
  rw [hb]
  refine turnPage_fits (l := .rooms) h.page fun j hj => ?_
  have hr := read_inside s.house.rooms (Fault.outside .rooms ((w+4+j:ℕ):ℤ)) (w+4+j) (by omega)
  exact ⟨_,bind_ok.mpr ⟨_,by exact_mod_cast hr,rfl⟩⟩

theorem opened_at {c f : ℕ} (hd : Directory n groups t.house) (ho : Opened .rooms 4 c f t)
    (hmore : More t ↔ 4 < t.house.roomsCount.toNat)
    (hbelow : 4 < t.house.roomsCount.toNat → ∀ k : Fin 30, k.val < 7 →
      inside 111 222 (t.screen.buttons k) = false ∧
        ∀ d : Turn, (t.screen.buttons k).event ≠ some d.event) : At n groups 0 t := by
  have hf : f = min 4 (n-0) := ho.fill.trans (leading_rooms hd 4 0)
  have hcount := ho.count
  refine ⟨hd,ho.page,ho.top,rfl,by omega,?_,fun j hj => ?_,?_,hbelow,fun h => by omega⟩
  · rw [ho.drawn, hf]
    simp
  · have hroom := ho.room (by omega)
    refine ⟨⟨c+j,by omega⟩,by simp only; omega,?_⟩
    have := ho.items ⟨c+j,by omega⟩ (by simp) (by simp only; omega)
    rw [Nat.add_sub_cancel_left] at this
    simpa using this
  · simpa using hmore

theorem opening_at {o : Answers} (hd : Directory n groups s.house)
    (h : drawAllGroups o s = .ok t) : At n groups 0 t := by
  obtain ⟨ho,hh⟩ := drawAllGroups_opening h
  rw [← hh] at hd ho
  have hpag : (4 < t.house.roomsCount.toNat) ↔ t.house.roomPagination = true := by
    rw [hd.pagination, decide_eq_true_eq, UInt8.lt_iff_toNat_lt]
    rfl
  generalize t.house.roomPagination = paged at ho hpag
  cases ho with
  | whole f ho hk =>
    refine opened_at hd ho ⟨?_,fun hlt => ?_⟩ fun hlt => ?_
    · rintro ⟨m,hm,-⟩
      have hwhole : Opening .rooms 0 4 t false := .whole f ho hk
      exact absurd hm (opening_turnless hwhole m)
    · cases hpag.mp hlt
    · cases hpag.mp hlt
  | paged c f ho hr hk =>
    refine opened_at hd ho ⟨?_,fun hlt => ?_⟩ fun _ k h7 => ⟨(hk k h7).2,plain_turn (hk k h7).1⟩
    · exact fun _ => hpag.mpr rfl
    · have hrow := hr.offered (UInt8.lt_iff_toNat_lt.mpr hlt)
      have hcount := ho.count
      have hev := hr.next 7 (by decide) (by simpa using hrow.2)
      refine more_of_first (k := 7) (by omega) hev.1 hrow.1 fun j hj => ?_
      exact (hk j (by omega)).2

/-- A page can be opened when the path takes its entry. -/
def Opens (n : Nav) : Prop :=
  n.isGoingBack = true ∨ (0 ≤ n.pagePageCounter ∧ n.pagePageCounter < 10)

theorem addPage_fits {nav : Nav} (h : Opens nav) : ∃ nav', addPageToPagePath nav = .ok nav' := by
  rw [addPageToPagePath]
  by_cases hb : nav.isGoingBack = true
  · exact ⟨_,if_pos hb⟩
  · obtain ⟨c,hc⟩ := Int.eq_ofNat_of_zero_le (h.resolve_left hb).1
    have h10 := (h.resolve_left hb).2
    rw [if_neg hb, hc]
    exact ⟨_,bind_ok.mpr ⟨_,write_inside nav.pagePath nav.currentRoomID _ c (by omega),rfl⟩⟩

theorem drawRooms_fits {u : Screen} {c : ℕ} (house : House) (hc : u.buttonCount = c) (h9 : c ≤ 9) :
    ∃ v, drawRoomsFromArray 0 4 house u = .ok v := by
  refine drawItems_fits (c := c) hc (by omega) fun j hj => ?_
  have hr := read_inside house.rooms (Fault.outside .rooms (j:ℤ)) j (by omega)
  exact ⟨_,bind_ok.mpr ⟨_,by simpa using hr,rfl⟩⟩

theorem opening_fits {o : Answers} (hn : Opens s.nav) : ∃ t, drawAllGroups o s = .ok t := by
  have hrooms : Opens { s.nav with currentScreenType := .rooms, currentRoomID := drawAllRoomsID } :=
    hn
  obtain ⟨nav,hnav⟩ := addPage_fits hrooms
  obtain ⟨b,hb,hbare⟩ : ∃ b, drawHeader "ALLE RUM"
      { logAction o (navigated "drawAllRooms") s with
        nav := { s.nav with currentScreenType := .rooms, currentRoomID := drawAllRoomsID } } =
      .ok b ∧ Bare b.screen := ⟨_,drawHeader_ok.mpr ⟨nav,hnav,rfl⟩,headed_bare _ _⟩
  by_cases hp : b.house.roomPagination = true
  · have hrow := drawPaginationButtons_eq b.house.roomsCount { b.screen with topIndex := 4 }
    obtain ⟨c,hc,hr⟩ := row_opened rfl hrow
    have h9 := (drawPaginationButtons_ok hrow).count
    obtain ⟨v,hv⟩ := drawRooms_fits b.house hc (by omega)
    exact ⟨_,bind_ok.mpr ⟨b,hb,(if_pos hp).trans
      (bind_ok.mpr ⟨_,onScreen_ok.mpr ⟨_,hrow,rfl⟩,onScreen_ok.mpr ⟨v,hv,rfl⟩⟩)⟩⟩
  · obtain ⟨v,hv⟩ := drawRooms_fits (c := 2) b.house hbare.count (by omega)
    exact ⟨_,bind_ok.mpr ⟨b,hb,(if_neg hp).trans (onScreen_ok.mpr ⟨v,hv,rfl⟩)⟩⟩

def shown : Eink → List Tap → List ℤ
  | s, [] => s.screen.drawn
  | s, m::ms => s.screen.drawn ++ match tap s m with
      | .ok t => shown t ms
      | .error _ => []

/-- A page shows groups of the answer, and offers the next page when a group follows. -/
structure Page (groups : List Group) (s : Eink) : Prop where
  entries : ∀ p ∈ s.screen.drawn, ∃ (q : ℕ) (g : Group) (k : Fin 30), p = q ∧
    groups[q]? = some g ∧ (k.val:ℤ) < s.screen.buttonCount ∧
    (s.screen.buttons k).event = some .drawRoom ∧ (s.screen.buttons k).name = g.name ∧
    (s.screen.buttons k).id = q
  more : More s ↔ ∃ q : ℕ, q < groups.length ∧ ∀ p ∈ s.screen.drawn, p < q

/-- Turning forward until no further page is offered shows each group once, in
the order of the answer, and reads nothing outside the room array. -/
structure Browsed (groups : List Group) (s : Eink) : Prop where
  ends : ∃ b, ∀ ms, Meets tap Forward s ms → ms.length ≤ b
  lawful : ∀ ms, Meets tap Forward s ms → Runs tap (Page groups) (fun _ => False) s ms
  complete : ∀ ms t, Meets tap Forward s ms → run tap s ms = .ok t → ¬More t →
    shown s ms = (List.range groups.length).map (fun q : ℕ => (q:ℤ))

/-- The numbers of groups that page properly: `k` in the latest answer, at most `n` in any. -/
def Proper (k n : ℕ) : Prop :=
  k ≠ 0 ∧ k ≠ 50 ∧ (k % 4 = 0 ∨ ((k % 4 ≠ 1 ∨ k = 1) ∧ n ≤ k))

theorem rooms_count (hd : Directory n groups s.house) (hk : groups.length ≠ 0) :
    s.house.roomsCount.toNat = groups.length - 1 := by
  have := hd.most
  have := hd.fits
  rw [hd.count, show (groups.length:ℤ)-1 = ((groups.length-1:ℕ):ℤ) by omega]
  exact toUInt8_toNat (by omega)

theorem drawn_mem (h : At n groups w s) {p : ℤ} :
    p ∈ s.screen.drawn ↔ ∃ j : ℕ, j < min 4 (n-w) ∧ (w:ℤ)+j = p := by
  rw [h.drawn]
  simp

theorem following (h : At n groups w s) (hw : w < groups.length) :
    (∃ q : ℕ, q < groups.length ∧ ∀ p ∈ s.screen.drawn, p < q) ↔ w+4 < groups.length := by
  have hmost := h.stored.most
  constructor
  · rintro ⟨q,hq,hall⟩
    have := hall (w+(min 4 (n-w) - 1 : ℕ)) ((drawn_mem h).mpr ⟨_,by omega,rfl⟩)
    omega
  · intro hlt
    refine ⟨w+4,hlt,fun p hp => ?_⟩
    obtain ⟨j,hj,rfl⟩ := (drawn_mem h).mp hp
    omega

theorem entries_of_at (h : At n groups w s) (hw : w+min 4 (n-w) ≤ groups.length) :
    ∀ p ∈ s.screen.drawn, ∃ (q : ℕ) (g : Group) (k : Fin 30), p = q ∧
      groups[q]? = some g ∧ (k.val:ℤ) < s.screen.buttonCount ∧
      (s.screen.buttons k).event = some .drawRoom ∧ (s.screen.buttons k).name = g.name ∧
      (s.screen.buttons k).id = q := by
  intro p hp
  obtain ⟨j,hj,rfl⟩ := (drawn_mem h).mp hp
  obtain ⟨k,hk,hs⟩ := h.shown j hj
  obtain ⟨item,hi,he,hid,hname⟩ := hs.item
  obtain ⟨room,hr,hitem⟩ := bind_ok.mp hi
  obtain ⟨q,hq,hwq,rfl⟩ := read_ok.mp hr
  obtain rfl : w+j = q := by exact_mod_cast hwq
  cases hitem
  have hlt : w+j < groups.length := by omega
  refine ⟨w+j,groups[w+j],k,by push_cast; rfl,List.getElem?_eq_getElem hlt,hk,he,?_,hid⟩
  rw [hname]
  exact h.stored.latest (w+j) hq _ (List.getElem?_eq_getElem hlt)

theorem proper_page (hp : Proper groups.length n) (h : At n groups w s) (hw : w < groups.length) :
    Page groups s := by
  have hfour := h.four
  have hmost := h.stored.most
  obtain ⟨h0,h50,hp⟩ := hp
  refine ⟨entries_of_at h (by omega),?_⟩
  rw [h.more, following h hw, rooms_count h.stored h0]
  omega

theorem forward_runs (hp : Proper groups.length n) {ms : List Tap} (h : At n groups w s)
    (hw : w < groups.length) (hm : Meets tap Forward s ms) :
    Runs tap (Page groups) (fun _ => False) s ms ∧ w+4*ms.length < groups.length ∧
      ∀ t, run tap s ms = .ok t → ¬More t →
        shown s ms = (List.range' w (groups.length-w)).map (fun q : ℕ => (q:ℤ)) := by
  have hpage := proper_page hp h hw
  have hfour := h.four
  have hmost := h.stored.most
  have hfits := h.stored.fits
  have hcount := rooms_count h.stored hp.1
  have hnum := hp
  obtain ⟨h0,h50,hnum⟩ := hnum
  induction ms generalizing s w with
  | nil =>
    refine ⟨hpage,by simpa using hw,fun t ht hno => ?_⟩
    cases ht
    rw [h.more, hcount] at hno
    rw [shown, h.drawn, List.range'_eq_map_range, List.map_map,
      show min 4 (n-w) = groups.length-w by omega]
    apply List.map_congr_left
    intro j _
    simp
  | cons m ms ih =>
    have hmore := h.more.mp ⟨m,hm.1⟩
    obtain ⟨t,ht⟩ := forward_fits h hm.1 (by omega)
    have hat := forward_at h hm.1 ht
    have hmt := hm.2
    rw [ht] at hmt
    have hw' : w+4 < groups.length := by omega
    obtain ⟨hruns,hlen,hshown⟩ := ih hat hw' hmt (proper_page hp hat hw') hat.four
      (rooms_count hat.stored hp.1)
    refine ⟨?_,by simp only [List.length_cons]; omega,fun u hu hno => ?_⟩
    · simp only [Runs, ht, ends_ok]
      exact ⟨hpage,hruns⟩
    · obtain ⟨v,hv,hu⟩ := run_cons_ok.mp hu
      obtain rfl : t = v := Except.ok.inj (ht.symm.trans hv)
      simp only [shown, ht]
      rw [hshown u hu hno, h.drawn, show groups.length-w = 4+(groups.length-(w+4)) by omega,
        ← List.range'_append_1, List.map_append, show min 4 (n-w) = 4 by omega]
      congr 1

theorem proper_browsed (hp : Proper groups.length n) (h : At n groups 0 s) :
    Browsed groups s := by
  have hw : 0 < groups.length := Nat.pos_of_ne_zero hp.1
  refine ⟨⟨groups.length,fun ms hm => ?_⟩,fun ms hm => (forward_runs hp h hw hm).1,
    fun ms t hm hr hno => ?_⟩
  · have := (forward_runs hp h hw hm).2.1
    omega
  · rw [(forward_runs hp h hw hm).2.2 t hr hno, List.range_eq_range', Nat.sub_zero]

theorem browsed_reaches (hb : Browsed groups s) (h : At n groups 0 s) (i : ℕ)
    (hi : 4*i < groups.length) :
    ∃ ms t, Meets tap Forward s ms ∧ run tap s ms = .ok t ∧ At n groups (4*i) t := by
  induction i with
  | zero => exact ⟨[],s,trivial,rfl,h⟩
  | succ i ih =>
    obtain ⟨ms,t,hm,hr,hat⟩ := ih (by omega)
    have hpage := runs_last (hb.lawful ms hm) hr
    obtain ⟨m,hfwd⟩ := hpage.more.mpr ((following hat (by omega)).mpr (by omega))
    have hsnoc := meets_snoc hm hr hfwd
    have hstep := runs_step (hb.lawful _ hsnoc) hr
    cases hu : tap t m with
    | error e =>
      rw [hu] at hstep
      exact hstep.elim
    | ok u =>
      refine ⟨ms++[m],u,hsnoc,run_append_ok.mpr ⟨t,hr,?_⟩,forward_at hat hfwd hu⟩
      rw [run, hu]
      rfl

theorem browsed_proper (hb : Browsed groups s) (h : At n groups 0 s) :
    Proper groups.length n := by
  have hmost := h.stored.most
  have hfits := h.stored.fits
  have hfirst := runs_last (hb.lawful [] trivial) rfl
  have h0 : groups.length ≠ 0 := by
    intro h0
    have hmore : More s := h.more.mpr (by rw [h.stored.count, h0]; decide)
    obtain ⟨q,hq,-⟩ := hfirst.more.mp hmore
    omega
  -- the last page that holds a group of the answer
  obtain ⟨ms,t,hm,hr,hat⟩ := browsed_reaches hb h ((groups.length-1)/4) (by omega)
  have hlast := runs_last (hb.lawful ms hm) hr
  have h50 : groups.length ≠ 50 := by
    intro h50
    have := hat.stop (by omega)
    omega
  refine ⟨h0,h50,?_⟩
  by_cases hk : groups.length % 4 = 0
  · exact Or.inl hk
  refine Or.inr ⟨?_,?_⟩
  · by_contra hn
    obtain ⟨ms,u,hm,hr,hu⟩ := browsed_reaches hb h ((groups.length-5)/4) (by omega)
    have hpage := runs_last (hb.lawful ms hm) hr
    have hmore := hu.more.mp (hpage.more.mpr ((following hu (by omega)).mpr (by omega)))
    rw [rooms_count hu.stored h0] at hmore
    omega
  · by_contra hn
    obtain ⟨q,g,k,hq,hg,-⟩ := hlast.entries groups.length
      ((drawn_mem hat).mpr ⟨groups.length-4*((groups.length-1)/4),by omega,by omega⟩)
    obtain rfl : groups.length = q := by exact_mod_cast hq
    simp at hg

/-- After any sequence of answers the room list pages properly through the
groups of the latest one exactly when their number is neither 0 nor 50, and
either fills the last page, or does not leave one entry on it and is not below
the number in an earlier answer. -/
theorem browsed_iff {as : List Answers} {a o : Answers}
    (hf : fetched {} (as++[a]) = .ok s.house) (ha : ∀ b ∈ as++[a], Valid b)
    (hn : Opens s.nav) :
    Ends (drawAllGroups o s) (Browsed a.groups) (fun _ => False) ↔
      a.groups.length ≠ 0 ∧ a.groups.length ≠ 50 ∧ (a.groups.length % 4 = 0 ∨
        ((a.groups.length % 4 ≠ 1 ∨ a.groups.length = 1) ∧
          ∀ b ∈ as, b.groups.length ≤ a.groups.length)) := by
  obtain ⟨t,ht⟩ := opening_fits (o := o) hn
  have hat := opening_at (fetched_directory hf ha) ht
  have hlong : longest (as++[a]) ≤ a.groups.length ↔
      ∀ b ∈ as, b.groups.length ≤ a.groups.length := by
    rw [longest_le]
    simp [or_imp, forall_and]
  rw [ht, ends_ok, ← hlong]
  exact ⟨fun hb => browsed_proper hb hat,fun hp => proper_browsed hp hat⟩

def rooms (k : ℕ) : Answers := { groups := List.replicate k { name := "Stue" } }

def after (as : List Answers) : Eink := { house := (fetched {} as).toOption.getD {} }

theorem after_fetched {as : List Answers} (h : (fetched {} as).isOk = true) :
    fetched {} as = .ok (after as).house := by
  rw [after]
  cases hf : fetched {} as with
  | ok i => rfl
  | error e =>
    rw [hf] at h
    cases h

theorem rooms_valid {k : ℕ} (h : k ≤ 50) : Valid (rooms k) := by
  refine ⟨by simpa [rooms] using h,fun g hg => ?_⟩
  rw [(List.mem_replicate.mp hg).2]
  decide

theorem eight_after_ten : Ends (drawAllGroups {} (after [rooms 10,rooms 8]))
    (Browsed (rooms 8).groups) (fun _ => False) := by
  have hfetched : fetched {} ([rooms 10]++[rooms 8]) = .ok (after [rooms 10,rooms 8]).house :=
    after_fetched (by decide +kernel)
  refine (browsed_iff hfetched ?_
    (Or.inr (by decide))).mpr ⟨by decide,by decide,Or.inl (by decide)⟩
  intro b hb
  obtain rfl | rfl : b = rooms 10 ∨ b = rooms 8 := by simpa using hb
  · exact rooms_valid (by decide)
  · exact rooms_valid (by decide)

/-- With five groups no further page is offered after the first. -/
theorem fifth_room_unreached : fetched {} [rooms 5] = .ok (after [rooms 5]).house ∧
    ¬Ends (drawAllGroups {} (after [rooms 5])) (Browsed (rooms 5).groups) (fun _ => False) := by
  have hf : fetched {} ([]++[rooms 5]) = .ok (after [rooms 5]).house :=
    after_fetched (by decide +kernel)
  refine ⟨hf,fun h => ?_⟩
  obtain ⟨t,ht⟩ := opening_fits (o := {}) (s := after [rooms 5]) (Or.inr (by decide))
  have hd := fetched_directory hf fun b hb => by
    rw [List.mem_singleton.mp hb]
    exact rooms_valid (by decide)
  have hp := browsed_proper (ends_of_ok h ht) (opening_at hd ht)
  rw [Proper] at hp
  exact absurd hp (by decide)

end THue.RoomPaging
