import THue.LightPaging

/-!
# Paging through the selectable lights

The list of lights of the entertainment room counts three ways: its first page
with the lights of the room, a turn with the lights of the bridge, and the
drawing itself only by the first empty name.
-/

set_option autoImplicit false

namespace THue.SelectablePaging
open THue.Globals THue.Entertainment THue.CheckedArray THue.FaultRun THue.TouchScreen THue.Bridge
open THue.Pages THue.PagedLists THue.PagedLists.PagedList THue.PageSheets
open THue.RoomPaging (Forward shown)
open THue.LightPaging (positions positions_split)

/-- An entertainment room of `m` named lights among the lights of the bridge. -/
structure Entertained (m : ℕ) (h : House) : Prop where
  count : h.entertainmentRoom.lightCounter.toNat = m
  fits : m ≤ 20
  among : m ≤ h.allLightCount.toNat
  flag : h.allLightsPagination = decide (4 < h.allLightCount)
  named : ∀ p (hp : p < 20), p < m → (h.entertainmentLights ⟨p,hp⟩).name ≠ ""

/-- A page shows lights of the room, and offers the next page when one follows. -/
structure Page (m : ℕ) (s : Eink) : Prop where
  lit : ∀ p ∈ s.screen.drawn, ∃ (q : ℕ) (hq : q < 20) (k : Fin 30), p = q ∧ q < m ∧
    (k.val:ℤ) < s.screen.buttonCount ∧ (s.screen.buttons k).event = some .selectLight ∧
    (s.screen.buttons k).name = (s.house.entertainmentLights ⟨q,hq⟩).name ∧
    (s.screen.buttons k).id = (s.house.entertainmentLights ⟨q,hq⟩).id.toNat
  more : Offers .next s ↔ ∃ q : ℕ, q < m ∧ ∀ p ∈ s.screen.drawn, p < q

/-- Paging in both directions shows the `m` lights and reads no cell beyond the
array; turning forward to the end shows each of them once. -/
structure Paged (m : ℕ) (s : Eink) : Prop where
  lawful : ∀ ms, Meets tap Offered s ms → Runs tap (Page m) (fun _ => False) s ms
  ends : ∃ b, ∀ ms, Meets tap Forward s ms → ms.length ≤ b
  complete : ∀ ms t, Meets tap Forward s ms → run tap s ms = .ok t → ¬Offers .next t →
    shown s ms = positions 0 m

def pageEnd (m : ℕ) : ℕ := 4*((m-1)/4+1)

/-- The counts agree on where the list ends, and so does the name of the cell behind it. -/
def Aligned (m : ℕ) (h : House) : Prop :=
  h.allLightCount.toNat ≤ 4 ∨
    ((m ≤ 4 ∨ h.allLightCount.toNat ≤ pageEnd m) ∧
      ∀ hm : m < 20, m < pageEnd m → (h.entertainmentLights ⟨m,hm⟩).name = "")

variable {m c w : ℕ} {s t : Eink}

theorem selectedFrom_fits (b : Behavior) (id : UInt8) {rounds p : ℕ} (h : p+rounds ≤ 20) :
    ∃ x, selectedFrom b id rounds p = .ok x := by
  induction rounds generalizing p with
  | zero => exact ⟨false,rfl⟩
  | succ rounds ih =>
    obtain ⟨x,hx⟩ := ih (p := p+1) (by omega)
    exact ⟨_,bind_ok.mpr ⟨_,read_inside b.lightIds _ p (by omega),bind_ok.mpr ⟨x,hx,rfl⟩⟩⟩

theorem selectedFrom_room {b : Behavior} {id : UInt8} {rounds p : ℕ} {x : Bool}
    (h : selectedFrom b id rounds p = .ok x) (hr : rounds ≠ 0) : p+rounds ≤ 20 := by
  induction rounds generalizing p x with
  | zero => exact absurd rfl hr
  | succ rounds ih =>
    obtain ⟨y,hy,h⟩ := bind_ok.mp h
    obtain ⟨z,hz,-⟩ := bind_ok.mp h
    obtain ⟨q,hq,hpq,-⟩ := read_ok.mp hy
    by_cases h0 : rounds = 0
    · omega
    · have := ih hz h0
      omega

theorem selectable_named {p : ℕ} (hp : p < 20) (hs : (running s.shared).lightCounter.toNat ≤ 20)
    (hn : (s.house.entertainmentLights ⟨p,hp⟩).name ≠ "") :
    ∃ item, PagedList.selectable.itemAt s p = .ok item ∧ item.name ≠ "" := by
  have hfit : 0+(running s.shared).lightCounter.toNat ≤ 20 := by omega
  obtain ⟨x,hx⟩ := selectedFrom_fits (running s.shared) (s.house.entertainmentLights ⟨p,hp⟩).id hfit
  refine ⟨_,bind_ok.mpr ⟨_,read_inside s.house.entertainmentLights _ p hp,
    (if_neg hn).trans (bind_ok.mpr ⟨x,hx,rfl⟩)⟩,hn⟩

theorem selectable_empty {p : ℕ} (hp : p < 20)
    (hn : (s.house.entertainmentLights ⟨p,hp⟩).name = "") :
    ∃ item, PagedList.selectable.itemAt s p = .ok item ∧ item.name = "" :=
  ⟨_,bind_ok.mpr ⟨_,read_inside s.house.entertainmentLights _ p hp,if_pos hn⟩,rfl⟩

theorem selectable_reads {p : ℕ} (hp : p < 20)
    (hs : (running s.shared).lightCounter.toNat ≤ 20) :
    ∃ item, PagedList.selectable.itemAt s p = .ok item := by
  by_cases hn : (s.house.entertainmentLights ⟨p,hp⟩).name = ""
  · obtain ⟨item,hi,-⟩ := selectable_empty hp hn
    exact ⟨item,hi⟩
  · obtain ⟨item,hi,-⟩ := selectable_named hp hs hn
    exact ⟨item,hi⟩

theorem selectable_item {p : ℤ} {item : Item} (h : PagedList.selectable.itemAt s p = .ok item) :
    ∃ (q : ℕ) (hq : q < 20), p = q ∧ item.name = (s.house.entertainmentLights ⟨q,hq⟩).name ∧
      item.id = (s.house.entertainmentLights ⟨q,hq⟩).id.toNat ∧
      (item.name ≠ "" → (running s.shared).lightCounter.toNat ≤ 20) := by
  obtain ⟨light,hr,h⟩ := bind_ok.mp h
  obtain ⟨q,hq,hpq,rfl⟩ := read_ok.mp hr
  by_cases hn : (s.house.entertainmentLights ⟨q,hq⟩).name = ""
  · rw [if_pos hn] at h
    cases h
    exact ⟨q,hq,hpq,hn.symm,rfl,fun h => absurd rfl h⟩
  · rw [if_neg hn] at h
    obtain ⟨x,hx,h⟩ := bind_ok.mp h
    cases h
    refine ⟨q,hq,hpq,rfl,rfl,fun _ => ?_⟩
    by_cases h0 : (running s.shared).lightCounter.toNat = 0
    · omega
    · have := selectedFrom_room hx h0
      omega

/-- The page from position `w` on, with the count `c` that it was drawn with. -/
structure At (m c w : ℕ) (s : Eink) : Prop where
  sheet : Sheet .selectable c w s
  room : Entertained m s.house
  many : 4 < s.house.allLightCount.toNat
  chosen : (s.house.entertainmentLights 0).name ≠ "" → (running s.shared).lightCounter.toNat ≤ 20
  count : (c = m ∧ w = 0) ∨ (c = s.house.allLightCount.toNat ∧ 4 < m)
  first : w = 0 ∨ w < m

theorem at_chosen (h : At m c w s) (hm : 0 < m) : (running s.shared).lightCounter.toNat ≤ 20 :=
  h.chosen (h.room.named 0 (by decide) hm)

theorem four_rounds (w : ℕ) : (PagedList.selectable.bound s (w+4) - w).toNat = 4 := by
  simp only [bound]
  omega

theorem le_fill (h : At m c w s) : min 4 (m-w) ≤ PagedList.selectable.fill s w := by
  have hfits := h.room.fits
  rw [fill, four_rounds]
  refine le_leading (min_le_left _ _) fun j hj => ?_
  have hnamed := h.room.named (w+j) (by omega) (by omega)
  exact_mod_cast selectable_named (by omega) (at_chosen h (by omega)) hnamed

theorem fill_stops (h : At m c w s)
    (hstop : ∀ hm : m < 20, m < w+4 → (s.house.entertainmentLights ⟨m,hm⟩).name = "") :
    PagedList.selectable.fill s w = min 4 (m-w) := by
  have hfits := h.room.fits
  have hfirst := h.first
  have hfour := h.sheet.four
  refine le_antisymm ?_ (le_fill h)
  by_cases hm : m < w+4
  · have hempty := selectable_empty (s := s) (by omega) (hstop (by omega) hm)
    rw [fill, show min 4 (m-w) = m-w by omega]
    refine leading_stops ?_
    rw [show (w:ℤ)+((m-w:ℕ):ℤ) = m by omega]
    exact hempty
  · rw [show min 4 (m-w) = 4 by omega]
    exact fill_le w

theorem sheet_drawn (h : Sheet .selectable c w s) {p : ℤ} :
    p ∈ s.screen.drawn ↔ ∃ j : ℕ, j < PagedList.selectable.fill s w ∧ (w:ℤ)+j = p := by
  rw [h.drawn]
  simp

theorem sheet_lit (h : Sheet .selectable c w s) {p : ℤ} (hp : p ∈ s.screen.drawn) :
    ∃ (q : ℕ) (hq : q < 20) (k : Fin 30), p = q ∧ (k.val:ℤ) < s.screen.buttonCount ∧
      (s.screen.buttons k).event = some .selectLight ∧
      (s.screen.buttons k).name = (s.house.entertainmentLights ⟨q,hq⟩).name ∧
      (s.screen.buttons k).id = (s.house.entertainmentLights ⟨q,hq⟩).id.toNat := by
  obtain ⟨j,hj,rfl⟩ := (sheet_drawn h).mp hp
  obtain ⟨k,hk,hs⟩ := h.shown j hj
  obtain ⟨item,hi,he,hid,hname⟩ := hs.item
  obtain ⟨q,hq,hwq,hiname,hiid,-⟩ := selectable_item hi
  exact ⟨q,hq,k,by exact_mod_cast hwq,hk,shows_event hs,hname.trans hiname,hid.trans hiid⟩

theorem at_tap {n : Tap} (h : At m c w s) (hn : Offered s n) (ht : tap s n = .ok t)
    (hfirst : n.turn.from w = 0 ∨ n.turn.from w < m) :
    At m s.house.allLightCount.toNat (n.turn.from w) t := by
  obtain ⟨hs,hl⟩ := tap_sheet h.sheet (fun h => by cases h) hn ht
  have hmany : 4 < m := by
    obtain ⟨rfl,rfl⟩ | ⟨-,h4⟩ := h.count
    · cases hd : n.turn with
      | next => exact h.sheet.next.mp ⟨n,hn,hd⟩
      | prev => exact absurd rfl (h.sheet.prev.mp ⟨n,hn,hd⟩)
    · exact h4
  refine ⟨hs,hl.1 ▸ h.room,hl.1 ▸ h.many,?_,Or.inr ⟨by rw [hl.1],hmany⟩,hfirst⟩
  rw [hl.1, hl.2]
  exact h.chosen

section Aligned
variable (ha : Aligned m s.house)
include ha

theorem aligned_fill (h : At m c w s) : PagedList.selectable.fill s w = min 4 (m-w) := by
  have hmany := h.many
  have hfirst := h.first
  have hfour := h.sheet.four
  refine fill_stops h fun hm hlt => ?_
  obtain hfew | ⟨-,hempty⟩ := ha
  · omega
  · exact hempty hm (by simp only [pageEnd]; omega)

theorem aligned_next (h : At m c w s) : Offers .next s ↔ w+4 < m := by
  have hmany := h.many
  have hfirst := h.first
  have hfour := h.sheet.four
  have hamong := h.room.among
  rw [h.sheet.next]
  obtain ⟨rfl,-⟩ | ⟨rfl,h4⟩ := h.count
  · rfl
  · obtain hfew | ⟨hsmall | hend,-⟩ := ha
    · omega
    · omega
    · simp only [pageEnd] at hend
      omega

theorem aligned_drawn (h : At m c w s) : s.screen.drawn = positions w (min (w+4) m) := by
  have hfirst := h.first
  rw [h.sheet.drawn, aligned_fill ha h, positions, List.range'_eq_map_range, List.map_map,
    show min (w+4) m - w = min 4 (m-w) by omega]
  apply List.map_congr_left
  intro j _
  simp

theorem aligned_page (h : At m c w s) : Page m s := by
  have hfirst := h.first
  have hfill := aligned_fill ha h
  refine ⟨fun p hp => ?_,?_⟩
  · obtain ⟨q,hq,k,hpq,hrest⟩ := sheet_lit h.sheet hp
    obtain ⟨j,hj,hwj⟩ := (sheet_drawn h.sheet).mp hp
    exact ⟨q,hq,k,hpq,by omega,hrest⟩
  · rw [aligned_next ha h]
    constructor
    · intro hlt
      refine ⟨w+4,hlt,fun p hp => ?_⟩
      obtain ⟨j,hj,rfl⟩ := (sheet_drawn h.sheet).mp hp
      push_cast
      omega
    · rintro ⟨q,hq,hall⟩
      have := hall (w+(min 4 (m-w) - 1 : ℕ)) ((sheet_drawn h.sheet).mpr ⟨_,by omega,rfl⟩)
      omega

theorem aligned_tap {n : Tap} (h : At m c w s) (hn : Offered s n) :
    ∃ t, tap s n = .ok t ∧ At m s.house.allLightCount.toNat (n.turn.from w) t ∧
      Aligned m t.house := by
  have hfits := h.room.fits
  have hfirst := h.first
  have hfour := h.sheet.four
  obtain ⟨hfrom,hpos⟩ : (n.turn.from w = 0 ∨ n.turn.from w < m) ∧ 0 < m := by
    cases hd : n.turn with
    | next =>
      have hlt := (aligned_next ha h).mp ⟨n,hn,hd⟩
      exact ⟨Or.inr hlt,by omega⟩
    | prev =>
      have := h.sheet.prev.mp ⟨n,hn,hd⟩
      simp only [Turn.from]
      omega
  have hfrom4 := from_four h.sheet n.turn
  obtain ⟨t,ht⟩ := tap_fits h.sheet hn fun j hj =>
    by exact_mod_cast selectable_reads (s := s) (p := n.turn.from w+j) (by omega) (at_chosen h hpos)
  have hat := at_tap h hn ht hfrom
  have hl := (tap_sheet h.sheet (fun h => by cases h) hn ht).2
  exact ⟨t,ht,hat,hl.1 ▸ ha⟩

theorem aligned_runs {ms : List Tap} (h : At m c w s) (hm : Meets tap Offered s ms) :
    Runs tap (Page m) (fun _ => False) s ms := by
  induction ms generalizing s w c with
  | nil => exact aligned_page ha h
  | cons n ms ih =>
    obtain ⟨u,hu,hat,hau⟩ := aligned_tap ha h hm.1
    have hrest := hm.2
    rw [hu] at hrest
    exact ⟨aligned_page ha h,by rw [hu]; exact ih hau hat hrest⟩

theorem aligned_forward {ms : List Tap} (h : At m c w s) (hm : Meets tap Forward s ms) :
    w+4*ms.length ≤ max w m ∧ ∀ t, run tap s ms = .ok t → ¬Offers .next t →
      shown s ms = positions w m := by
  have hfirst := h.first
  induction ms generalizing s w c with
  | nil =>
    refine ⟨by simp,fun t ht hno => ?_⟩
    cases ht
    rw [aligned_next ha h] at hno
    rw [shown, aligned_drawn ha h, min_eq_right (by omega)]
  | cons n ms ih =>
    have hlt := (aligned_next ha h).mp ⟨n,hm.1⟩
    obtain ⟨u,hu,hat,hau⟩ := aligned_tap ha h hm.1.1
    rw [hm.1.2] at hat
    have hrest := hm.2
    rw [hu] at hrest
    obtain ⟨hlen,hshown⟩ := ih hau hat hrest hat.first
    simp only [Turn.from] at hlen hshown
    refine ⟨by simp only [List.length_cons]; omega,fun t ht hno => ?_⟩
    obtain ⟨v,hv,ht⟩ := run_cons_ok.mp ht
    obtain rfl : u = v := Except.ok.inj (hu.symm.trans hv)
    simp only [shown, hu]
    rw [hshown t ht hno, aligned_drawn ha h, min_eq_left (by omega),
      ← positions_split (by omega) (by omega)]

theorem aligned_paged (h : At m c 0 s) : Paged m s := by
  refine ⟨fun ms hm => aligned_runs ha h hm,⟨m,fun ms hm => ?_⟩,fun ms t hm hr hno => ?_⟩
  · have := (aligned_forward ha h hm).1
    omega
  · exact (aligned_forward ha h hm).2 t hr hno

end Aligned

theorem paged_reaches (hp : Paged m s) (h : At m m 0 s) (i : ℕ) (hi : i = 0 ∨ 4*i < m) :
    ∃ ms t c, Meets tap Offered s ms ∧ run tap s ms = .ok t ∧ At m c (4*i) t ∧
      SameLists s t := by
  induction i with
  | zero => exact ⟨[],s,m,trivial,rfl,h,rfl,rfl⟩
  | succ i ih =>
    obtain ⟨ms,t,c,hm,hr,hat,hl⟩ := ih (by omega)
    have hpage := runs_last (hp.lawful ms hm) hr
    have hfill := fill_le (l := .selectable) (s := t) (4*i)
    obtain ⟨n,hn,hd⟩ := hpage.more.mpr ⟨4*(i+1),by omega,fun p hp => by
      obtain ⟨j,hj,rfl⟩ := (sheet_drawn hat.sheet).mp hp
      push_cast
      omega⟩
    have hsnoc := meets_snoc hm hr hn
    have hstep := runs_step (hp.lawful _ hsnoc) hr
    cases hu : tap t n with
    | error e =>
      rw [hu] at hstep
      exact hstep.elim
    | ok u =>
      have hfrom : n.turn.from (4*i) = 4*(i+1) := by
        rw [hd]
        rfl
      have hnext := at_tap hat hn hu (by omega)
      rw [hfrom] at hnext
      have hlu := (tap_sheet hat.sheet (fun h => by cases h) hn hu).2
      refine ⟨ms++[n],u,_,hsnoc,run_append_ok.mpr ⟨t,hr,?_⟩,hnext,hlu.1.trans hl.1,hlu.2.trans hl.2⟩
      rw [run, hu]
      rfl

theorem paged_aligned (hp : Paged m s) (h : At m m 0 s) : Aligned m s.house := by
  have hfits := h.room.fits
  have hamong := h.room.among
  -- the last page that holds a light of the room
  obtain ⟨ms,t,c,hm,hr,hat,hl⟩ := paged_reaches hp h ((m-1)/4) (by omega)
  have hlast := runs_last (hp.lawful ms hm) hr
  have hfill := le_fill hat
  refine Or.inr ⟨?_,fun hm20 hlt => ?_⟩
  · by_contra hno
    have hcount : c = s.house.allLightCount.toNat := by
      obtain ⟨-,h0⟩ | ⟨hc,-⟩ := hat.count
      · omega
      · rw [hc, hl.1]
    simp only [pageEnd] at hno
    obtain ⟨q,hq,hall⟩ := hlast.more.mp (hat.sheet.next.mpr (by omega))
    have := hall ((m-1:ℕ):ℤ) ((sheet_drawn hat.sheet).mpr ⟨m-1-4*((m-1)/4),by omega,by omega⟩)
    omega
  · by_contra hn
    simp only [pageEnd] at hlt
    rw [← hl.1] at hn
    have hchosen : (running t.shared).lightCounter.toNat ≤ 20 := by
      by_cases h0 : 0 < m
      · exact at_chosen hat h0
      · obtain rfl : m = 0 := by omega
        exact hat.chosen hn
    have hmore : m-4*((m-1)/4)+1 ≤ PagedList.selectable.fill t (4*((m-1)/4)) := by
      rw [fill, four_rounds]
      refine le_leading (by omega) fun j hj => ?_
      by_cases hjm : 4*((m-1)/4)+j < m
      · exact_mod_cast selectable_named (by omega) hchosen (hat.room.named _ (by omega) hjm)
      · have hname : (t.house.entertainmentLights ⟨4*((m-1)/4)+j,by omega⟩).name ≠ "" := by
          rw [show (⟨4*((m-1)/4)+j,by omega⟩ : Fin 20) = ⟨m,hm20⟩ from
            Fin.ext (by simp only; omega)]
          exact hn
        exact_mod_cast selectable_named (by omega) hchosen hname
    obtain ⟨q,hq,k,hmq,hqm,-⟩ := hlast.lit (m:ℤ)
      ((sheet_drawn hat.sheet).mpr ⟨m-4*((m-1)/4),by omega,by omega⟩)
    omega

theorem draw_first {last : ℤ} {u v : Screen} (h : PagedList.selectable.draw s 0 last u = .ok v)
    (hlast : 0 < last) (hn : (s.house.entertainmentLights 0).name ≠ "") :
    (running s.shared).lightCounter.toNat ≤ 20 := by
  obtain ⟨n,hrounds⟩ : ∃ n, (last - 0).toNat = n+1 := ⟨(last-0).toNat-1,by omega⟩
  rw [draw, drawListFromArray, show bound s last .selectable = last from rfl, hrounds] at h
  obtain ⟨item,hi,-⟩ := bind_ok.mp h
  obtain ⟨q,hq,h0,hname,-,hfits⟩ := selectable_item hi
  obtain rfl : q = 0 := by omega
  exact hfits (hname ▸ hn)

theorem drawAllLights_at {a : Answers} (h : drawAllLights a s = .ok t) (he : Entertained m s.house)
    (hmany : 4 < s.house.allLightCount.toNat) : At m m 0 t ∧ t.house = s.house := by
  obtain ⟨d,hhouse,-,hscreen,hdraw⟩ := drawAllLights_cases h
  have hflag : s.house.allLightsPagination = true := by
    rw [he.flag, decide_eq_true_eq, UInt8.lt_iff_toNat_lt]
    exact hmany
  obtain ⟨-,u,v,hu,hv,rfl⟩ | ⟨hno,-⟩ := hdraw
  · have hbare : Bare d.screen := hscreen ▸ headed_bare _ _
    have hpage : d.screen.currentPageOnScreen = PagedList.selectable.text := by
      rw [hscreen]
      rfl
    have hoff : ∀ k, Off (d.screen.buttons k) := by
      rw [hscreen]
      exact headed_off _ _
    have hopening : Opening .selectable s.house.entertainmentRoom.lightCounter 4
        { d with screen := v } true := paged_opening hbare hpage hu hv
    have hsheet := paged_sheet hopening (paged_off hpage hoff hu hv)
    rw [he.count] at hsheet
    refine ⟨⟨hsheet,?_,?_,?_,Or.inl ⟨rfl,rfl⟩,Or.inl rfl⟩,hhouse⟩
    · exact (hhouse ▸ he : Entertained m d.house)
    · exact (hhouse ▸ hmany : 4 < d.house.allLightCount.toNat)
    · exact draw_first hv (by decide)
  · rw [hflag] at hno
    cases hno

theorem whole_fill {f : ℕ} (h : Opened .selectable m 2 f t) (hm : m ≤ 20)
    (hnamed : ∀ p (hp : p < 20), p < m → (t.house.entertainmentLights ⟨p,hp⟩).name ≠ "")
    (hs : 0 < m → (running t.shared).lightCounter.toNat ≤ 20) : f = m := by
  have hrounds : (PagedList.selectable.bound t m - 0).toNat = m := by
    simp only [bound]
    omega
  rw [h.fill, hrounds]
  refine le_antisymm (leading_le _ _ _) (le_leading (le_refl m) fun j hj => ?_)
  rw [zero_add]
  exact selectable_named (by omega) (hs (by omega)) (hnamed j (by omega) hj)

theorem whole_page (h : Opened .selectable m 2 m t) (hm : m ≤ 20) (hno : ¬Offers .next t) :
    Page m t := by
  have hcount := h.count
  refine ⟨fun p hp => ?_,fun hn => absurd hn hno,?_⟩
  · rw [h.drawn, List.mem_map] at hp
    obtain ⟨j,hj,rfl⟩ := hp
    rw [List.mem_range] at hj
    have hs := h.items ⟨2+j,by omega⟩ (by simp) (by simp only; omega)
    rw [Nat.add_sub_cancel_left] at hs
    obtain ⟨item,hi,he,hid,hname⟩ := hs.item
    obtain ⟨q,hq,hjq,hiname,hiid,-⟩ := selectable_item hi
    exact ⟨q,hq,⟨2+j,by omega⟩,hjq,by omega,by simp only; omega,shows_event hs,hname.trans hiname,
      hid.trans hiid⟩
  · rintro ⟨q,hq,hall⟩
    have := hall q (h.drawn ▸ List.mem_map.mpr ⟨q,List.mem_range.mpr hq,rfl⟩)
    omega

theorem drawAllLights_few {a : Answers} (h : drawAllLights a s = .ok t)
    (he : Entertained m s.house) (hfew : s.house.allLightCount.toNat ≤ 4) : Paged m t := by
  obtain ⟨d,hhouse,-,hscreen,hdraw⟩ := drawAllLights_cases h
  have hflag : s.house.allLightsPagination = false := by
    rw [he.flag, decide_eq_false_iff_not, UInt8.lt_iff_toNat_lt]
    exact Nat.not_lt.mpr hfew
  obtain ⟨hyes,-⟩ | ⟨-,v,hv,rfl⟩ := hdraw
  · rw [hflag] at hyes
    cases hyes
  rw [he.count] at hv
  have hbare : Bare d.screen := hscreen ▸ headed_bare _ _
  have hpage : d.screen.currentPageOnScreen = PagedList.selectable.text := by
    rw [hscreen]
    rfl
  have hopening : Opening .selectable 0 m { d with screen := v } false :=
    whole_opening hbare hpage hv
  have hno := opening_turnless hopening
  have hnamed := he.named
  rw [← hhouse] at hnamed
  cases hopening with
  | whole f ho hclear =>
    obtain rfl : f = m := whole_fill ho he.fits hnamed fun hm =>
      draw_first hv (by exact_mod_cast hm) (hnamed 0 (by decide) hm)
    have hfirst := whole_page ho he.fits fun ⟨n,hn,_⟩ => hno n hn
    refine ⟨fun ms hm => ?_,⟨0,fun ms hm => ?_⟩,fun ms t hm hr _ => ?_⟩
    all_goals cases ms with
      | nil => ?_
      | cons n ms => ?_
    · exact hfirst
    · exact absurd hm.1 (hno n)
    · exact le_refl 0
    · exact absurd hm.1.1 (hno n)
    · rw [shown, ho.drawn, positions, List.range_eq_range', Nat.sub_zero]
    · exact absurd hm.1.1 (hno n)

/-- The selectable lights page properly exactly when the bridge has at most
four lights, or the counts of the room and of the bridge end on the same page
(or the room fits one page) and an empty name follows the last light. -/
theorem paged_iff {a : Answers} (h : drawAllLights a s = .ok t) (he : Entertained m s.house) :
    Paged m t ↔ Aligned m s.house := by
  by_cases hfew : s.house.allLightCount.toNat ≤ 4
  · exact ⟨fun _ => Or.inl hfew,fun _ => drawAllLights_few h he hfew⟩
  · obtain ⟨hat,hhouse⟩ := drawAllLights_at h he (by omega)
    rw [← hhouse]
    exact ⟨fun hp => paged_aligned hp hat,fun ha => aligned_paged ha hat⟩

/-- An entertainment room of `m` lights on a bridge of `n` lights. -/
def lightsOf (m n : ℕ) : Eink :=
  { house := {
      entertainmentRoom := { lightCounter := UInt8.ofNat m }
      entertainmentLights := fun i =>
        if i.val < m then { id := UInt8.ofNat (i.val+1), name := "Lampe" } else {}
      allLightCount := UInt8.ofNat n
      allLightsPagination := decide (4 < UInt8.ofNat n) } }

def opened (m n : ℕ) : Eink := (drawAllLights {} (lightsOf m n)).toOption.getD {}

theorem lightsOf_entertained {m n : ℕ} (hm : m ≤ 20) (hmn : m ≤ n) (hn : n < 256) :
    Entertained m (lightsOf m n).house := by
  refine ⟨?_,hm,?_,rfl,fun p hp hlt => ?_⟩
  · simp only [lightsOf, UInt8.toNat_ofNat']
    omega
  · simp only [lightsOf, UInt8.toNat_ofNat']
    omega
  · simp [lightsOf, hlt]

theorem six_of_seven_paged : Paged 6 (opened 6 7) := by
  have hopen : drawAllLights {} (lightsOf 6 7) = .ok (opened 6 7) := ok_getD {} (by decide +kernel)
  refine (paged_iff hopen (lightsOf_entertained (by decide) (by decide) (by decide))).mpr
    (Or.inr ⟨Or.inr (by decide),fun _ _ => rfl⟩)

/-- With six of ten lights the second page, which shows the last two, offers a third. -/
theorem empty_page_offered : ¬∀ (m : ℕ) (a : Answers) (s t : Eink), Entertained m s.house →
    drawAllLights a s = .ok t → Paged m t := by
  intro hall
  have hopen : drawAllLights {} (lightsOf 6 10) = .ok (opened 6 10) :=
    ok_getD {} (by decide +kernel)
  have hpaged := hall 6 {} _ _ (lightsOf_entertained (by decide) (by decide) (by decide)) hopen
  have hruns := runs_ends (hpaged.lawful [PageTurns.next] (by decide +kernel))
  have hrun : run tap (opened 6 10) [PageTurns.next] =
      .ok ((run tap (opened 6 10) [PageTurns.next]).toOption.getD {}) :=
    ok_getD {} (by decide +kernel)
  rw [hrun, ends_ok] at hruns
  obtain ⟨q,hq,hlast⟩ := hruns.more.mp ⟨PageTurns.next,by decide +kernel,rfl⟩
  have := hlast 5 (by decide +kernel)
  omega

end THue.SelectablePaging
