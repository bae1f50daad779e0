import THue.PageSheets
import THue.PageTurns

/-!
# Paging through the lights of a room

Opening a room fetches its lights and draws the first four. Every page that
the arrows lead to shows the lights between its first position and `topIndex`,
in both directions and for every number of lights.
-/

set_option autoImplicit false

namespace THue.LightPaging
open THue.Globals THue.Entertainment THue.CheckedArray THue.FaultRun THue.TouchScreen THue.Bridge
open THue.Pages THue.PagedLists THue.PagedLists.PagedList THue.PageSheets
open THue.RoomPaging (Forward shown)

def positions (p q : ℕ) : List ℤ := (List.range' p (q-p)).map (fun k : ℕ => (k:ℤ))

/-- A page of the lights of room `r`, whose states the bridge gave as `states`. -/
structure Page (states : ℕ → Light) (r : Room) (s : Eink) : Prop where
  top : 0 < s.screen.topIndex.toNat ∧ s.screen.topIndex.toNat % 4 = 0
  drawn : s.screen.drawn = positions (s.screen.topIndex.toNat-4)
    (min s.screen.topIndex.toNat r.lightCounter.toNat)
  lit : ∀ p ∈ s.screen.drawn, ∃ (q : ℕ) (hq : q < 20) (k : Fin 30), p = q ∧
    (k.val:ℤ) < s.screen.buttonCount ∧ (s.screen.buttons k).event = some .drawLight ∧
    (s.screen.buttons k).name = (states q).name ∧
    (s.screen.buttons k).id = (r.lightIds ⟨q,hq⟩).toNat
  prev : Offers .prev s ↔ 4 < s.screen.topIndex.toNat
  next : Offers .next s ↔ s.screen.topIndex.toNat < r.lightCounter.toNat

/-- Paging in both directions shows the lights of room `r`, without a fault:
two opposite turns draw the same lights again, and turning forward to the end
shows each light once. -/
structure Paged (states : ℕ → Light) (r : Room) (s : Eink) : Prop where
  lawful : ∀ ms, Meets tap Offered s ms → Runs tap (Page states r) (fun _ => False) s ms
  undone : ∀ ms t m n, Meets tap Offered s ms → run tap s ms = .ok t →
    Meets tap Offered t [m,n] → m.turn ≠ n.turn →
    Ends (run tap t [m,n]) (fun u => u.screen.drawn = t.screen.drawn) (fun _ => False)
  ends : ∃ b, ∀ ms, Meets tap Forward s ms → ms.length ≤ b
  complete : ∀ ms t, Meets tap Forward s ms → run tap s ms = .ok t → ¬Offers .next t →
    shown s ms = positions 0 r.lightCounter.toNat

structure Fetched (states : ℕ → Light) (r : Room) (h : House) : Prop where
  count : h.lightCount = r.lightCounter
  fits : r.lightCounter.toNat ≤ 20
  stored : ∀ p (hp : p < 50) (hq : p < 20), p < r.lightCounter.toNat →
    h.lights ⟨p,hp⟩ = { states p with id := r.lightIds ⟨p,hq⟩ }

variable {states : ℕ → Light} {r : Room} {w : ℕ} {s t : Eink}

theorem fill_lights (hf : Fetched states r s.house)
    (hn : ∀ p < r.lightCounter.toNat, (states p).name ≠ "") (w : ℕ) :
    PagedList.lights.fill s w = min 4 (r.lightCounter.toNat-w) := by
  have hfits := hf.fits
  have hrounds : (bound s (w+4) .lights - w).toNat = min 4 (r.lightCounter.toNat-w) := by
    simp only [bound, hf.count]
    split <;> omega
  rw [fill, hrounds]
  refine le_antisymm (leading_le _ _ _) (le_leading (le_refl _) fun j hj => ?_)
  have hlight := hf.stored (w+j) (by omega) (by omega) (by omega)
  have hread := read_inside s.house.lights (Fault.outside .lights ((w+j:ℕ):ℤ)) (w+j) (by omega)
  refine ⟨_,bind_ok.mpr ⟨_,by exact_mod_cast hread,rfl⟩,?_⟩
  rw [hlight]
  exact hn (w+j) (by omega)

theorem drawRoom_fetched {o : Answers} {room : ℤ} (h : drawRoom o room s = .ok t) :
    Fetched o.states t.house.currentRoom t.house := by
  obtain ⟨d,⟨house,-,hroom,hlights⟩,hcount,-,hdraw⟩ := drawRoom_cases h
  have ht : t.house = d.house := by
    obtain ⟨-,u,v,-,-,rfl⟩ | ⟨-,v,-,rfl⟩ := hdraw <;> rfl
  rw [ht, hroom]
  obtain ⟨hfits,hstored,-⟩ := getLightStatesFrom_ok hlights
  refine ⟨hcount.trans (congrArg Room.lightCounter hroom),?_,fun p hp hq hlt => ?_⟩
  · by_cases h0 : house.currentRoom.lightCounter.toNat = 0
    · omega
    · have := hfits h0
      omega
  · exact hstored p hp hq (Nat.zero_le p) (by omega)

theorem drawRoom_sheet {o : Answers} {room : ℤ} (h : drawRoom o room s = .ok t) :
    Sheet .lights t.house.lightCount.toNat 0 t := by
  obtain ⟨d,-,-,hscreen,hdraw⟩ := drawRoom_cases h
  have hheaded := headed_bare d.house.currentRoom.name s.screen
  have hbare : Bare d.screen := by
    rw [hscreen]
    exact ⟨hheaded.count,hheaded.bar,hheaded.empty⟩
  have hoff : ∀ k, Off (d.screen.buttons k) := by
    rw [hscreen]
    exact headed_off d.house.currentRoom.name s.screen
  have hpage : d.screen.currentPageOnScreen = PagedList.lights.text := by
    rw [hscreen]
    rfl
  obtain ⟨-,u,v,hu,hv,rfl⟩ | ⟨hfew,v,hv,rfl⟩ := hdraw
  · have hopening : Opening .lights d.house.lightCount 4 { d with screen := v } true :=
      paged_opening hbare hpage hu hv
    exact paged_sheet hopening (paged_off hpage hoff hu hv)
  · have hle : d.house.lightCount.toNat ≤ 4 := by
      rw [UInt8.lt_iff_toNat_lt] at hfew
      exact Nat.not_lt.mp hfew
    have hopening : Opening .lights 0 4 { d with screen := v } false :=
      whole_opening hbare hpage hv
    exact whole_sheet hopening hle

/-- The page from position `w` on, of the room's lights. -/
structure At (states : ℕ → Light) (r : Room) (w : ℕ) (s : Eink) : Prop where
  sheet : Sheet .lights r.lightCounter.toNat w s
  fetched : Fetched states r s.house
  named : ∀ p < r.lightCounter.toNat, (states p).name ≠ ""
  first : w = 0 ∨ w < r.lightCounter.toNat

theorem at_drawn (h : At states r w s) :
    s.screen.drawn = positions w (min (w+4) r.lightCounter.toNat) := by
  have hfirst := h.first
  rw [h.sheet.drawn, fill_lights h.fetched h.named, positions, List.range'_eq_map_range,
    List.map_map, show min (w+4) r.lightCounter.toNat - w = min 4 (r.lightCounter.toNat-w) by omega]
  apply List.map_congr_left
  intro j _
  simp

theorem at_page (h : At states r w s) : Page states r s := by
  have htop := sheet_top h.sheet
  have hfour := h.sheet.four
  have hfits := h.fetched.fits
  refine ⟨by omega,?_,fun p hp => ?_,?_,?_⟩
  · rw [htop, Nat.add_sub_cancel]
    exact at_drawn h
  · rw [h.sheet.drawn, List.mem_map] at hp
    obtain ⟨j,hj,rfl⟩ := hp
    rw [List.mem_range] at hj
    obtain ⟨k,hk,hs⟩ := h.sheet.shown j hj
    rw [fill_lights h.fetched h.named] at hj
    obtain ⟨item,hi,he,hid,hname⟩ := hs.item
    obtain ⟨light,hr,hitem⟩ := bind_ok.mp hi
    obtain ⟨q,hq,hwq,rfl⟩ := read_ok.mp hr
    obtain rfl : w+j = q := by exact_mod_cast hwq
    cases hitem
    have hlight := h.fetched.stored (w+j) hq (by omega) (by omega)
    rw [hlight] at hname hid
    exact ⟨w+j,by omega,k,by push_cast; rfl,hk,he,hname,hid⟩
  · rw [h.sheet.prev, htop]
    omega
  · rw [h.sheet.next, htop]

theorem tap_at {m : Tap} (h : At states r w s) (hm : Offered s m) :
    ∃ t, tap s m = .ok t ∧ At states r (m.turn.from w) t := by
  have hinside := h.sheet.inside
  have hfits := h.fetched.fits
  have hfirst := h.first
  have hcount : r.lightCounter.toNat = s.house.lightCount.toNat := by rw [h.fetched.count]
  have hfrom : m.turn.from w = 0 ∨ m.turn.from w < r.lightCounter.toNat := by
    cases hd : m.turn with
    | next => exact Or.inr (h.sheet.next.mp ⟨m,hm,hd⟩)
    | prev =>
      simp only [Turn.from]
      omega
  obtain ⟨t,ht⟩ := tap_fits h.sheet hm fun j hj => by
    have hr := read_inside s.house.lights (Fault.outside .lights ((m.turn.from w+j:ℕ):ℤ))
      (m.turn.from w+j) (by omega)
    exact ⟨_,bind_ok.mpr ⟨_,by exact_mod_cast hr,rfl⟩⟩
  obtain ⟨hs,hl⟩ := tap_sheet h.sheet (fun _ => hcount) hm ht
  refine ⟨t,ht,?_,hl.1 ▸ h.fetched,h.named,hfrom⟩
  rw [hcount]
  exact hs

theorem at_runs {ms : List Tap} (h : At states r w s) (hm : Meets tap Offered s ms) :
    Runs tap (Page states r) (fun _ => False) s ms ∧
      ∀ t, run tap s ms = .ok t → ∃ v, At states r v t := by
  induction ms generalizing s w with
  | nil =>
    refine ⟨at_page h,fun t ht => ?_⟩
    cases ht
    exact ⟨w,h⟩
  | cons m ms ih =>
    obtain ⟨u,hu,hat⟩ := tap_at h hm.1
    have hrest := hm.2
    rw [hu] at hrest
    obtain ⟨hruns,hlast⟩ := ih hat hrest
    refine ⟨⟨at_page h,by rw [hu]; exact hruns⟩,fun t ht => ?_⟩
    obtain ⟨v,hv,ht⟩ := run_cons_ok.mp ht
    obtain rfl : u = v := Except.ok.inj (hu.symm.trans hv)
    exact hlast t ht

theorem opposite_turns {m n : Turn} (h : m ≠ n) (hw : m = .prev → 4 ≤ w) :
    n.from (m.from w) = w := by
  cases m <;> cases n
  · exact absurd rfl h
  · simp [Turn.from]
  · have := hw rfl
    simp only [Turn.from]
    omega
  · exact absurd rfl h

theorem at_undone {m n : Tap} (h : At states r w s) (hm : Meets tap Offered s [m,n])
    (hne : m.turn ≠ n.turn) :
    Ends (run tap s [m,n]) (fun u => u.screen.drawn = s.screen.drawn) (fun _ => False) := by
  obtain ⟨t,ht,hat⟩ := tap_at h hm.1
  have hrest := hm.2
  rw [ht] at hrest
  obtain ⟨u,hu,hback⟩ := tap_at hat hrest.1
  have hfrom : n.turn.from (m.turn.from w) = w := opposite_turns hne fun hd => by
    have := h.sheet.prev.mp ⟨m,hm.1,hd⟩
    have := h.sheet.four
    omega
  rw [hfrom] at hback
  have hrun : run tap s [m,n] = .ok u := run_cons_ok.mpr ⟨t,ht,run_cons_ok.mpr ⟨u,hu,rfl⟩⟩
  rw [hrun, ends_ok, at_drawn hback, at_drawn h]

theorem positions_split {p q v : ℕ} (h : p ≤ q) (hv : q ≤ v) :
    positions p v = positions p q ++ positions q v := by
  rw [positions, positions, positions, ← List.map_append,
    show v-p = (q-p)+(v-q) by omega, ← List.range'_append_1, show p+(q-p) = q by omega]

theorem forward_shows {ms : List Tap} (h : At states r w s) (hm : Meets tap Forward s ms) :
    w+4*ms.length ≤ max w r.lightCounter.toNat ∧
      ∀ t, run tap s ms = .ok t → ¬Offers .next t →
        shown s ms = positions w r.lightCounter.toNat := by
  have hfirst := h.first
  induction ms generalizing s w with
  | nil =>
    refine ⟨by simp,fun t ht hno => ?_⟩
    cases ht
    rw [h.sheet.next] at hno
    rw [shown, at_drawn h, min_eq_right (by omega)]
  | cons m ms ih =>
    have hlt := h.sheet.next.mp ⟨m,hm.1⟩
    obtain ⟨u,hu,hat⟩ := tap_at h hm.1.1
    rw [hm.1.2] at hat
    have hrest := hm.2
    rw [hu] at hrest
    obtain ⟨hlen,hshown⟩ := ih hat hrest hat.first
    simp only [Turn.from] at hlen hshown
    refine ⟨by simp only [List.length_cons]; omega,fun t ht hno => ?_⟩
    obtain ⟨v,hv,ht⟩ := run_cons_ok.mp ht
    obtain rfl : u = v := Except.ok.inj (hu.symm.trans hv)
    simp only [shown, hu]
    rw [hshown t ht hno, at_drawn h, min_eq_left (by omega)]
    rw [← positions_split (by omega) (by omega)]

/-- After opening a room whose lights the bridge named, paging is exact. -/
theorem room_paged {o : Answers} {room : ℤ} (h : drawRoom o room s = .ok t)
    (hn : ∀ p < t.house.currentRoom.lightCounter.toNat, (o.states p).name ≠ "") :
    Paged o.states t.house.currentRoom t := by
  have hf := drawRoom_fetched h
  have hs := drawRoom_sheet h
  rw [hf.count] at hs
  have hat : At o.states t.house.currentRoom 0 t := ⟨hs,hf,hn,Or.inl rfl⟩
  refine ⟨fun ms hm => (at_runs hat hm).1,fun ms u m n hm hr hmn hne => ?_,
    ⟨t.house.currentRoom.lightCounter.toNat,fun ms hm => ?_⟩,fun ms u hm hr hno => ?_⟩
  · obtain ⟨v,hv⟩ := (at_runs hat hm).2 u hr
    exact at_undone hv hmn hne
  · have := (forward_shows hat hm).1
    omega
  · exact (forward_shows hat hm).2 u hr hno

def sixNamed : Answers := { states := fun _ => { name := "Lampe" } }

def sixRoom : Eink := { house := { currentRoom := { name := "Stue", lightCounter := 6 } } }

def sixLights : Eink := (drawRoom sixNamed 0 sixRoom).toOption.getD {}

theorem six_lights_paged : Paged sixNamed.states sixLights.house.currentRoom sixLights ∧
    Meets tap Offered sixLights [PageTurns.next,PageTurns.prev,PageTurns.next] ∧
    shown sixLights [PageTurns.next] = positions 0 6 := by
  have hopen : drawRoom sixNamed 0 sixRoom = .ok sixLights := ok_getD {} (by decide +kernel)
  refine ⟨room_paged hopen fun p _ => ?_,by decide +kernel,by decide +kernel⟩
  simp [sixNamed]

end THue.LightPaging
