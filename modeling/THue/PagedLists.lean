import THue.Pages

/-!
# Paged lists

The three lists that are drawn four entries at a time: what opening one leaves
in the button array, and what one turn of the page does to it.
-/

set_option autoImplicit false

namespace THue.PagedLists
open THue.Globals THue.Entertainment THue.CheckedArray THue.FaultRun THue.TouchScreen THue.Bridge
open THue.Pages

inductive PagedList where
  | rooms
  | lights
  | selectable
  deriving DecidableEq, Repr

namespace PagedList
variable (l : PagedList) (s : Eink)

def text : PagedList → String
  | .rooms => "ALLE RUM"
  | .lights => "RUM"
  | .selectable => "ALLE LAMPER"

def event : PagedList → Event
  | .rooms => .drawRoom
  | .lights => .drawLight
  | .selectable => .selectLight

def size : PagedList → ℤ
  | .rooms => 40
  | .lights => 48
  | .selectable => 48

def itemAt : PagedList → ℤ → Except Fault Item
  | .rooms => roomItem s.house.rooms
  | .lights => lightItem s.house.lights
  | .selectable => selectableItem s.house.entertainmentLights (running s.shared)

/-- The end of the entries drawn by a call that sets `topIndex` to `last`. -/
def bound (last : ℤ) : PagedList → ℤ
  | .lights => if s.house.lightCount.toNat < last then s.house.lightCount.toNat else last
  | .rooms | .selectable => last

def counter : PagedList → UInt8
  | .rooms => s.house.roomsCount
  | .lights => s.house.lightCount
  | .selectable => s.house.allLightCount

def draw (start last : ℤ) : Screen → Except Fault Screen :=
  drawListFromArray (l.itemAt s) l.size l.size start last (l.bound s last)

def fill (w : ℕ) : ℕ := leading (l.itemAt s) (l.bound s (w+4) - w).toNat w

/-- A list button that shows position `p`. -/
def Shows (p : ℤ) (b : Button) : Prop := ItemButton (l.itemAt s) l.size l.size p b

end PagedList

open PagedList

variable {l : PagedList} {s t : Eink}

theorem fill_le (w : ℕ) : l.fill s w ≤ 4 := by
  refine (leading_le _ _ _).trans ?_
  cases l <;> simp only [bound] <;> try split
  all_goals omega

theorem itemAt_ok {p : ℤ} {item : Item} (h : l.itemAt s p = .ok item) :
    item.event = l.event ∧ 0 ≤ p ∧ p < 50 := by
  cases l with
  | rooms =>
    obtain ⟨room,hr,hi⟩ := bind_ok.mp h
    obtain ⟨k,hk,rfl,-⟩ := read_ok.mp hr
    cases hi
    exact ⟨rfl,by omega,by omega⟩
  | lights =>
    obtain ⟨light,hr,hi⟩ := bind_ok.mp h
    obtain ⟨k,hk,rfl,-⟩ := read_ok.mp hr
    cases hi
    exact ⟨rfl,by omega,by omega⟩
  | selectable =>
    obtain ⟨light,hr,hi⟩ := bind_ok.mp h
    obtain ⟨k,hk,rfl,-⟩ := read_ok.mp hr
    refine ⟨?_,by omega,by omega⟩
    by_cases hn : light.name = ""
    · rw [if_pos hn] at hi
      cases hi
      rfl
    · rw [if_neg hn] at hi
      obtain ⟨b,-,hi⟩ := bind_ok.mp hi
      cases hi
      rfl

theorem shows_event {p : ℤ} {b : Button} (h : l.Shows s p b) : b.event = some l.event := by
  obtain ⟨item,hi,he,-⟩ := h.item
  rw [he, (itemAt_ok hi).1]

def SameLists (s t : Eink) : Prop := t.house = s.house ∧ t.shared = s.shared

theorem itemAt_congr (h : SameLists s t) : l.itemAt t = l.itemAt s := by
  cases l <;> simp only [itemAt, h.1, h.2]

theorem bound_congr (last : ℤ) (h : SameLists s t) : l.bound t last = l.bound s last := by
  cases l <;> simp only [bound, h.1]

theorem counter_congr (h : SameLists s t) : l.counter t = l.counter s := by
  cases l <;> simp only [counter, h.1]

theorem fill_congr (w : ℕ) (h : SameLists s t) : l.fill t w = l.fill s w := by
  rw [fill, fill, itemAt_congr h, bound_congr _ h]

theorem shows_congr {p : ℤ} {b : Button} (h : SameLists s t) : l.Shows t p b ↔ l.Shows s p b := by
  rw [Shows, Shows, itemAt_congr h]

/-- A page turned to that starts at position `w`. -/
structure Turned (l : PagedList) (w : ℕ) (s t : Eink) : Prop where
  lists : SameLists s t
  page : t.screen.currentPageOnScreen = l.text
  top : t.screen.topIndex = toUInt8 (w+4)
  count : 7 ≤ t.screen.buttonCount ∧ t.screen.buttonCount ≤ 9
  drawn : t.screen.drawn = (List.range (l.fill s w)).map (fun j : ℕ => (w:ℤ)+j)
  items : ∀ k : Fin 30, 3 ≤ k.val → k.val < 3+l.fill s w →
    l.Shows s (w+(k.val-3:ℕ)) (t.screen.buttons k)
  rows : ∀ k : Fin 30, 3 ≤ k.val → k.val < 3+l.fill s w →
    (t.screen.buttons k).y = 56 + 85*(((w:ℤ)%2+(k.val-3:ℕ))/2)
  kept : ∀ k : Fin 30, k.val < 3 ∨ (3+l.fill s w ≤ k.val ∧ k.val < 7) →
    t.screen.buttons k = s.screen.buttons k
  turns : ∀ k : Fin 30, 7 ≤ k.val → (k.val:ℤ) < t.screen.buttonCount →
    ((t.screen.buttons k).event = some .drawPrevPage ∧ t.screen.topIndex ≠ 4) ∨
      ((t.screen.buttons k).event = some .drawNextPage ∧ t.screen.topIndex < l.counter s)
  next : t.screen.topIndex < l.counter s → ∃ k : Fin 30, (k.val:ℤ) < t.screen.buttonCount ∧
    (t.screen.buttons k).event = some .drawNextPage ∧
    inside 111 222 (t.screen.buttons k) = true ∧
    ∀ j < k, 7 ≤ j.val → inside 111 222 (t.screen.buttons j) = false

theorem onScreen_ok {f : Screen → Except Fault Screen} :
    onScreen f s = .ok t ↔ ∃ u, f s.screen = .ok u ∧ t = { s with screen := u } := by
  rw [onScreen, bind_ok]
  exact exists_congr fun u => and_congr_right fun _ => ⟨fun h => (Except.ok.inj h).symm,
    fun h => congrArg Except.ok h.symm⟩

theorem turnPage_eq (start last : ℤ) (h : s.screen.currentPageOnScreen = l.text) :
    turnPage start last s = (do
      let t ← onScreen (l.draw s start last) { s with screen := { s.screen with buttonCount := 3 } }
      onScreen (drawPaginationButtons (l.counter t)) t) := by
  cases l with
  | rooms =>
    rw [turnPage]
    exact if_pos h
  | lights =>
    rw [turnPage]
    exact (if_neg (by simp [h, text])).trans (if_pos h)
  | selectable =>
    rw [turnPage]
    exact (if_neg (by simp [h, text])).trans ((if_neg (by simp [h, text])).trans (if_pos h))

theorem turnPage_ok {start last : ℤ} (hp : s.screen.currentPageOnScreen = l.text) :
    turnPage start last s = .ok t ↔ ∃ u v,
      l.draw s start last { s.screen with buttonCount := 3 } = .ok u ∧
      drawPaginationButtons (l.counter s) u = .ok v ∧ t = { s with screen := v } := by
  rw [turnPage_eq start last hp, bind_ok]
  constructor
  · rintro ⟨a,ha,hb⟩
    obtain ⟨u,hu,rfl⟩ := onScreen_ok.mp ha
    obtain ⟨v,hv,rfl⟩ := onScreen_ok.mp hb
    refine ⟨u,v,hu,?_,rfl⟩
    cases l <;> exact hv
  · rintro ⟨u,v,hu,hv,rfl⟩
    refine ⟨_,onScreen_ok.mpr ⟨u,hu,rfl⟩,onScreen_ok.mpr ⟨v,?_,rfl⟩⟩
    cases l <;> exact hv

theorem turned_press {w : ℕ} {b : Button} (h : Turned l w { s with pressedButton := b } t) :
    Turned l w s t := by
  have hl : SameLists s t := h.lists
  cases l <;> exact ⟨hl,h.page,h.top,h.count,h.drawn,h.items,h.rows,h.kept,h.turns,h.next⟩

theorem turnPage_inside {w : ℕ} (hp : s.screen.currentPageOnScreen = l.text)
    (h : turnPage w (w+4) s = .ok t) (hw : (w:ℤ) < l.bound s (w+4)) : w < 50 := by
  obtain ⟨u,-,hu,-⟩ := (turnPage_ok hp).mp h
  obtain ⟨n,hn⟩ : ∃ n, (l.bound s (w+4) - w).toNat = n+1 := ⟨(l.bound s (w+4) - w).toNat-1,by omega⟩
  rw [draw, drawListFromArray, hn] at hu
  obtain ⟨item,hi,-⟩ := bind_ok.mp hu
  have := (itemAt_ok hi).2.2
  omega

theorem turnPage_stop {w : ℕ} (hp : s.screen.currentPageOnScreen = l.text)
    (h : turnPage w (w+4) s = .ok t) (hf : (w:ℤ)+l.fill s w < l.bound s (w+4)) :
    w+l.fill s w < 50 := by
  obtain ⟨u,-,hu,-⟩ := (turnPage_ok hp).mp h
  obtain ⟨item,hi,-⟩ := drawItems_stop hu (by rw [fill] at hf; omega)
  have := (itemAt_ok hi).2.2
  rw [fill]
  omega

theorem turnPage_fits {w : ℕ} (hp : s.screen.currentPageOnScreen = l.text)
    (h : ∀ j : ℕ, j < 4 → ∃ item, l.itemAt s (w+j) = .ok item) :
    ∃ t, turnPage w (w+4) s = .ok t := by
  have hb : (l.bound s (w+4) - w).toNat ≤ 4 := by
    cases l <;> simp only [bound] <;> try split
    all_goals omega
  have hdraw : ∃ u, drawItems (l.itemAt s) l.size l.size (l.bound s (w+4) - w).toNat w 22 56
      { s.screen with buttonCount := 3, topIndex := toUInt8 (w+4), drawn := [] } = .ok u :=
    drawItems_fits (c := 3) rfl (by omega) fun j hj => h j (by omega)
  obtain ⟨u,hu⟩ := hdraw
  exact ⟨_,(turnPage_ok hp).mpr ⟨u,_,hu,drawPaginationButtons_eq (l.counter s) u,rfl⟩⟩

theorem turnPage_turned {w : ℕ} (hp : s.screen.currentPageOnScreen = l.text)
    (h : turnPage w (w+4) s = .ok t) : Turned l w s t := by
  obtain ⟨u,v,hu,hv,rfl⟩ := (turnPage_ok hp).mp h
  have hd : ItemsDrawn (l.itemAt s) l.size l.size w 56 3 (l.fill s w)
      { s.screen with buttonCount := 3, topIndex := toUInt8 (w+4), drawn := [] } u :=
    drawListFromArray_ok rfl hu
  have hr := drawPaginationButtons_ok hv
  have hf : 3+l.fill s w ≤ 7 := by
    have := fill_le (l := l) (s := s) w
    omega
  have hbelow : ∀ k : Fin 30, k.val < 3+l.fill s w → v.buttons k = u.buttons k :=
    fun k hk => hr.below k (by omega)
  have htop : v.topIndex = u.topIndex := hr.top
  refine ⟨⟨rfl,rfl⟩,hr.page.trans (hd.page.trans hp),htop.trans hd.top,hr.count,
    hr.drawn.trans hd.drawn,fun k h3 hk => ?_,fun k h3 hk => ?_,fun k hk => ?_,?_,?_⟩
  · show l.Shows s _ (v.buttons k)
    rw [hbelow k hk]
    exact hd.inside k h3 hk
  · show (v.buttons k).y = _
    rw [hbelow k hk]
    exact hd.rows k h3 hk
  · show v.buttons k = _
    rw [hr.below k (by omega)]
    exact hd.outside k (by omega)
  · show ∀ k : Fin 30, 7 ≤ k.val → (k.val:ℤ) < v.buttonCount →
      _ ∧ v.topIndex ≠ 4 ∨ _ ∧ v.topIndex < _
    rw [htop]
    exact hr.turns
  · show v.topIndex < _ → _
    rw [htop]
    exact hr.next

def openList (a : Answers) (room : ℤ) (s : Eink) : PagedList → Except Fault Eink
  | .rooms => drawAllGroups a s
  | .lights => drawRoom a room s
  | .selectable => drawAllLights a s

/-- A button that neither shows an entry nor turns the page. -/
def Plain (b : Button) : Prop :=
  b.event ≠ some .drawRoom ∧ b.event ≠ some .drawLight ∧ b.event ≠ some .selectLight ∧
    b.event ≠ some .drawNextPage ∧ b.event ≠ some .drawPrevPage

structure Bare (s : Screen) : Prop where
  count : s.buttonCount = 2
  bar : ∀ k : Fin 30, k.val < 2 → Plain (s.buttons k) ∧ inside 111 222 (s.buttons k) = false
  empty : ∀ k : Fin 30, 2 ≤ k.val → s.buttons k = {}

theorem headed_bare (text : String) (s : Screen) : Bare (headed text s) := by
  refine ⟨rfl,fun k hk => ?_,headed_empty text s⟩
  obtain rfl | rfl : k = 0 ∨ k = 1 := by omega
  · by_cases ht : text = "HJEM" <;> simp [headed, ht, Plain, navButton, inside]
  · simp [headed, Plain, navButton, inside]

theorem plain_empty : Plain {} := by simp [Plain]

theorem bare_plain {s : Screen} (h : Bare s) (k : Fin 30) : Plain (s.buttons k) := by
  by_cases hk : k.val < 2
  · exact (h.bar k hk).1
  · rw [h.empty k (by omega)]
    exact plain_empty

/-- A list opened at its first entry, with `c` buttons before the entries drawn. -/
structure Opened (l : PagedList) (last : ℤ) (c f : ℕ) (t : Eink) : Prop where
  fill : f = leading (l.itemAt t) (l.bound t last - 0).toNat 0
  page : t.screen.currentPageOnScreen = l.text
  top : t.screen.topIndex = toUInt8 last
  count : t.screen.buttonCount = c+f
  drawn : t.screen.drawn = (List.range f).map (fun j : ℕ => (j:ℤ))
  items : ∀ k : Fin 30, c ≤ k.val → k.val < c+f → l.Shows t (k.val-c:ℕ) (t.screen.buttons k)
  room : f ≠ 0 → c+f ≤ 30

structure Row (counter : UInt8) (c : ℕ) (s : Screen) : Prop where
  low : 7 ≤ c
  next : ∀ k : Fin 30, 7 ≤ k.val → k.val < c →
    (s.buttons k).event = some .drawNextPage ∧ 4 < counter
  offered : 4 < counter → inside 111 222 (s.buttons 7) = true ∧ 7 < c

theorem draw_opened {last : ℤ} {c : ℕ} {u v : Screen} (hc : u.buttonCount = c)
    (hp : u.currentPageOnScreen = l.text) (h : l.draw s 0 last u = .ok v) :
    ∃ f, Opened l last c f { s with screen := v } ∧
      ∀ k : Fin 30, k.val < c → v.buttons k = u.buttons k := by
  have hd := drawListFromArray_ok hc h
  refine ⟨leading (l.itemAt s) (l.bound s last - 0).toNat 0,⟨?_,hd.page.trans hp,hd.top,hd.count,
    ?_,fun k h1 h2 => ?_,hd.room⟩,fun k hk => hd.outside k (Or.inl hk)⟩
  · cases l <;> rfl
  · rw [hd.drawn]
    simp
  · have := hd.inside k h1 h2
    rw [zero_add] at this
    cases l <;> exact this

theorem row_opened {counter : UInt8} {u v : Screen} (h4 : u.topIndex = 4)
    (h : drawPaginationButtons counter u = .ok v) :
    ∃ c : ℕ, v.buttonCount = c ∧ Row counter c v := by
  have hr := drawPaginationButtons_ok h
  have hb := hr.count
  refine ⟨v.buttonCount.toNat,by omega,by omega,fun k h7 hk => ?_,fun hn => ?_⟩
  · obtain ⟨-,hne⟩ | hnext := hr.turns k h7 (by omega)
    · exact absurd h4 hne
    · exact ⟨hnext.1,h4 ▸ hnext.2⟩
  · rw [drawPaginationButtons_eq, if_neg (not_not.mpr h4), if_pos (h4 ▸ hn)] at h
    cases h
    exact ⟨rfl,by simp⟩

/-- A button outside the list: plain, and away from the arrow to the next page. -/
def Clear (b : Button) : Prop := Plain b ∧ inside 111 222 b = false

theorem bare_clear {s : Screen} (h : Bare s) (k : Fin 30) : Clear (s.buttons k) := by
  by_cases hk : k.val < 2
  · exact h.bar k hk
  · rw [h.empty k (by omega)]
    exact ⟨plain_empty,rfl⟩

inductive Opening (l : PagedList) (counter : UInt8) (last : ℤ) (t : Eink) : Bool → Prop where
  | whole (f : ℕ) (opened : Opened l last 2 f t)
      (clear : ∀ k : Fin 30, k.val < 2 → Clear (t.screen.buttons k)) :
      Opening l counter last t false
  | paged (c f : ℕ) (opened : Opened l 4 c f t) (row : Row counter c t.screen)
      (clear : ∀ k : Fin 30, k.val < 7 → Clear (t.screen.buttons k)) :
      Opening l counter last t true

theorem whole_opening {counter : UInt8} {last : ℤ} {v : Screen} (hb : Bare s.screen)
    (hp : s.screen.currentPageOnScreen = l.text) (h : l.draw s 0 last s.screen = .ok v) :
    Opening l counter last { s with screen := v } false := by
  obtain ⟨f,ho,hk⟩ := draw_opened hb.count hp h
  refine .whole f ho fun k h2 => ?_
  rw [show ({ s with screen := v } : Eink).screen.buttons k = _ from hk k h2]
  exact bare_clear hb k

theorem paged_opening {counter : UInt8} {last : ℤ} {u v : Screen} (hb : Bare s.screen)
    (hp : s.screen.currentPageOnScreen = l.text)
    (hu : drawPaginationButtons counter { s.screen with topIndex := 4 } = .ok u)
    (h : l.draw s 0 4 u = .ok v) : Opening l counter last { s with screen := v } true := by
  obtain ⟨c,hc,hr⟩ := row_opened rfl hu
  have hpag := drawPaginationButtons_ok hu
  obtain ⟨f,ho,hk⟩ := draw_opened hc (hpag.page.trans hp) h
  have hlow := hr.low
  refine .paged c f ho ⟨hlow,fun k h7 hkc => ?_,fun hn => ?_⟩ fun k h7 => ?_
  · rw [show ({ s with screen := v } : Eink).screen.buttons k = _ from hk k hkc]
    exact hr.next k h7 hkc
  · have hrow := hr.offered hn
    rw [show ({ s with screen := v } : Eink).screen.buttons 7 = _ from hk 7 hrow.2]
    exact hrow
  · rw [show ({ s with screen := v } : Eink).screen.buttons k = _ from hk k (by omega),
      hpag.below k h7]
    exact bare_clear hb k

theorem drawHeader_bare {text : String} (h : drawHeader text s = .ok t) :
    Bare t.screen ∧ t.screen.currentPageOnScreen = text ∧ t.house = s.house ∧
      running t.shared = running s.shared := by
  obtain ⟨nav,-,rfl⟩ := drawHeader_ok.mp h
  exact ⟨headed_bare _ _,rfl,rfl,rfl⟩

theorem drawAllGroups_opening {a : Answers} (h : drawAllGroups a s = .ok t) :
    Opening .rooms s.house.roomsCount 4 t s.house.roomPagination ∧ t.house = s.house := by
  obtain ⟨b,hb,h⟩ := bind_ok.mp h
  obtain ⟨hbare,hpage,hhouse,-⟩ := drawHeader_bare hb
  change b.house = s.house at hhouse
  rw [← hhouse]
  by_cases hp : b.house.roomPagination = true
  · obtain ⟨d,hd,h⟩ := bind_ok.mp ((if_pos hp).symm.trans h)
    obtain ⟨u,hu,rfl⟩ := onScreen_ok.mp hd
    obtain ⟨v,hv,rfl⟩ := onScreen_ok.mp h
    rw [hp]
    exact ⟨paged_opening (l := .rooms) (s := b) hbare hpage hu hv,rfl⟩
  · obtain ⟨v,hv,rfl⟩ := onScreen_ok.mp ((if_neg hp).symm.trans h)
    rw [eq_false_of_ne_true hp]
    exact ⟨whole_opening (l := .rooms) (s := b) hbare hpage hv,rfl⟩

theorem drawRoom_cases {a : Answers} {room : ℤ} (h : drawRoom a room s = .ok t) : ∃ d : Eink,
    (∃ house, chooseRoom room s.house = .ok house ∧ d.house.currentRoom = house.currentRoom ∧
      getLightStates (.outside .lights) a.states house.currentRoom.lightIds
        house.currentRoom.lightCounter house.lights = .ok d.house.lights) ∧
    d.house.lightCount = d.house.currentRoom.lightCounter ∧
    d.screen = { headed d.house.currentRoom.name s.screen with currentPageOnScreen := "RUM" } ∧
    ((4 < d.house.lightCount ∧ ∃ u v,
        drawPaginationButtons d.house.lightCount { d.screen with topIndex := 4 } = .ok u ∧
        PagedList.lights.draw d 0 4 u = .ok v ∧ t = { d with screen := v }) ∨
      (¬4 < d.house.lightCount ∧ ∃ v, PagedList.lights.draw d 0 4 d.screen = .ok v ∧
        t = { d with screen := v })) := by
  obtain ⟨house,hhouse,h⟩ := bind_ok.mp h
  obtain ⟨b,hb,h⟩ := bind_ok.mp h
  obtain ⟨nav,-,rfl⟩ := drawHeader_ok.mp hb
  obtain ⟨lights,hlights,h⟩ := bind_ok.mp h
  let d : Eink := { s with
    nav := nav
    screen := { headed house.currentRoom.name s.screen with currentPageOnScreen := "RUM" }
    shared := (logAction a (navigatedTo "drawRoom" house.currentRoom.name) s).shared
    house := { house with lights := lights, lightCount := house.currentRoom.lightCounter } }
  refine ⟨d,⟨house,hhouse,rfl,hlights⟩,rfl,rfl,?_⟩
  by_cases hp : 4 < house.currentRoom.lightCounter
  · obtain ⟨e,he,h⟩ := bind_ok.mp ((if_pos hp).symm.trans h)
    obtain ⟨u,hu,rfl⟩ := onScreen_ok.mp he
    obtain ⟨v,hv,rfl⟩ := onScreen_ok.mp h
    exact Or.inl ⟨hp,u,v,hu,hv,rfl⟩
  · obtain ⟨v,hv,rfl⟩ := onScreen_ok.mp ((if_neg hp).symm.trans h)
    exact Or.inr ⟨hp,v,hv,rfl⟩

theorem drawRoom_opening {a : Answers} {room : ℤ} (h : drawRoom a room s = .ok t) :
    ∃ paged, Opening .lights t.house.lightCount 4 t paged := by
  obtain ⟨d,-,-,hscreen,hdraw⟩ := drawRoom_cases h
  have hheaded := headed_bare d.house.currentRoom.name s.screen
  have hbare : Bare d.screen := by
    rw [hscreen]
    exact ⟨hheaded.count,hheaded.bar,hheaded.empty⟩
  have hpage : d.screen.currentPageOnScreen = PagedList.lights.text := by
    rw [hscreen]
    rfl
  obtain ⟨-,u,v,hu,hv,rfl⟩ | ⟨-,v,hv,rfl⟩ := hdraw
  · exact ⟨true,paged_opening hbare hpage hu hv⟩
  · exact ⟨false,whole_opening hbare hpage hv⟩

theorem drawAllLights_cases {a : Answers} (h : drawAllLights a s = .ok t) : ∃ d : Eink,
    d.house = s.house ∧ running d.shared = running s.shared ∧
    d.screen = headed "ALLE LAMPER" s.screen ∧
    ((s.house.allLightsPagination = true ∧ ∃ u v,
        drawPaginationButtons s.house.entertainmentRoom.lightCounter
          { d.screen with topIndex := 4 } = .ok u ∧
        PagedList.selectable.draw d 0 4 u = .ok v ∧ t = { d with screen := v }) ∨
      (s.house.allLightsPagination = false ∧ ∃ v,
        PagedList.selectable.draw d 0 s.house.entertainmentRoom.lightCounter.toNat d.screen =
          .ok v ∧
        t = { d with screen := v })) := by
  obtain ⟨b,hb,h⟩ := bind_ok.mp h
  obtain ⟨nav,-,rfl⟩ := drawHeader_ok.mp hb
  let d : Eink := { logAction a (navigated "drawAllLightsInBehavior") s with
    screen := headed "ALLE LAMPER" s.screen, nav := nav }
  refine ⟨d,rfl,rfl,rfl,?_⟩
  by_cases hp : s.house.allLightsPagination = true
  · obtain ⟨e,he,h⟩ := bind_ok.mp ((if_pos hp).symm.trans h)
    obtain ⟨u,hu,rfl⟩ := onScreen_ok.mp he
    obtain ⟨v,hv,rfl⟩ := onScreen_ok.mp h
    have h4 : u.topIndex.toNat = 4 := by
      rw [(drawPaginationButtons_ok hu).top]
      rfl
    simp only [h4] at hv
    exact Or.inl ⟨hp,u,v,hu,hv,rfl⟩
  · obtain ⟨v,hv,rfl⟩ := onScreen_ok.mp ((if_neg hp).symm.trans h)
    exact Or.inr ⟨eq_false_of_ne_true hp,v,hv,rfl⟩

theorem drawAllLights_opening {a : Answers} (h : drawAllLights a s = .ok t) :
    ∃ counter last paged, Opening .selectable counter last t paged := by
  obtain ⟨d,-,-,hscreen,hdraw⟩ := drawAllLights_cases h
  have hbare : Bare d.screen := hscreen ▸ headed_bare _ _
  have hpage : d.screen.currentPageOnScreen = PagedList.selectable.text := by
    rw [hscreen]
    rfl
  obtain ⟨-,u,v,hu,hv,rfl⟩ | ⟨-,v,hv,rfl⟩ := hdraw
  · exact ⟨_,4,true,paged_opening hbare hpage hu hv⟩
  · exact ⟨0,_,false,whole_opening hbare hpage hv⟩

theorem openList_opening {a : Answers} {room : ℤ} (h : openList a room s l = .ok t) :
    ∃ counter last paged, Opening l counter last t paged ∧
      (l = .lights → counter = t.house.lightCount) := by
  cases l with
  | rooms => exact ⟨_,4,_,(drawAllGroups_opening h).1,nofun⟩
  | lights =>
    obtain ⟨paged,h⟩ := drawRoom_opening h
    exact ⟨_,4,paged,h,fun _ => rfl⟩
  | selectable =>
    obtain ⟨counter,last,paged,h⟩ := drawAllLights_opening h
    exact ⟨counter,last,paged,h,nofun⟩

inductive Turn where
  | next
  | prev
  deriving DecidableEq, Repr

def Turn.event : Turn → Event
  | .next => .drawNextPage
  | .prev => .drawPrevPage

def Turn.apply : Turn → Eink → Except Fault Eink
  | .next => drawNextPage
  | .prev => drawPrevPage

/-- The first position of the page turned to from the page at `w`. -/
def Turn.from (w : ℕ) : Turn → ℕ
  | .next => w+4
  | .prev => w-4

def turnAt (x y : ℤ) (s : Screen) : Option Turn :=
  match onTouchEvent x y s with
  | none => none
  | some i =>
      match (s.buttons i).event with
      | some .drawNextPage => some .next
      | some .drawPrevPage => some .prev
      | _ => none

/-- A touch on a direction of the pagination row. -/
structure Tap where
  answers : Answers := {}
  x : ℤ
  y : ℤ
  turn : Turn

def tap (s : Eink) (m : Tap) : Except Fault Eink := touch m.answers m.x m.y s

def Offered (s : Eink) (m : Tap) : Prop := turnAt m.x m.y s.screen = some m.turn

instance offered_decidable (s : Eink) (m : Tap) : Decidable (Offered s m) :=
  inferInstanceAs (Decidable (_ = _))

theorem plain_turn {b : Button} (h : Plain b) (d : Turn) : b.event ≠ some d.event := by
  cases d
  · exact h.2.2.2.1
  · exact h.2.2.2.2

theorem shows_turn {p : ℤ} {b : Button} (h : l.Shows t p b) (d : Turn) :
    b.event ≠ some d.event := by
  rw [shows_event h]
  cases l <;> cases d <;> decide

theorem turnAt_some {x y : ℤ} {s : Screen} {d : Turn} (h : turnAt x y s = some d) :
    ∃ i, onTouchEvent x y s = some i ∧ (i.val:ℤ) < s.buttonCount ∧
      (s.buttons i).event = some d.event := by
  rw [turnAt] at h
  split at h
  · cases h
  · next i hi =>
    refine ⟨i,hi,onTouchEvent_live hi,?_⟩
    split at h <;> cases h <;> assumption

theorem opening_turnless {counter : UInt8} {last : ℤ} (h : Opening l counter last t false)
    (m : Tap) : ¬Offered t m := by
  intro ho
  obtain ⟨k,-,hkc,he⟩ := turnAt_some ho
  cases h with
  | whole f hop hk =>
    have hcount := hop.count
    by_cases h2 : k.val < 2
    · exact plain_turn (hk k h2).1 m.turn he
    · exact shows_turn (hop.items k (by omega) (by omega)) m.turn he

theorem touch_turn {a : Answers} {x y : ℤ} {d : Turn} (h : turnAt x y s.screen = some d) :
    ∃ i, touch a x y s = d.apply { s with pressedButton := s.screen.buttons i } := by
  obtain ⟨i,hi,-,he⟩ := turnAt_some h
  refine ⟨i,?_⟩
  simp only [touch, hi, he]
  cases d <;> rfl

theorem toUInt8_toNat {n : ℕ} (h : n < 256) : (toUInt8 n).toNat = n := by
  exact_mod_cast toUInt8_cast (n := n) (by omega) (by omega)

theorem turn_apply {d : Turn} {w : ℕ} (ht : s.screen.topIndex = toUInt8 (w+4)) (hw : w < 50)
    (hd : d = .prev → 4 ≤ w) :
    d.apply s = turnPage (d.from w) (d.from w + 4) s := by
  have htop : s.screen.topIndex.toNat = w+4 := by
    rw [ht]
    exact_mod_cast toUInt8_toNat (n := w+4) (by omega)
  cases d with
  | next =>
    rw [Turn.apply, drawNextPage, htop]
    simp [Turn.from]
  | prev =>
    have := hd rfl
    rw [Turn.apply, drawPrevPage, htop]
    congr 1 <;> simp only [Turn.from] <;> omega

end THue.PagedLists
