import THue.DialTargets
import THue.PageDrawing
import Mathlib.Data.Fintype.Pi

/-!
# Visits to rooms

`drawRoom` copies a room into `currentRoom` unless it was the last one opened,
and fetches its lights over the front of `lights`. A refresh rewrites `rooms`
and keeps the copy; a larger room visited before leaves its lights behind the
front. Runs are presses of any button of any page.
-/

set_option autoImplicit false

namespace THue.RoomVisits
open THue.Globals THue.CheckedArray THue.FaultRun THue.Entertainment THue.BehaviorTask
open THue.BehaviorSettings THue.TouchScreen THue.Bridge THue.Pages THue.PageDrawing THue.Encoder
open THue.DialTargets (twoRooms)

/-- A press of a button: `buttons[i].event(buttons[i].id, i)`. -/
def pressed (a : Answers) (b : Button) (i : Fin 30) (s : Eink) : Except Fault Eink :=
  match b.event with
  | none => .ok s
  | some e => handle a b.id i { s with pressedButton := b } e

def below (s : Eink) : Option ℤ :=
  (CheckedArray.read s.nav.pagePath (s.nav.pagePageCounter-2) ()).toOption

def roomOpened (b : Button) (s : Eink) : Option ℤ :=
  if b.event = some .drawRoom then some b.id
  else if b.event = some .goBack ∧ below s = some drawRoomID then some s.house.lastRoom
  else none

structure Move where
  answers : Answers
  button : Button
  index : Fin 30 := 0

/-- The pages, what was last loaded from `rooms` (the empty record at boot),
and what the bridge answered in the latest visit. -/
structure Visited where
  eink : Eink := {}
  loaded : Room := {}
  states : ℕ → Light := fun _ => {}

def entry (h : House) (r : ℤ) : Option Room := (CheckedArray.read h.rooms r ()).toOption

def visit (w : Visited) (m : Move) : Except Fault Visited := do
  let s ← pressed m.answers m.button m.index w.eink
  pure (match roomOpened m.button w.eink with
    | some r =>
        { eink := s
          loaded := if w.eink.house.lastRoom ≠ r then (entry w.eink.house r).getD w.loaded
            else w.loaded
          states := m.answers.states }
    | none => { w with eink := s })

/-- The level stays above 1. -/
def Leveled (w : Visited) (m : Move) : Prop :=
  m.button.event = some .fetchData → 2 ≤ m.answers.level.getD w.eink.uiLevel

variable {s t u : Eink} {a : Answers}

structure Framed (s t : Eink) : Prop where
  house : LightOf s t
  level : t.uiLevel = s.uiLevel

theorem shown_framed {k : PageKind} {room : ℤ} {last : Fin 20} (hk : k ≠ .room)
    (hhome : k = .home → 2 ≤ s.uiLevel) (h : Shown k room last s t) : Framed s t := by
  have hh := h.house
  refine ⟨?_,h.level⟩
  cases k with
  | room => exact absurd rfl hk
  | light => exact hh
  | home =>
    have h1 : s.uiLevel ≠ 1 := by
      have := hhome rfl
      omega
    rw [KeepsHouse, if_neg h1] at hh
    rw [LightOf, hh]
  | rooms | allLights | behaviors | behavior | edit => rw [LightOf, show t.house = s.house from hh]

theorem remains_framed (h : Remains s t) : Framed s t := by
  rw [h]
  exact ⟨rfl,rfl⟩

theorem framed_nav {n : Nav} (h : Framed { s with nav := n } t) : Framed s t := ⟨h.house,h.level⟩

theorem drawHome_framed (a : Answers) (hl : 2 ≤ s.uiLevel) :
    Ends (drawHome a s) (Framed s) (fun _ => True) :=
  ends_mono (drawHome_shown a s (by omega))
    (fun _ ht => shown_framed (by decide) (fun _ => hl) ht) fun _ _ => trivial

/-- What a press that opens no room keeps of the house. -/
structure Unvisited (h i : House) : Prop where
  room : i.currentRoom = h.currentRoom
  last : i.lastRoom = h.lastRoom
  lights : i.lights = h.lights
  count : i.lightCount = h.lightCount

def Settled (s t : Eink) : Prop := Unvisited s.house t.house ∧ 2 ≤ t.uiLevel

theorem framed_settled (hl : 2 ≤ s.uiLevel) (h : Framed s t) : Settled s t := by
  have hh := h.house
  rw [LightOf] at hh
  rw [← h.level] at hl
  exact ⟨⟨by rw [hh],by rw [hh],by rw [hh],by rw [hh]⟩,hl⟩

theorem fetchHouse_unvisited (a : Answers) (h : House) :
    Ends (fetchHouse a h) (Unvisited h) (fun _ => True) := by
  refine ends_bind (ends_true _) fun lights _ => ?_
  refine ends_bind (Q := Unvisited h) ?_ fun i hi => ?_
  · exact ends_bind (ends_true _) fun _ _ => ⟨rfl,rfl,rfl,rfl⟩
  · exact ends_bind (ends_true _) fun _ _ => ⟨hi.room,hi.last,hi.lights,hi.count⟩

theorem fetchData_settled (hl : 2 ≤ a.level.getD s.uiLevel) :
    Ends (fetchData a s) (Settled s) (fun _ => True) := by
  refine ends_bind (fetchHouse_unvisited a s.house) fun house hhouse => ?_
  refine ends_imp (drawHome_framed a hl) fun t ht => ?_
  obtain ⟨⟨hroom,hlast,hlights,hcount⟩,hlevel⟩ := framed_settled hl ht
  exact ⟨⟨hroom.trans hhouse.room,hlast.trans hhouse.last,hlights.trans hhouse.lights,
    hcount.trans hhouse.count⟩,hlevel⟩

theorem goBack_read {E : Fault → Prop} (s : Eink) (hE : ∀ i, E (.outside .pagePath i)) :
    Ends (CheckedArray.read s.nav.pagePath (s.nav.pagePageCounter-2)
      (Fault.outside .pagePath (s.nav.pagePageCounter-2))) (fun pageID => below s = some pageID)
      E := by
  rw [below, CheckedArray.read, CheckedArray.read]
  split
  · rfl
  · exact hE _

theorem goBack_settled (hl : 2 ≤ s.uiLevel) (h : below s ≠ some drawRoomID) :
    Ends (goBack a s) (Settled s) (fun _ => True) := by
  refine ends_imp (Q := Framed s) ?_ fun t ht => framed_settled hl ht
  have hread := goBack_read (E := fun _ => True) s fun _ => trivial
  cases hr : CheckedArray.read s.nav.pagePath (s.nav.pagePageCounter-2)
      (Fault.outside .pagePath (s.nav.pagePageCounter-2)) with
  | error e =>
    rw [goBack, hr]
    trivial
  | ok v =>
    rw [hr] at hread
    refine goBack_ends hr (fun _ => ?_) (fun _ _ => trivial) (fun k t hh _ hv ht => ?_)
      fun _ _ => ⟨rfl,rfl⟩
    · exact ends_imp (drawHome_framed (s := reopened s) a hl) fun _ ht => framed_nav ht
    · have hroom : k ≠ .room := by
        rintro rfl
        rw [hv] at hread
        exact h hread
      exact framed_nav (shown_framed (s := reopened s) hroom (fun hk => absurd hk hh) ht)

theorem handle_settled (id : ℤ) (i : Fin 30) {e : Event} (hl : 2 ≤ s.uiLevel)
    (hroom : e ≠ .drawRoom) (hback : e = .goBack → below s ≠ some drawRoomID)
    (hfetch : e = .fetchData → 2 ≤ a.level.getD s.uiLevel) :
    Ends (handle a id i s e) (Settled s) (fun _ => True) := by
  have hframed : ∀ {x : Except Fault Eink}, Ends x (Framed s) (fun _ => True) →
      Ends x (Settled s) (fun _ => True) := fun hx =>
    ends_imp hx fun t ht => framed_settled hl ht
  have hremains : ∀ {x : Except Fault Eink}, Ends x (Remains s) (fun _ => True) →
      Ends x (Settled s) (fun _ => True) := fun hx =>
    ends_imp hx fun t ht => framed_settled hl (remains_framed ht)
  cases e with
  | drawRoom => exact absurd rfl hroom
  | fetchData => exact fetchData_settled (hfetch rfl)
  | goBack => exact goBack_settled hl (hback rfl)
  | drawAllGroups | drawLight | drawAllLights | drawAllBehaviors | drawBehavior
  | changeBehaviorForTraining | changeBehaviorForAlarm | changeBehaviorForFest =>
    exact hframed (ends_mono (handle_shown rfl a id i s)
      (fun t ht => shown_framed (by decide) (fun hk => by cases hk) ht) fun _ _ => trivial)
  | drawHomeFromHomeButton =>
    let c : Eink := { s with nav := { s.nav with pagePageCounter := 0 } }
    exact hframed (ends_imp (drawHome_framed (s := c) a hl) fun _ ht => framed_nav ht)
  | drawNextPage | drawPrevPage => exact hremains (turnPage_remains _ _ s)
  | switch => exact framed_settled (t := switch a s) hl ⟨rfl,rfl⟩
  | toggleRGBMode => exact framed_settled (t := toggleRGBMode a s) hl ⟨rfl,rfl⟩
  | selectLight => exact hremains (selectLight_remains a id i s)
  | toggleBehavior => exact hremains (toggleBehavior_remains a id i s)
  | setting x => exact framed_settled hl ⟨rfl,rfl⟩

/-- What a `drawRoom` leaves: the room it took, and its lights at the front of the list. -/
structure Entered (states : ℕ → Light) (r : ℤ) (s t : Eink) : Prop where
  rooms : t.house.rooms = s.house.rooms
  last : t.house.lastRoom = r
  kept : s.house.lastRoom = r → t.house.currentRoom = s.house.currentRoom
  taken : s.house.lastRoom ≠ r → entry s.house r = some t.house.currentRoom
  count : t.house.lightCount = t.house.currentRoom.lightCounter
  small : t.house.currentRoom.lightCounter.toNat ≤ 20
  front : ∀ k (hk : k < 50) (h20 : k < 20), k < t.house.currentRoom.lightCounter.toNat →
    t.house.lights ⟨k,hk⟩ = { states k with id := t.house.currentRoom.lightIds ⟨k,h20⟩ }
  behind : ∀ k (hk : k < 50), t.house.currentRoom.lightCounter.toNat ≤ k →
    t.house.lights ⟨k,hk⟩ = s.house.lights ⟨k,hk⟩
  level : t.uiLevel = s.uiLevel

theorem chooseRoom_entered (r : ℤ) (h : House) :
    Ends (chooseRoom r h) (fun i => ∃ room, i = { h with currentRoom := room, lastRoom := r } ∧
      (h.lastRoom = r → room = h.currentRoom) ∧ (h.lastRoom ≠ r → entry h r = some room))
      (fun _ => True) := by
  rw [chooseRoom]
  split
  · next hne =>
    refine ends_bind (Q := fun room => entry h r = some room) ?_ fun room hroom => ?_
    · rw [entry, CheckedArray.read, CheckedArray.read]
      split
      · rfl
      · trivial
    · exact ⟨room,rfl,fun he => absurd he hne,fun _ => hroom⟩
  · next he => exact ⟨h.currentRoom,rfl,fun _ => rfl,fun hne => absurd hne he⟩

theorem drawRoom_entered (a : Answers) (r : ℤ) (s : Eink) :
    Ends (drawRoom a r s) (Entered a.states r s) (fun _ => True) := by
  refine ends_bind (chooseRoom_entered r s.house) ?_
  rintro house ⟨room,rfl,hkept,htaken⟩
  refine ends_bind (drawHeader_ends (fun _ => trivial) _ _) ?_
  rintro b ⟨nav,rfl⟩
  refine ends_bind (ends_self _) fun lights hlights => ?_
  obtain ⟨hsmall,hfront,hbehind⟩ := getLightStatesFrom_ok hlights
  have hdone : ∀ t : Eink, t.house = { s.house with
      currentRoom := room, lastRoom := r, lights := lights, lightCount := room.lightCounter } →
      t.uiLevel = s.uiLevel → Entered a.states r s t := by
    intro t ht hlevel
    rw [Nat.zero_add] at hsmall
    have h20 : room.lightCounter.toNat ≤ 20 := by
      by_cases h0 : room.lightCounter.toNat = 0
      · omega
      · exact hsmall h0
    refine ⟨by rw [ht],by rw [ht],fun he => ?_,fun hne => ?_,by rw [ht],?_,fun k hk h20 hlt => ?_,
      fun k hk hle => ?_,hlevel⟩
    · rw [ht]
      exact hkept he
    · rw [ht]
      exact htaken hne
    · rw [ht]
      exact h20
    · rw [ht] at hlt ⊢
      exact hfront k hk h20 (Nat.zero_le k) (by simpa using hlt)
    · rw [ht] at hle ⊢
      exact hbehind k hk (Or.inr (by simpa using hle))
  have hscreen : ∀ (c : Eink) (f : Screen → Except Fault Screen), c.house = { s.house with
      currentRoom := room, lastRoom := r, lights := lights, lightCount := room.lightCounter } →
      c.uiLevel = s.uiLevel → Ends (onScreen f c) (Entered a.states r s) (fun _ => True) :=
    fun c f hh hlevel => ends_bind (ends_true _) fun _ _ => hdone _ hh hlevel
  dsimp only
  split
  · refine ends_bind (Q := fun c : Eink => c.house = { s.house with
      currentRoom := room, lastRoom := r, lights := lights, lightCount := room.lightCounter } ∧
        c.uiLevel = s.uiLevel) ?_ fun c hc => hscreen c _ hc.1 hc.2
    exact ends_bind (ends_true _) fun _ _ => ⟨rfl,rfl⟩
  · exact hscreen _ _ rfl rfl

theorem pressed_opens {b : Button} {r : ℤ} (i : Fin 30) (h : roomOpened b s = some r) :
    Ends (pressed a b i s) (Entered a.states r s) (fun _ => True) := by
  rw [roomOpened] at h
  by_cases hroom : b.event = some .drawRoom
  · rw [if_pos hroom] at h
    obtain rfl := Option.some.inj h
    rw [pressed, hroom]
    have hdraw := drawRoom_entered a b.id { s with pressedButton := b }
    exact ends_imp hdraw fun t ht => ⟨ht.rooms,ht.last,ht.kept,ht.taken,ht.count,ht.small,
      ht.front,ht.behind,ht.level⟩
  · rw [if_neg hroom] at h
    split at h
    · next hback =>
      obtain rfl := Option.some.inj h
      rw [pressed, hback.1]
      refine ends_bind (goBack_read { s with pressedButton := b } fun _ => trivial)
        fun page hp => ?_
      obtain rfl : page = drawRoomID := Option.some.inj (hp.symm.trans hback.2)
      have hdraw := drawRoom_entered a s.house.lastRoom { s with
        pressedButton := b
        nav := { s.nav with pagePageCounter := s.nav.pagePageCounter - 1, isGoingBack := true } }
      exact ends_imp hdraw fun t ht => ⟨ht.rooms,ht.last,ht.kept,ht.taken,ht.count,ht.small,
        ht.front,ht.behind,ht.level⟩
    · cases h

theorem pressed_settled {b : Button} (i : Fin 30) (hl : 2 ≤ s.uiLevel)
    (h : roomOpened b s = none)
    (hfetch : b.event = some .fetchData → 2 ≤ a.level.getD s.uiLevel) :
    Ends (pressed a b i s) (Settled s) (fun _ => True) := by
  rw [pressed]
  cases he : b.event with
  | none => exact ⟨⟨rfl,rfl,rfl,rfl⟩,hl⟩
  | some e =>
    rw [roomOpened, he] at h
    refine ends_imp (handle_settled (s := { s with pressedButton := b }) b.id i hl ?_ ?_
      fun hf => hfetch (he.trans (congrArg some hf))) fun _ ht => ht
    · rintro rfl
      simp at h
    · rintro rfl
      intro hb
      rw [if_neg (by simp)] at h
      exact absurd h (by rw [if_pos ⟨rfl,hb⟩]; simp)

/-- The room opened is that of the latest refresh, and its lights are those fetched. -/
structure Opened (states : ℕ → Light) (r : ℤ) (t : Eink) : Prop where
  room : entry t.house r = some t.house.currentRoom
  count : t.house.lightCount = t.house.currentRoom.lightCounter
  lights : ∀ k (hk : k < 50) (h20 : k < 20), k < t.house.currentRoom.lightCounter.toNat →
    t.house.lights ⟨k,hk⟩ = { states k with id := t.house.currentRoom.lightIds ⟨k,h20⟩ }

def OpensRoom (w : Visited) (m : Move) : Prop :=
  ∀ r ∈ roomOpened m.button w.eink,
    Ends (pressed m.answers m.button m.index w.eink) (Opened m.answers.states r) (fun _ => True)

/-- A room opened twice in a row still reads as when it was loaded. -/
def Unchanged (w : Visited) (m : Move) : Prop :=
  ∀ r ∈ roomOpened m.button w.eink, w.eink.house.lastRoom = r →
    entry w.eink.house r = some w.loaded

structure Visiting (w : Visited) : Prop where
  room : w.eink.house.currentRoom = w.loaded
  level : 2 ≤ w.eink.uiLevel
  small : w.loaded.lightCounter.toNat ≤ 20
  front : ∀ k (hk : k < 50) (h20 : k < 20), k < w.loaded.lightCounter.toNat →
    w.eink.house.lights ⟨k,hk⟩ = { w.states k with id := w.loaded.lightIds ⟨k,h20⟩ }

theorem visiting_boot : Visiting {} :=
  ⟨rfl,by decide,by decide,fun k _ _ h => absurd h (Nat.not_lt_zero k)⟩

theorem visit_visiting {w : Visited} {m : Move} (hw : Visiting w) (hm : Leveled w m) :
    Ends (visit w m) Visiting (fun _ => True) := by
  cases hr : roomOpened m.button w.eink with
  | none =>
    refine ends_bind (pressed_settled m.index hw.level hr hm) fun t ht => ?_
    obtain ⟨⟨hroom,-,hlights,-⟩,hlevel⟩ := ht
    rw [hr]
    refine ⟨hroom.trans hw.room,hlevel,hw.small,fun k hk h20 hlt => ?_⟩
    show t.house.lights _ = _
    rw [hlights]
    exact hw.front k hk h20 hlt
  | some r =>
    refine ends_bind (pressed_opens m.index hr) fun t ht => ?_
    rw [hr]
    have hloaded : t.house.currentRoom = if w.eink.house.lastRoom ≠ r then
        (entry w.eink.house r).getD w.loaded else w.loaded := by
      by_cases he : w.eink.house.lastRoom = r
      · rw [if_neg (not_not.mpr he), ht.kept he]
        exact hw.room
      · rw [if_pos he, ht.taken he]
        rfl
    refine ⟨hloaded,?_,?_,fun k hk h20 hlt => ?_⟩
    · exact ht.level.symm ▸ hw.level
    · dsimp only
      rw [← hloaded]
      exact ht.small
    · dsimp only at hlt ⊢
      rw [← hloaded] at hlt ⊢
      exact ht.front k hk h20 hlt

/-- Opening a room that was not the last one always loads it; the last one is
right exactly where its entry still reads as it was loaded. -/
theorem opensRoom_iff {w : Visited} {m : Move} {v : Visited} (hw : Visiting w)
    (h : visit w m = .ok v) : OpensRoom w m ↔ Unchanged w m := by
  obtain ⟨t,ht,-⟩ := bind_ok.mp h
  refine forall₂_congr fun r hr => ?_
  have he := ends_of_ok (pressed_opens m.index (Option.mem_def.mp hr)) ht
  have hrooms : entry t.house r = entry w.eink.house r := by rw [entry, entry, he.rooms]
  rw [ht, ends_ok]
  constructor
  · intro ho hlast
    rw [← hrooms, ho.room, he.kept hlast, hw.room]
  · intro hu
    refine ⟨?_,he.count,he.front⟩
    rw [hrooms]
    by_cases hlast : w.eink.house.lastRoom = r
    · rw [hu hlast, he.kept hlast, hw.room]
    · exact he.taken hlast

/-- In a run from boot that returns, every room opened is the one of the latest
refresh if and only if a room opened while it is the last one still reads as
when it was loaded. -/
theorem opened_iff_unchanged {ms : List Move} {u : Visited} (hr : run visit {} ms = .ok u)
    (hl : Meets visit Leveled {} ms) :
    Meets visit OpensRoom {} ms ↔ Meets visit Unchanged {} ms := by
  refine meets_iff (I := Visiting) (fun w m v hw hm hv => ?_) (fun w m hw hm => ?_) visiting_boot
    (meets_returned hr hl)
  · exact ends_of_ok (visit_visiting hw hm.1) hv
  · obtain ⟨v,hv⟩ := hm.2
    exact opensRoom_iff hw hv

deriving instance DecidableEq for Room

instance leveled_decidable (w : Visited) (m : Move) : Decidable (Leveled w m) :=
  inferInstanceAs (Decidable (_ → _))

instance unchanged_decidable (w : Visited) (m : Move) : Decidable (Unchanged w m) :=
  inferInstanceAs (Decidable (∀ r ∈ roomOpened m.button w.eink, _ → _))

def refresh : Move := { answers := twoRooms, button := { event := some .fetchData } }

def openRoom (r : ℤ) : Move where
  answers := twoRooms
  button := { event := some .drawRoom, id := r }

def back : Move := { answers := twoRooms, button := { event := some .goBack } }

/-- The second room, home by the back button, and the second room again. -/
theorem second_room_opened : Meets visit OpensRoom {} [refresh,openRoom 1,back,openRoom 1] :=
  (opened_iff_unchanged (u := (run visit {} [refresh,openRoom 1,back,openRoom 1]).toOption.getD {})
    (ok_getD {} (by decide +kernel)) (by decide +kernel)).mpr (by decide +kernel)

/-- The first room of the list, opened first. -/
theorem first_room_skipped : ¬∀ (ms : List Move) (u : Visited), run visit {} ms = .ok u →
    Meets visit Leveled {} ms → Meets visit OpensRoom {} ms := by
  intro h
  have hopens := h [refresh,openRoom 0] ((run visit {} [refresh,openRoom 0]).toOption.getD {})
    (ok_getD {} (by decide +kernel)) (by decide +kernel)
  have hentry : Meets visit (fun w m => ∀ r ∈ roomOpened m.button w.eink,
      Ends (pressed m.answers m.button m.index w.eink)
        (fun t => entry t.house r = some t.house.currentRoom) (fun _ => True))
      {} [refresh,openRoom 0] :=
    meets_imp (I := fun _ => True) (fun _ _ _ _ => ends_true _)
      (fun _ _ _ ho r hr => ends_imp (ho r hr) (fun _ ht => ht.room)) trivial hopens
  revert hentry
  decide +kernel

end THue.RoomVisits
