import THue.PanelWindow

/-!
# What the panel shows

The program turns the display upside down at its start. A window of it is then
sent from the row below its first to the row below its last, with all bytes
that hold a column after its first; a window that reaches the right or the
bottom edge is not sent at all. Whatever is drawn and shown, the panel shows
each point as it was when a window over it, or the whole picture, was last sent.
-/

set_option autoImplicit false

namespace THue.PanelPicture
open THue.PanelBuffer THue.GfxShapes THue.PanelDrawing THue.OutputRuns
open THue.PanelDriver THue.PanelWindow

def signed (x : UInt16) : ℤ := if x.toNat < 32768 then x.toNat else x.toNat-65536

def windowed (x y w h : ℤ) : Set (ℤ × ℤ) :=
  {q | (0 ≤ x+w ∧ x+w < 176 ∧ 0 ≤ y+h ∧ y+h < 264) ∧
    ((175-x-w)/8 ≤ (175-q.1)/8 ∧ (175-q.1)/8 ≤ (174-x)/8) ∧ y < q.2 ∧ q.2 ≤ y+h}

instance windowed_decidable (x y w h : ℤ) (q : ℤ × ℤ) : Decidable (q ∈ windowed x y w h) :=
  inferInstanceAs (Decidable (_ ∧ _ ∧ _ ∧ _))

theorem windowPlace_iff {xs ys w h c r : ℕ} (hc : c < 22) (hw : xs/8+w/8 ≤ 22) :
    windowPlace xs ys w h (r*22+c) ↔ (ys ≤ r ∧ r < ys+h) ∧ xs/8 ≤ c ∧ c < xs/8+w/8 := by
  constructor
  · rintro ⟨i,hi,j,hj,h⟩
    omega
  · rintro ⟨⟨h1,h2⟩,h3,h4⟩
    exact ⟨r-ys,by omega,c-xs/8,by omega,by omega⟩

theorem min_toNat {a b : UInt16} : (gx_uint16_min a b).toNat = min a.toNat b.toNat := by
  rw [gx_uint16_min]
  split
  · next h =>
    rw [UInt16.lt_iff_toNat_lt] at h
    omega
  · next h =>
    rw [UInt16.lt_iff_toNat_lt] at h
    omega

theorem corner_toNat (size x : UInt16) {w : UInt16} (hsize : size.toNat ≤ 264)
    (hw : w.toNat < 32768) :
    (size-x-w-1 < size ↔ 0 ≤ signed x+w.toNat ∧ signed x+w.toNat < size.toNat) ∧
      (size-x-w-1 < size → ((size-x-w-1).toNat:ℤ) = size.toNat-1-signed x-w.toNat) := by
  have hx := x.toNat_lt
  have hcorner : (size-x-w-1).toNat = (size.toNat+(65536-x.toNat)+(65536-w.toNat)+65535)%65536 := by
    rw [UInt16.toNat_sub, UInt16.toNat_sub, UInt16.toNat_sub, UInt16.toNat_one]
    omega
  rw [UInt16.lt_iff_toNat_lt, hcorner, signed]
  split <;> omega

/-- A point of the display is sent for a window if it is in the points of the window. -/
theorem sentPlace_iff {x y w h : UInt16} (hw : w.toNat < 32768) (hh : h.toNat < 32768) {q : ℤ × ℤ}
    (hq : Inside 2 q.1 q.2) :
    sentPlace (WIDTH-x-w-1) (HEIGHT-y-h-1) w h (byteIndex (rotated 2 q.1 q.2)) ↔
      q ∈ windowed (signed x) (signed y) w.toNat h.toNat := by
  obtain ⟨hleft,hright⟩ := corner_toNat WIDTH x (by decide) hw
  obtain ⟨htop,hbottom⟩ := corner_toNat HEIGHT y (by decide) hh
  rw [show ((WIDTH.toNat:ℕ):ℤ) = 176 from rfl] at hleft hright
  rw [show ((HEIGHT.toNat:ℕ):ℤ) = 264 from rfl] at htop hbottom
  rw [sentPlace, hleft, htop, windowed, Set.mem_ofPred_eq]
  by_cases hx : 0 ≤ signed x+w.toNat ∧ signed x+w.toNat < 176
  · by_cases hy : 0 ≤ signed y+h.toNat ∧ signed y+h.toNat < 264
    · have hxd := hright (hleft.mpr hx)
      have hyd := hbottom (htop.mpr hy)
      generalize WIDTH-x-w-1 = xd at *
      generalize HEIGHT-y-h-1 = yd at *
      have hwide : (gx_uint16_min (w+7) (WIDTH-xd) + xd%8).toNat =
          min (w.toNat+7) (176-xd.toNat) + xd.toNat%8 := by
        rw [UInt16.toNat_add, min_toNat, UInt16.toNat_add, UInt16.toNat_sub, UInt16.toNat_mod,
          show WIDTH.toNat = 176 from rfl, show (7:UInt16).toNat = 7 from rfl,
          show (8:UInt16).toNat = 8 from rfl]
        omega
      have hhigh : (gx_uint16_min h (HEIGHT-yd)).toNat = min h.toNat (264-yd.toNat) := by
        rw [min_toNat, UInt16.toNat_sub, show HEIGHT.toNat = 264 from rfl]
        omega
      obtain ⟨h1,h2,h3,h4⟩ := hq
      simp only [width, height, GDEW027W3_WIDTH, GDEW027W3_HEIGHT] at h2 h4
      have hplace : byteIndex (rotated 2 q.1 q.2) =
          (263-q.2).toNat*22 + (175-q.1).toNat/8 := by
        simp only [byteIndex, rotated, GDEW027W3_WIDTH, GDEW027W3_HEIGHT]
        omega
      rw [hwide, hhigh, hplace, windowPlace_iff (by omega) (by omega)]
      omega
    · exact iff_of_false (fun h => hy h.2.1) fun h => hy ⟨h.1.2.2.1,h.1.2.2.2⟩
  · exact iff_of_false (fun h => hx h.1) fun h => hx ⟨h.1.1,h.1.2.1⟩

def held (r : Rotation) (st : Store) (q : ℤ × ℤ) : Option Bool :=
  (st (byteIndex (rotated r q.1 q.2))).map fun byte =>
    !byte.toNat.testBit (bitIndex (rotated r q.1 q.2))

theorem pixelByte_bit (p : Panel) {q : ℤ × ℤ} (hq : Inside p.rotation q.1 q.2) :
    (!(pixelByte p (byteIndex (rotated p.rotation q.1 q.2))).toNat.testBit
      (bitIndex (rotated p.rotation q.1 q.2))) = picture p.toDisplay q := by
  have hall : ∀ (n : Fin 256) (j : Fin 8), (~~~UInt8.ofNat n).toNat.testBit j =
      !(UInt8.ofNat n).toNat.testBit j := by decide +kernel
  have hindex := byteIndex_lt (rotated_onPanel hq)
  rw [picture, if_pos hq, panelBlack, dif_pos hindex, pixelByte, dif_pos hindex]
  generalize p.buffer _ = byte
  have h := hall ⟨byte.toNat,byte.toNat_lt⟩ ⟨_,bitIndex_lt (rotated p.rotation q.1 q.2)⟩
  dsimp only at h
  rw [UInt8.ofNat_toNat] at h
  rw [h, Bool.not_not]

abbrev Glass := ℤ × ℤ → Option Bool

open scoped Classical in
/-- Some points as the picture has them now, and the rest as they were. -/
noncomputable def refreshed (S : Set (ℤ × ℤ)) (p : ℤ × ℤ → Bool) (g : Glass) : Glass :=
  fun q => if q ∈ S then some (p q) else g q

theorem refreshed_in {S : Set (ℤ × ℤ)} {p : ℤ × ℤ → Bool} {g : Glass} {q : ℤ × ℤ} (h : q ∈ S) :
    refreshed S p g q = some (p q) := if_pos h

theorem refreshed_out {S : Set (ℤ × ℤ)} {p : ℤ × ℤ → Bool} {g : Glass} {q : ℤ × ℤ} (h : q ∉ S) :
    refreshed S p g q = g q := if_neg h

def drawn : Call → Display → Display
  | .draw ps, d => drawAll ps d
  | .fillScreen color, d => fillScreen color d
  | .update, d | .updateWindow .., d => d

def shownPoints : Call → Set (ℤ × ℤ)
  | .draw _ | .fillScreen _ => ∅
  | .update => Set.univ
  | .updateWindow x y w h _ => windowed (signed x) (signed y) w.toNat h.toNat

/-- The glass after calls: drawing shows nothing, and showing draws nothing. -/
noncomputable def glass : Display → List Call → Glass → Glass
  | _, [], g => g
  | d, c::cs, g => glass (drawn c d) cs (refreshed (shownPoints c) (picture d) g)

/-- The windows of the program are turned with the display, and shorter than half a word. -/
def Proper : Call → Prop
  | .updateWindow _ _ w h using_rotation =>
      using_rotation = true ∧ w.toNat < 32768 ∧ h.toNat < 32768
  | _ => True

instance proper_decidable : DecidablePred Proper
  | .updateWindow .. => inferInstanceAs (Decidable (_ ∧ _ ∧ _))
  | .draw _ | .fillScreen _ | .update => isTrue trivial

theorem updateWindow_display (x y w h : UInt16) (using_rotation : Bool) (p : Panel) :
    (updateWindow x y w h using_rotation p).1.toDisplay = p.toDisplay := by
  rw [updateWindow]
  dsimp only
  split <;> rfl

theorem update_display (p : Panel) : (update p).1.toDisplay = p.toDisplay := by
  rw [update]
  dsimp only [_wakeUp]
  split <;> rfl

theorem step_display (p : Panel) (c : Call) : (step p c).1.toDisplay = drawn c p.toDisplay := by
  cases c with
  | draw ps => rfl
  | fillScreen color => rfl
  | update => exact update_display p
  | updateWindow x y w h using_rotation => exact updateWindow_display ..

theorem drawn_rotation (c : Call) (d : Display) : (drawn c d).rotation = d.rotation := by
  cases c with
  | draw ps => exact drawAll_rotation ps d
  | fillScreen color => rfl
  | update => rfl
  | updateWindow x y w h using_rotation => rfl

theorem step_shows (ram : Ram) (st : Store) {p : Panel} (hp : p.rotation = 2) {c : Call}
    (hc : Proper c) {g : Glass} {q : ℤ × ℤ} (hq : Inside 2 q.1 q.2) (h : held 2 st q = g q) :
    held 2 (received ram st (step p c).2) q =
      refreshed (shownPoints c) (picture p.toDisplay) g q := by
  classical
  have hindex := byteIndex_lt (rotated_onPanel hq)
  have hbit := pixelByte_bit p (q := q) (by rwa [hp])
  rw [hp] at hbit
  cases c with
  | draw ps => exact h.trans (if_neg (Set.notMem_empty q)).symm
  | fillScreen color => exact h.trans (if_neg (Set.notMem_empty q)).symm
  | update =>
    rw [held, show (step p .update).2 = (update p).2 from rfl, update_received, if_pos hindex,
      Option.map_some, hbit]
    exact (if_pos (Set.mem_univ q)).symm
  | updateWindow x y w h' using_rotation =>
    obtain ⟨hrotation,hw,hh⟩ := hc
    subst hrotation
    have hrotated : (if true then _rotate p.rotation x y w h' else (x,y,w,h')) =
        (WIDTH-x-w-1,HEIGHT-y-h'-1,w,h') := by
      rw [if_pos rfl, hp]
      rfl
    have hreceived :=
      window_received ram st p x y w h' true (byteIndex (rotated 2 q.1 q.2)) hrotated
    rw [held, show (step p (.updateWindow x y w h' true)).2 =
      (updateWindow x y w h' true p).2 from rfl, hreceived, refreshed, shownPoints]
    by_cases hsent : q ∈ windowed (signed x) (signed y) w.toNat h'.toNat
    · rw [if_pos ((sentPlace_iff hw hh hq).mpr hsent), if_pos hsent, Option.map_some, hbit]
    · rw [if_neg fun hplace => hsent ((sentPlace_iff hw hh hq).mp hplace), if_neg hsent]
      exact h

theorem run_shows (ram : Ram) {calls : List Call} (hcalls : ∀ c ∈ calls, Proper c) {st : Store}
    {p : Panel} (hp : p.rotation = 2) {g : Glass} {q : ℤ × ℤ} (hq : Inside 2 q.1 q.2)
    (h : held 2 st q = g q) :
    held 2 (received ram st (run step p calls).2) q = glass p.toDisplay calls g q := by
  induction calls generalizing st p g with
  | nil => exact h
  | cons c cs ih =>
    have hstep := step_shows ram st hp (hcalls c List.mem_cons_self) hq h
    have hrotation : (step p c).1.rotation = 2 :=
      (congrArg Display.rotation (step_display p c)).trans ((drawn_rotation c _).trans hp)
    have hrest := ih (fun c' hc' => hcalls c' (List.mem_cons_of_mem c hc')) hrotation hstep
    rw [run, received_append, hrest, step_display, glass]

/-- Both pictures of the panel are what the glass shows, after whatever is drawn and shown in
whatever order: each point as it was in the buffer when it was last sent, over the whole
picture or a window with it. -/
theorem panel_shows {d : Display} (hd : d.rotation = 2) {calls : List Call}
    (hcalls : ∀ c ∈ calls, Proper c) (ram : Ram) {q : ℤ × ℤ} (hq : Inside 2 q.1 q.2) :
    held 2 (received ram (fun _ => none) (run step { toDisplay := d } calls).2) q =
      glass d calls (fun _ => none) q :=
  run_shows ram hcalls hd hq rfl

/-- A point drawn and shown, and then drawn over and not shown. -/
theorem drawn_over_stays : held 2 (received .new (fun _ => none)
    (run step { rotation := 2, buffer := fun _ => 0 } [.draw [((5,5),EPD_BLACK)],
      .updateWindow 0 0 20 20 true,.draw [((5,5),EPD_WHITE)]]).2) (5,5) = some true := by
  rw [panel_shows rfl (by decide) .new (by decide)]
  have hin : ((5,5) : ℤ × ℤ) ∈
      windowed (signed 0) (signed 0) (20:UInt16).toNat (20:UInt16).toNat := by
    decide
  simp only [glass, shownPoints]
  rw [refreshed_out (Set.notMem_empty _), refreshed_in hin]
  decide

/-- Of a window on the display, the points sent are those of no first row and of no first column
that is the last of its byte; none is sent if the window reaches the right or the bottom edge. -/
theorem window_sent (ram : Ram) {p : Panel} (hp : p.rotation = 2) {x y w h : UInt16}
    (hx : x.toNat+w.toNat ≤ 176) (hy : y.toNat+h.toNat ≤ 264) {q : ℤ × ℤ}
    (hq : q ∈ area x.toNat y.toNat w.toNat h.toNat) :
    held 2 (received ram (fun _ => none) (updateWindow x y w h true p).2) q =
      if x.toNat+w.toNat < 176 ∧ y.toNat+h.toNat < 264 ∧ q.2 ≠ y.toNat ∧
          ¬(q.1 = x.toNat ∧ x.toNat%8 = 7) then
        some (picture p.toDisplay q)
      else none := by
  classical
  obtain ⟨h1,h2,h3,h4⟩ := hq
  have hin : Inside 2 q.1 q.2 := by
    refine ⟨by omega,?_,by omega,?_⟩ <;>
      simp only [width, height, GDEW027W3_WIDTH, GDEW027W3_HEIGHT] <;> omega
  have hstep := step_shows ram (fun _ => none) hp (c := .updateWindow x y w h true)
    ⟨rfl,by omega,by omega⟩ (g := fun _ => none) hin rfl
  rw [show (updateWindow x y w h true p).2 = (step p (.updateWindow x y w h true)).2 from rfl,
    hstep]
  refine if_congr ?_ rfl rfl
  have hsx : signed x = x.toNat := if_pos (by omega)
  have hsy : signed y = y.toNat := if_pos (by omega)
  rw [shownPoints, windowed, Set.mem_ofPred_eq, hsx, hsy]
  omega

/-- The window of the page under its header, which reaches the right edge. -/
theorem page_unsent : held 2 (received .new (fun _ => none)
    (updateWindow 1 40 175 223 true { rotation := 2, buffer := fun _ => 0 }).2) (88,150) =
      none := by
  rw [window_sent .new rfl (by decide) (by decide) (by decide)]
  decide

def updateBar (r : Rotation) (x y : ℤ) (value : UInt8) : List Call :=
  [.draw (barStrip r x y),
    .updateWindow (UInt16.ofInt x) (UInt16.ofInt (y-2)) (UInt16.ofNat (width r)) 15 true,
    .draw (drawBar r x y value),
    .updateWindow (UInt16.ofInt x) (UInt16.ofInt (y-2)) 150 15 true]

theorem glass_twice (d : Display) (ps ps' : List Pixel) {x y w h w' : UInt16} (g : Glass)
    {q : ℤ × ℤ}
    (hout : q ∉ windowed (signed x) (signed y) w.toNat h.toNat) :
    glass d [.draw ps,.updateWindow x y w h true,.draw ps',.updateWindow x y w' h true] g q =
      if q ∈ windowed (signed x) (signed y) w'.toNat h.toNat then
        some (picture (drawAll ps' (drawAll ps d)) q)
      else g q := by
  simp only [glass, drawn, shownPoints]
  by_cases hq : q ∈ windowed (signed x) (signed y) w'.toNat h.toNat
  · rw [refreshed_in hq, if_pos hq]
  · rw [refreshed_out hq, refreshed_out (Set.notMem_empty q), refreshed_out hout,
      refreshed_out (Set.notMem_empty q), if_neg hq]

/-- Whatever the panel shows and whatever is drawn, the brightness bar of a light is shown as the
new value has it, all but its first row: the tips of its two ends stay as they were. -/
theorem bar_shown (ram : Ram) (st : Store) {p : Panel} (hp : p.rotation = 2) (value : UInt8)
    {q : ℤ × ℤ} (hq : q ∈ area 14 108 149 15) :
    held 2 (received ram st (run step p (updateBar 2 14 110 value)).2) q =
      if q.2 = 108 then held 2 st q
      else some (decide (q ∈ barFrame 2 14 110 ∨
        q ∈ area 14 110 ((value.toNat-1)*100/253*148/100 : ℕ) 5)) := by
  have hin : Inside 2 q.1 q.2 := by
    obtain ⟨h1,h2,h3,h4⟩ := hq
    refine ⟨by omega,?_,by omega,?_⟩ <;>
      simp only [width, height, GDEW027W3_WIDTH, GDEW027W3_HEIGHT] <;> omega
  have hproper : ∀ c ∈ updateBar 2 14 110 value, Proper c := by
    intro c hc
    simp only [updateBar, List.mem_cons, List.not_mem_nil, or_false] at hc
    obtain rfl | rfl | rfl | rfl := hc
    · trivial
    · decide
    · trivial
    · decide
  obtain ⟨h1,h2,h3,h4⟩ := hq
  have hstrip : q ∈ area 14 (110-2) (width 2) 15 := by
    simp only [area, Set.mem_ofPred_eq, width, GDEW027W3_WIDTH]
    omega
  have hbar := bar_redrawn 14 110 value p.toDisplay (q := q) (by rwa [hp])
  rw [hp, if_pos hstrip, show width 2 - 28 = 148 from rfl] at hbar
  have hx : signed (UInt16.ofInt 14) = 14 := by decide
  have hy : signed (UInt16.ofInt (110-2)) = 108 := by decide
  have hfirst : q ∉ windowed (signed (UInt16.ofInt 14)) (signed (UInt16.ofInt (110-2)))
      (UInt16.ofNat (width 2)).toNat (15:UInt16).toNat := by
    rw [hx, hy]
    exact fun h => absurd h.1.2.1 (by decide)
  have hsecond : q ∈ windowed (signed (UInt16.ofInt 14)) (signed (UInt16.ofInt (110-2)))
      (150:UInt16).toNat (15:UInt16).toNat ↔ q.2 ≠ 108 := by
    rw [hx, hy, show (150:UInt16).toNat = 150 from rfl, show (15:UInt16).toNat = 15 from rfl,
      windowed, Set.mem_ofPred_eq]
    omega
  rw [run_shows ram hproper hp hin rfl, updateBar, glass_twice _ _ _ _ hfirst]
  by_cases hrow : q.2 = 108
  · rw [if_neg fun h => hsecond.mp h hrow, if_pos hrow]
  · rw [if_pos (hsecond.mpr hrow), if_neg hrow, Option.some_inj, Bool.eq_iff_iff, hbar,
      decide_eq_true_iff]

/-- A bar at full brightness, on a panel that was sent nothing. -/
theorem full_bar_shown : held 2 (received .new (fun _ => none)
    (run step { rotation := 2, buffer := fun _ => 0 } (updateBar 2 14 110 254)).2) (161,114) =
      some true := by
  rw [bar_shown .new _ rfl 254 (by decide)]
  decide

end THue.PanelPicture
