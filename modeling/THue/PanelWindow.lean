import THue.PanelDriver

/-!
# What the panel is sent

A receiver puts every byte where its command says: a whole frame from the
start, a window row by row into its area. What it holds of a point is the
colour that the point had in the buffer when it was last sent. On the display
as the program turns it, a window is sent from the row below its first one, and
its first column only with the byte of the second.
-/

set_option autoImplicit false

namespace THue.PanelWindow
open THue.PanelBuffer THue.PanelDrawing THue.OutputRuns THue.PanelDriver

/-- The two pictures that the panel keeps. -/
inductive Ram where
  | old | new
  deriving DecidableEq, Repr

def frameCommand : Ram → UInt8
  | .old => 0x10
  | .new => 0x13

def windowCommand : Ram → UInt8
  | .old => 0x14
  | .new => 0x15

def word (high low : UInt8) : ℕ := high.toNat*256 + low.toNat

def windowPlaces : List UInt8 → List (ℕ × UInt8)
  | x₁::x₀::y₁::y₀::w₁::w₀::_::_::bytes => bytes.zipIdx.map fun b =>
      ((word y₁ y₀ + b.2/(word w₁ w₀/8))*(GDEW027W3_WIDTH/8) +
        (word x₁ x₀/8 + b.2%(word w₁ w₀/8)),b.1)
  | _ => []

def places (ram : Ram) : Sent → List (ℕ × UInt8)
  | .reset => []
  | .command c data =>
      if c = frameCommand ram then data.zipIdx.map Prod.swap
      else if c = windowCommand ram then windowPlaces data
      else []

abbrev Store := ℕ → Option UInt8

def put (st : Store) (b : ℕ × UInt8) : Store := Function.update st b.1 (some b.2)

def receive (ram : Ram) (st : Store) (m : Sent) : Store := (places ram m).foldl put st

def received (ram : Ram) (st : Store) (ms : List Sent) : Store := ms.foldl (receive ram) st

theorem received_append (ram : Ram) (st : Store) (ms ms' : List Sent) :
    received ram st (ms++ms') = received ram (received ram st ms) ms' := List.foldl_append

def Sends (ram : Ram) (ms : List Sent) (k : ℕ) : Prop :=
  ∃ m ∈ ms, k ∈ (places ram m).map Prod.fst

theorem sends_append {ram : Ram} {ms ms' : List Sent} {k : ℕ} :
    Sends ram (ms++ms') k ↔ Sends ram ms k ∨ Sends ram ms' k := by
  simp only [Sends, List.mem_append, or_and_right, exists_or]

theorem foldl_put {bs : List (ℕ × UInt8)} {f : ℕ → UInt8} (h : ∀ b ∈ bs, b.2 = f b.1)
    (st : Store) (k : ℕ) :
    bs.foldl put st k = if k ∈ bs.map Prod.fst then some (f k) else st k := by
  induction bs using List.reverseRecOn with
  | nil => simp
  | append_singleton bs b ih =>
    have hb := h b (List.mem_append_right _ List.mem_cons_self)
    rw [List.foldl_append, List.foldl_cons, List.foldl_nil, put]
    by_cases hk : k = b.1
    · subst hk
      rw [Function.update_self, hb, if_pos (by simp)]
    · rw [Function.update_of_ne hk, ih fun b' hb' => h b' (List.mem_append_left _ hb')]
      refine if_congr ?_ rfl rfl
      rw [List.map_append, List.mem_append, List.map_singleton, List.mem_singleton, or_iff_left hk]

open scoped Classical in
theorem received_agreeing {ram : Ram} {ms : List Sent} {f : ℕ → UInt8}
    (h : ∀ m ∈ ms, ∀ b ∈ places ram m, b.2 = f b.1) (st : Store) (k : ℕ) :
    received ram st ms k = if Sends ram ms k then some (f k) else st k := by
  induction ms using List.reverseRecOn with
  | nil => simp [received, Sends]
  | append_singleton ms m ih =>
    have hlast :=
      foldl_put (h m (List.mem_append_right _ List.mem_cons_self)) (received ram st ms) k
    rw [received_append, show received ram (received ram st ms) [m] =
      (places ram m).foldl put (received ram st ms) from rfl, hlast,
      ih fun m' hm' => h m' (List.mem_append_left _ hm')]
    have hone : Sends ram [m] k ↔ k ∈ (places ram m).map Prod.fst := by simp [Sends]
    simp only [sends_append, hone]
    by_cases hm : k ∈ (places ram m).map Prod.fst
    · simp [hm]
    · simp [hm]

theorem sends_silent {ram : Ram} {ms : List Sent} (h : ∀ m ∈ ms, places ram m = []) (k : ℕ) :
    ¬Sends ram ms k := by
  rintro ⟨m,hm,hk⟩
  rw [h m hm] at hk
  exact absurd hk List.not_mem_nil

theorem mem_frame {ram : Ram} {f : ℕ → UInt8} {n : ℕ} {b : ℕ × UInt8} :
    b ∈ places ram (.command (frameCommand ram) ((List.range n).map f)) ↔
      b.1 < n ∧ b.2 = f b.1 := by
  rw [places, if_pos rfl, List.mem_map]
  constructor
  · rintro ⟨⟨v,k⟩,hmem,rfl⟩
    rw [List.mem_zipIdx_iff_getElem?, List.getElem?_map] at hmem
    by_cases hk : k < n
    · rw [List.getElem?_range hk] at hmem
      exact ⟨hk,(Option.some_inj.mp hmem).symm⟩
    · rw [List.getElem?_eq_none (by rw [List.length_range]; omega)] at hmem
      exact absurd hmem (by simp)
  · rintro ⟨hk,hb⟩
    refine ⟨(b.2,b.1),?_,rfl⟩
    rw [List.mem_zipIdx_iff_getElem?, List.getElem?_map, List.getElem?_range hk, hb]
    rfl

theorem rows_flat {α : Type*} (f : ℕ → ℕ → α) (m n : ℕ) :
    ((List.range m).flatMap fun i : ℕ => (List.range n).map (f i)) =
      (List.range (m*n)).map fun t : ℕ => f (t/n) (t%n) := by
  induction m with
  | zero => simp
  | succ m ih =>
    rw [List.range_succ, List.flatMap_append, ih, Nat.succ_mul, List.range_add, List.map_append,
      List.map_map]
    refine congrArg _ ?_
    rw [List.flatMap_singleton]
    refine List.map_congr_left fun j hj => ?_
    have hj := List.mem_range.mp hj
    rw [Function.comp_apply, Nat.mul_comm m n, Nat.mul_add_div (by omega), Nat.mul_add_mod,
      Nat.div_eq_of_lt hj, Nat.mod_eq_of_lt hj, add_zero]

theorem toNat_land_f8 (n : UInt16) : (n &&& 0xf8).toNat = n.toNat%256 - n.toNat%8 := by
  have hall : ∀ m : Fin 256, m.val &&& 0xf8 = m.val - m.val%8 := by decide +kernel
  have h := hall ⟨n.toNat%256,Nat.mod_lt _ (by decide)⟩
  dsimp only at h
  rw [UInt16.toNat_and, show (0xf8:UInt16).toNat = (2^8-1) &&& 0xf8 from rfl, ← Nat.and_assoc,
    Nat.and_two_pow_sub_one_eq_mod, show (2:ℕ)^8 = 256 from rfl, h]
  omega

theorem toNat_land_ff (n : UInt16) : (n &&& 0xff).toNat = n.toNat%256 := by
  rw [UInt16.toNat_and, show (0xff:UInt16).toNat = 2^8-1 from rfl, Nat.and_two_pow_sub_one_eq_mod]

theorem toNat_high (n : UInt16) : (n >>> 8).toUInt8.toNat = n.toNat/256 := by
  have hn := n.toNat_lt
  rw [UInt16.toNat_toUInt8, UInt16.toNat_shiftRight, Nat.shiftRight_eq_div_pow,
    show (2:ℕ)^((8:UInt16).toNat%16) = 256 from rfl]
  omega

theorem word_column (n : UInt16) :
    word (n >>> 8).toUInt8 (n &&& 0xf8).toUInt8 = n.toNat - n.toNat%8 := by
  rw [word, toNat_high, UInt16.toNat_toUInt8, toNat_land_f8]
  omega

theorem word_row (n : UInt16) : word (n >>> 8).toUInt8 (n &&& 0xff).toUInt8 = n.toNat := by
  rw [word, toNat_high, UInt16.toNat_toUInt8, toNat_land_ff]
  omega

def windowPlace (xs ys w h : ℕ) (k : ℕ) : Prop :=
  ∃ i < h, ∃ j < w/8, k = (ys+i)*22 + (xs/8+j)

/-- The bytes of a window go to the places that they were read from. -/
theorem mem_window {ram : Ram} {p : Panel} {x y w h : UInt16} {b : ℕ × UInt8} :
    b ∈ places ram (.command (windowCommand ram) (areaBytes x y w h ++ windowBytes p x y w h)) ↔
      windowPlace x.toNat y.toNat w.toNat h.toNat b.1 ∧ b.2 = pixelByte p b.1 := by
  have hcommand : windowCommand ram ≠ frameCommand ram := by cases ram <;> decide
  rw [places, if_neg hcommand, if_pos rfl, windowBytes, rows_flat]
  simp only [areaBytes, wordBytes, List.cons_append, List.nil_append, word_column, word_row,
    windowPlaces, GDEW027W3_WIDTH]
  rw [show (w.toNat-w.toNat%8)/8 = w.toNat/8 by omega,
    show (x.toNat-x.toNat%8)/8 = x.toNat/8 by omega, List.mem_map]
  constructor
  · rintro ⟨⟨v,t⟩,hmem,rfl⟩
    rw [List.mem_zipIdx_iff_getElem?, List.getElem?_map] at hmem
    by_cases ht : t < h.toNat*(w.toNat/8)
    · rw [List.getElem?_range ht] at hmem
      have hpos : 0 < w.toNat/8 := Nat.pos_of_ne_zero fun h0 => by simp [h0] at ht
      exact ⟨⟨t/(w.toNat/8),(Nat.div_lt_iff_lt_mul hpos).mpr ht,t%(w.toNat/8),
        Nat.mod_lt _ hpos,rfl⟩,
        (Option.some_inj.mp hmem).symm⟩
    · rw [List.getElem?_eq_none (by rw [List.length_range]; omega)] at hmem
      exact absurd hmem (by simp)
  · rintro ⟨⟨i,hi,j,hj,hk⟩,hb⟩
    have hdiv : ((w.toNat/8)*i+j)/(w.toNat/8) = i := by
      rw [Nat.mul_add_div (by omega), Nat.div_eq_of_lt hj, add_zero]
    have hmod : ((w.toNat/8)*i+j)%(w.toNat/8) = j := by
      rw [Nat.mul_add_mod, Nat.mod_eq_of_lt hj]
    have ht : (w.toNat/8)*i+j < h.toNat*(w.toNat/8) := by
      have hmul := Nat.mul_le_mul_left (w.toNat/8) (show i+1 ≤ h.toNat from hi)
      rw [Nat.mul_succ] at hmul
      rw [Nat.mul_comm h.toNat]
      omega
    refine ⟨(b.2,(w.toNat/8)*i+j),?_,?_⟩
    · rw [List.mem_zipIdx_iff_getElem?, List.getElem?_map, List.getElem?_range ht, Option.map_some]
      dsimp only
      rw [hdiv, hmod, ← hk, hb]
    · dsimp only
      rw [hdiv, hmod, ← hk]

def sentPlace (x y w h : UInt16) (k : ℕ) : Prop :=
  x < WIDTH ∧ y < HEIGHT ∧ windowPlace x.toNat y.toNat
    (gx_uint16_min (w+7) (WIDTH-x) + x%8).toNat (gx_uint16_min h (HEIGHT-y)).toNat k

theorem places_other {ram ram' : Ram} (h : ram ≠ ram') (data : List UInt8) :
    places ram (.command (windowCommand ram') data) = [] := by
  cases ram <;> cases ram' <;> first | exact absurd rfl h | rfl

theorem mem_writeToWindow {ram ram' : Ram} {p : Panel} {x y w h : UInt16} {b : ℕ × UInt8} :
    (∃ m ∈ _writeToWindow p (windowCommand ram') x y x y w h, b ∈ places ram m) ↔
      ram = ram' ∧ sentPlace x y w h b.1 ∧ b.2 = pixelByte p b.1 := by
  have hin : places ram (.command 0x91 []) = [] := by cases ram <;> rfl
  rw [_writeToWindow, sentPlace]
  by_cases hx : x < WIDTH
  · by_cases hy : y < HEIGHT
    · rw [if_neg (UInt16.not_le.mpr hx), if_neg (UInt16.not_le.mpr hy),
        if_neg (UInt16.not_le.mpr hx), if_neg (UInt16.not_le.mpr hy)]
      by_cases hram : ram = ram'
      · subst hram
        simp only [List.mem_cons, List.not_mem_nil, or_false, exists_eq_or_imp, hin, exists_eq_left,
          false_or, mem_window, hx, hy, true_and]
      · simp only [List.mem_cons, List.not_mem_nil, or_false, exists_eq_or_imp, hin, exists_eq_left,
          places_other hram, hram, false_and]
    · rw [if_neg (UInt16.not_le.mpr hx), if_pos (UInt16.not_lt.mp hy)]
      simp [hy]
  · rw [if_pos (UInt16.not_lt.mp hx)]
    simp [hx]

theorem wakeUp_silent (ram : Ram) : ∀ m ∈ wakeUpCommands, places ram m = [] := by
  cases ram <;> decide

theorem initPartialUpdate_silent (ram : Ram) : ∀ m ∈ initPartialUpdate, places ram m = [] := by
  cases ram <;> decide

theorem received_silent {ram : Ram} {ms : List Sent} (h : ∀ m ∈ ms, places ram m = [])
    (st : Store) :
    received ram st ms = st := by
  classical
  funext k
  rw [received_agreeing (f := fun _ => 0) fun m hm b hb => by
    rw [h m hm] at hb
    exact absurd hb List.not_mem_nil]
  exact if_neg (sends_silent h k)

theorem received_writeToWindow (ram ram' : Ram) (st : Store) (p : Panel) (x y w h : UInt16) (k : ℕ)
    [Decidable (sentPlace x y w h k)] :
    received ram st (_writeToWindow p (windowCommand ram') x y x y w h) k =
      if ram = ram' ∧ sentPlace x y w h k then some (pixelByte p k) else st k := by
  classical
  have hagree : ∀ m ∈ _writeToWindow p (windowCommand ram') x y x y w h, ∀ b ∈ places ram m,
      b.2 = pixelByte p b.1 := fun m hm b hb => (mem_writeToWindow.mp ⟨m,hm,hb⟩).2.2
  rw [received_agreeing hagree]
  refine if_congr ⟨?_,?_⟩ rfl rfl
  · rintro ⟨m,hm,hk⟩
    obtain ⟨b,hb,rfl⟩ := List.mem_map.mp hk
    have h := mem_writeToWindow.mp ⟨m,hm,hb⟩
    exact ⟨h.1,h.2.1⟩
  · rintro ⟨hram,hplace⟩
    obtain ⟨m,hm,hb⟩ := (mem_writeToWindow (b := (k,pixelByte p k))).mpr ⟨hram,hplace,rfl⟩
    exact ⟨m,hm,List.mem_map.mpr ⟨_,hb,rfl⟩⟩

/-- A window leaves a receiver with the buffer's bytes at its places, and the rest as it was. -/
theorem window_received (ram : Ram) (st : Store) (p : Panel) (x y w h : UInt16)
    (using_rotation : Bool) (k : ℕ) {x' y' w' h' : UInt16}
    (hrotated : (if using_rotation then _rotate p.rotation x y w h else (x,y,w,h)) =
      (x',y',w',h')) [Decidable (sentPlace x' y' w' h' k)] :
    received ram st (updateWindow x y w h using_rotation p).2 k =
      if sentPlace x' y' w' h' k then some (pixelByte p k) else st k := by
  have hwindow : ∀ p' : Panel, p'.buffer = p.buffer → received ram st
      (initPartialUpdate ++ (_writeToWindow p' 0x15 x' y' x' y' w' h' ++
        (_refreshWindow x' y' w' h' ++ _writeToWindow p' 0x14 x' y' x' y' w' h'))) k =
      if sentPlace x' y' w' h' k then some (pixelByte p k) else st k := by
    intro p' hbuffer
    have hpixel : pixelByte p' k = pixelByte p k := by rw [pixelByte, pixelByte, hbuffer]
    have hrefresh : ∀ m ∈ _refreshWindow x' y' w' h', places ram m = [] := by
      rw [_refreshWindow]
      cases ram <;> simp [places, frameCommand, windowCommand]
    rw [received_append, received_silent (initPartialUpdate_silent ram), received_append,
      received_append, received_silent hrefresh]
    have hnew := received_writeToWindow ram .new st p' x' y' w' h' k
    have hold := received_writeToWindow ram .old
      (received ram st (_writeToWindow p' 0x15 x' y' x' y' w' h')) p' x' y' w' h' k
    rw [hpixel] at hnew hold
    rw [show _writeToWindow p' 0x14 x' y' x' y' w' h' =
      _writeToWindow p' (windowCommand .old) x' y' x' y' w' h' from rfl, hold]
    rw [show received ram st (_writeToWindow p' 0x15 x' y' x' y' w' h') k = _ from hnew]
    by_cases hplace : sentPlace x' y' w' h' k
    · cases ram <;> simp [hplace]
    · simp [hplace]
  rw [updateWindow, hrotated]
  dsimp only
  rw [received_append]
  by_cases hwake : p._using_partial_mode = false ∨ p._isAsleep = true
  · rw [if_pos hwake, show received ram st (_wakeUp p).2 = st from
      received_silent (wakeUp_silent ram) st]
    exact hwindow _ rfl
  · rw [if_neg hwake]
    exact hwindow _ rfl

theorem receive_frame (ram ram' : Ram) (st : Store) (f : ℕ → UInt8) (n k : ℕ) :
    receive ram st (.command (frameCommand ram') ((List.range n).map f)) k =
      if ram = ram' ∧ k < n then some (f k) else st k := by
  by_cases hram : ram = ram'
  · subst hram
    rw [receive, foldl_put fun b hb => (mem_frame.mp hb).2]
    refine if_congr ⟨fun hk => ?_,fun hk => ?_⟩ rfl rfl
    · obtain ⟨b,hb,rfl⟩ := List.mem_map.mp hk
      exact ⟨rfl,(mem_frame.mp hb).1⟩
    · exact List.mem_map.mpr ⟨(k,f k),mem_frame.mpr ⟨hk.2,rfl⟩,rfl⟩
  · rw [if_neg fun h => hram h.1, receive]
    have hother : places ram (.command (frameCommand ram') ((List.range n).map f)) = [] := by
      cases ram <;> cases ram' <;> first | exact absurd rfl hram | rfl
    rw [hother]
    rfl

/-- A full update leaves it with the whole buffer. -/
theorem update_received (ram : Ram) (st : Store) (p : Panel) (k : ℕ) :
    received ram st (update p).2 k =
      if k < GDEW027W3_BUFFER_SIZE then some (pixelByte p k) else st k := by
  let first : List Sent := if p._initial then
    [.command 0x10 (List.replicate GDEW027W3_BUFFER_SIZE 0xFF)] else []
  have hfirst : ∀ k, ¬k < GDEW027W3_BUFFER_SIZE → received ram st first k = st k := by
    intro k hk
    have hwhite := receive_frame ram .old st (fun _ => 0xFF) GDEW027W3_BUFFER_SIZE k
    rw [if_neg fun h => hk h.2, List.map_const', List.length_range] at hwhite
    dsimp only [first]
    cases p._initial
    · rfl
    · exact hwhite
  have hframe : ∀ st : Store, received ram st [.command 0x13 (frameBytes p),.command 0x12 [],
      .command 0x10 (frameBytes p)] k =
      if k < GDEW027W3_BUFFER_SIZE then some (pixelByte p k) else st k := by
    intro st
    have hnew := receive_frame ram .new st (pixelByte p) GDEW027W3_BUFFER_SIZE k
    have hold := receive_frame ram .old (receive ram (receive ram st (.command 0x13 (frameBytes p)))
      (.command 0x12 [])) (pixelByte p) GDEW027W3_BUFFER_SIZE k
    have hrefresh : ∀ st, receive ram st (.command 0x12 []) = st := by
      intro st
      cases ram <;> rfl
    show receive ram (receive ram (receive ram st _) (.command 0x12 [])) _ k = _
    refine hold.trans ?_
    rw [hrefresh]
    rw [show receive ram st (.command 0x13 (frameBytes p)) k = _ from hnew]
    cases ram <;> by_cases hk : k < GDEW027W3_BUFFER_SIZE <;> simp [hk]
  have hslept : ∀ (sleeps : Bool) (q : Panel), ∀ m ∈ (if sleeps then _sleep q else (q,[])).2,
      places ram m = [] := by
    intro sleeps q
    cases sleeps
    · simp
    · cases ram <;> simp [_sleep, places, frameCommand, windowCommand]
  rw [update]
  dsimp only [_wakeUp]
  rw [received_append, received_silent (wakeUp_silent ram), received_append, received_append,
    received_silent (hslept _ _)]
  refine (hframe _).trans ?_
  by_cases hk : k < GDEW027W3_BUFFER_SIZE
  · rw [if_pos hk, if_pos hk]
  · rw [if_neg hk, if_neg hk]
    exact hfirst k hk

end THue.PanelWindow
