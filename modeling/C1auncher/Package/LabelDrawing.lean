import C1auncher.Package.Label

/-!
Labels on the screen: the bytes the scanner reads, and the pixels a label sets.

The rows of the glyphs are a generated table; the model takes any.
-/

namespace C1auncher.Package.LabelDrawing

open CString Utf8Bytes Ui.LockText Label List Function Option

/-! ### The bytes that are read -/

/-- The loop of `decode`: nothing is a read past the memory, `some none` what is no continuation. -/
def continuationAt (memory : Bytes) : ℕ → ℕ → ℕ → Option (Option (ℕ × ℕ))
  | 0, cp, p => some (some (cp, p))
  | n + 1, cp, p => do
    let b ← memory[p]?
    if b.toNat &&& 0xc0 ≠ 0x80 then some none
    else continuationAt memory n ((cp <<< 6) ||| (b.toNat &&& 0x3f)) (p + 1)

/-- `decode` on the memory that holds the text and its terminator: the code point and where the
cursor is set. -/
def decodeAt (memory : Bytes) (p : ℕ) : Option (Option (ℕ × ℕ)) := do
  let b ← memory[p]?
  if b = 0 then some none
  else if b < 0x80 then some (some (b.toNat, p + 1))
  else
    match lead b.toNat with
    | none => some none
    | some (n, minimum, bits) => do
      match ← continuationAt memory n bits (p + 1) with
      | none => some none
      | some (cp, p) =>
        if cp < minimum ∨ 0x10ffff < cp ∨ (0xd800 ≤ cp ∧ cp ≤ 0xdfff) then some none
        else some (some (cp, p))

variable {memory s : Bytes} {p : ℕ}

lemma getElem?_of_drop {b : UInt8} (h : memory.drop p = b :: s) : memory[p]? = some b := by
  rw [← List.head?_drop, h, head?_cons]

lemma drop_succ {b : UInt8} (h : memory.drop p = b :: s) : memory.drop (p + 1) = s := by
  rw [← List.tail_drop, h, tail_cons]

lemma continuationAt_eq : ∀ {n cp p : ℕ} {s : Bytes}, memory.drop p = s ++ [0] →
    continuationAt memory n cp p =
      some ((continuation n cp s).map fun r => (r.1, p + s.length - r.2.length)) := by
  intro n
  induction n with
  | zero => simp [continuationAt, continuation]
  | succ n ih =>
    rintro cp p (_ | ⟨b, s⟩) h
    · rw [continuationAt, getElem?_of_drop h]
      rfl
    rw [continuationAt, getElem?_of_drop h, bind_eq_bind, bind_some, continuation]
    split_ifs with hb
    · rfl
    · rw [ih (drop_succ h), length_cons, Nat.add_right_comm, Nat.add_assoc]

/-- **The scanner reads no byte after the terminator**, and sets the cursor past what it takes. -/
theorem decodeAt_eq (h : memory.drop p = s ++ [0]) (hs : 0 ∉ s) : decodeAt memory p =
    some ((decode s).map fun r => (r.1, p + s.length - r.2.length)) := by
  rcases s with _ | ⟨b, s⟩
  · rw [decodeAt, getElem?_of_drop h]
    rfl
  have hb : b ≠ 0 := fun heq => hs (heq ▸ mem_cons_self)
  rw [decodeAt, getElem?_of_drop h, bind_eq_bind, bind_some, if_neg hb, decode]
  split_ifs with hascii
  · rw [map_some, length_cons, ← Nat.add_assoc, Nat.add_right_comm, Nat.add_sub_cancel]
  rcases lead b.toNat with _ | ⟨n, minimum, bits⟩
  · rfl
  simp only [continuationAt_eq (drop_succ h), bind_eq_bind, bind_some]
  rcases continuation n bits s with _ | ⟨cp, rest⟩
  · rfl
  simp only [map_some, bind_some]
  split_ifs
  · rfl
  · rw [map_some, length_cons, Nat.add_right_comm, Nat.add_assoc]

/-! ### The pixels -/

/-- The frame, and what is in memory after it. -/
abbrev Frame := ℕ → BitVec 8

def frameWidth : ℕ := 296

def frameHeight : ℕ := 152

def textHeight : ℕ := 16

/-- The store of one pixel. -/
def plot (black : Bool) (px py : ℕ) (frame : Frame) : Frame :=
  let offset := py / 8 * frameWidth + px
  let mask := 0x80#8 >>> (py % 8)
  Function.update frame offset (if black then frame offset ||| mask else frame offset &&& ~~~mask)

variable (widths : ℕ → UInt8) (rows : ℕ → ℕ → BitVec 16)

/-- Whether a glyph has ink in a place. -/
def ink (index row col : ℕ) : Bool :=
  ((rows index row).setWidth 32 &&& (0x8000#32 >>> col)) != 0#32

/-- The rows and columns of a glyph, row by row. -/
def cells (advance : ℕ) : List (ℕ × ℕ) :=
  (List.range textHeight).flatMap fun row => (List.range advance).map fun col => (row, col)

/-- A place of a glyph is drawn where it is in the frame and has ink. -/
def drawn (index : ℕ) (left y : ℤ) (c : ℕ × ℕ) : Bool :=
  0 ≤ y + c.1 && y + c.1 < frameHeight && 0 ≤ left + c.2 && left + c.2 < frameWidth &&
    ink rows index c.1 c.2

/-- The loops over the rows and the columns of a glyph. -/
def drawGlyph (black : Bool) (index advance : ℕ) (left y : ℤ) (frame : Frame) : Frame :=
  (cells advance).foldl (fun frame c =>
    if drawn rows index left y c then plot black (left + c.2).toNat (y + c.1).toNat frame
    else frame) frame

/-- The loop of `c1pkg_text`. -/
def textFrom (x y maxWidth : ℤ) (black : Bool) : ℕ → Bytes → ℤ → Frame → Frame
  | 0, _, _, frame => frame
  | fuel + 1, s, used, frame =>
    match decode s with
    | none => frame
    | some (cp, s) =>
      if forbidden cp then frame
      else
        let index := glyph cp
        let advance := (widths index).toNat
        let left := x + used
        if maxWidth - used < advance ∨ frameWidth ≤ left then frame
        else textFrom x y maxWidth black fuel s (used + advance)
          (drawGlyph rows black index advance left y frame)

/-- `c1pkg_text` -/
def text (frame : Frame) (x y : ℤ) (label : Bytes) (maxWidth : ℤ) (black : Bool) : Frame :=
  if maxWidth ≤ 0 ∨ frameWidth ≤ x ∨ frameHeight ≤ y ∨ y ≤ -textHeight then frame
  else textFrom widths rows x y maxWidth black label.length label 0 frame

/-! ### What is drawn -/

/-- `frame[(y / 8) * 296 + x]`, bit `0x80 >> (y % 8)` -/
def pixel (frame : Frame) (X Y : ℕ) : Bool := (frame (Y / 8 * frameWidth + X)).getLsbD (7 - Y % 8)

/-- `C1PKG_TEXT_FRAME_BYTES` -/
def frameBytes : ℕ := 5624

variable {widths rows} {black : Bool} {frame : Frame} {X Y : ℕ}

lemma getLsbD_mask : ∀ k < 8, ∀ i < 8, (0x80#8 >>> k).getLsbD i = decide (i = 7 - k) := by decide

lemma pixel_plot {px py : ℕ} (hpx : px < frameWidth) (hX : X < frameWidth) :
    pixel (plot black px py frame) X Y = if px = X ∧ py = Y then black else pixel frame X Y := by
  unfold pixel plot frameWidth at *
  have hmask := getLsbD_mask (py % 8) (Nat.mod_lt _ (by decide)) (7 - Y % 8) (by omega)
  by_cases hoffset : Y / 8 * 296 + X = py / 8 * 296 + px
  · have hlow : 7 - Y % 8 < 8 := by omega
    rw [hoffset, update_self]
    generalize 0x80#8 >>> (py % 8) = mask at hmask
    rw [BitVec.getLsbD_eq_getElem hlow] at hmask ⊢
    by_cases hhere : px = X ∧ py = Y
    · rw [decide_eq_true (by omega)] at hmask
      rw [if_pos hhere]
      cases black <;> simp [hmask]
    rw [decide_eq_false (by omega)] at hmask
    rw [if_neg hhere]
    cases black <;> simp [hmask, hlow]
  · rw [update_of_ne hoffset, if_neg (by rintro ⟨rfl, rfl⟩; exact hoffset rfl)]

lemma plot_outside {px py i : ℕ} (hpx : px < frameWidth) (hpy : py < frameHeight)
    (hi : frameBytes ≤ i) : plot black px py frame i = frame i := by
  unfold plot frameWidth frameHeight frameBytes at *
  exact update_of_ne (by omega) _ _

/-- The frame has some pixels in one colour, and is otherwise as it was. -/
structure Draws (inked : ℕ → ℕ → Prop) (black : Bool) (before after : Frame) : Prop where
  set : ∀ X < frameWidth, ∀ Y < frameHeight, inked X Y → pixel after X Y = black
  kept : ∀ X < frameWidth, ∀ Y < frameHeight, ¬ inked X Y → pixel after X Y = pixel before X Y
  outside : ∀ i ≥ frameBytes, after i = before i

lemma Draws.refl {inked : ℕ → ℕ → Prop}
    (h : ∀ X < frameWidth, ∀ Y < frameHeight, ¬ inked X Y) : Draws inked black frame frame :=
  ⟨fun X hX Y hY hi => absurd hi (h X hX Y hY), fun _ _ _ _ _ => rfl, fun _ _ => rfl⟩

lemma Draws.trans {first second : ℕ → ℕ → Prop} {a b c : Frame} (h : Draws first black a b)
    (h' : Draws second black b c) : Draws (fun X Y => first X Y ∨ second X Y) black a c where
  set X hX Y hY hi := by
    by_cases hsecond : second X Y
    · exact h'.set X hX Y hY hsecond
    · rw [h'.kept X hX Y hY hsecond]
      exact h.set X hX Y hY (hi.resolve_right hsecond)
  kept X hX Y hY hi := by
    rw [not_or] at hi
    rw [h'.kept X hX Y hY hi.2, h.kept X hX Y hY hi.1]
  outside i hi := (h'.outside i hi).trans (h.outside i hi)

lemma Draws.congr {inked inked' : ℕ → ℕ → Prop} {after : Frame}
    (h : Draws inked black frame after) (heq : ∀ X < frameWidth, ∀ Y < frameHeight,
      (inked' X Y ↔ inked X Y)) : Draws inked' black frame after where
  set X hX Y hY hi := h.set X hX Y hY ((heq X hX Y hY).mp hi)
  kept X hX Y hY hi := h.kept X hX Y hY fun hi' => hi ((heq X hX Y hY).mpr hi')
  outside := h.outside

lemma Draws.plot {px py : ℕ} (hpx : px < frameWidth) (hpy : py < frameHeight) :
    Draws (fun X Y => px = X ∧ py = Y) black frame (plot black px py frame) where
  set X hX Y _ hi := by rw [pixel_plot hpx hX, if_pos hi]
  kept X hX Y _ hi := by rw [pixel_plot hpx hX, if_neg hi]
  outside _ hi := plot_outside hpx hpy hi

/-- The ink of some places of a glyph. -/
def InkOf (rows : ℕ → ℕ → BitVec 16) (index : ℕ) (left y : ℤ) (places : List (ℕ × ℕ))
    (X Y : ℕ) : Prop :=
  ∃ c ∈ places, left + c.2 = X ∧ y + c.1 = Y ∧ ink rows index c.1 c.2 = true

lemma draws_places (index : ℕ) (left y : ℤ) : ∀ {places : List (ℕ × ℕ)} {frame : Frame},
    Draws (InkOf rows index left y places) black frame (places.foldl (fun frame c =>
      if drawn rows index left y c then LabelDrawing.plot black (left + c.2).toNat
        (y + c.1).toNat frame else frame) frame)
  | [], frame => Draws.refl fun X _ Y _ h => by simp [InkOf] at h
  | c :: places, frame => by
    rw [foldl_cons]
    have hone : Draws (InkOf rows index left y [c]) black frame (if drawn rows index left y c then
        LabelDrawing.plot black (left + c.2).toNat (y + c.1).toNat frame else frame) := by
      have hdrawn : drawn rows index left y c = true ↔ 0 ≤ y + c.1 ∧ y + c.1 < frameHeight ∧
          0 ≤ left + c.2 ∧ left + c.2 < frameWidth ∧ ink rows index c.1 c.2 = true := by
        simp [drawn, and_assoc]
      split_ifs with hc
      · obtain ⟨hy, hy', hx, hx', hink⟩ := hdrawn.mp hc
        refine (Draws.plot (by omega) (by omega)).congr fun X _ Y _ => ?_
        simp only [InkOf, mem_singleton, exists_eq_left, hink, and_true]
        omega
      refine Draws.refl fun X hX Y hY => ?_
      rintro ⟨_, hmem, hx, hy, hink⟩
      obtain rfl := List.mem_singleton.mp hmem
      exact hc (hdrawn.mpr ⟨by omega, by omega, by omega, by omega, hink⟩)
    refine (hone.trans (draws_places index left y)).congr fun X _ Y _ => ?_
    simp [InkOf]

lemma draws_glyph {index advance : ℕ} {left y : ℤ} :
    Draws (InkOf rows index left y (cells advance)) black frame
      (drawGlyph rows black index advance left y frame) :=
  draws_places index left y

lemma InkOf.within {index advance : ℕ} {left y : ℤ}
    (h : InkOf rows index left y (cells advance) X Y) :
    left ≤ X ∧ (X : ℤ) < left + advance ∧ y ≤ Y ∧ (Y : ℤ) < y + textHeight := by
  obtain ⟨⟨row, col⟩, hmem, hx, hy, -⟩ := h
  have hplace : row < textHeight ∧ col < advance := by simpa [cells] using hmem
  simp only at hx hy
  omega

/-! ### A text -/

variable (widths) in
def widthOf (c : Char) : ℕ := (widths (glyph c.toNat)).toNat

lemma advance_cons {c : Char} {text : Text} :
    advance widths (c :: text) = widthOf widths c + advance widths text := rfl

variable (widths rows) in
/-- The ink of a text, one glyph after the other. -/
def Inked (y : ℤ) : ℤ → Text → ℕ → ℕ → Prop
  | _, [], _, _ => False
  | left, c :: text, X, Y =>
    InkOf rows (glyph c.toNat) left y (cells (widthOf widths c)) X Y ∨
      Inked y (left + widthOf widths c) text X Y

lemma Inked.within {y : ℤ} : ∀ {shown : Text} {left : ℤ}, Inked widths rows y left shown X Y →
    left ≤ X ∧ (X : ℤ) < left + advance widths shown ∧ y ≤ Y ∧ (Y : ℤ) < y + textHeight
  | c :: shown, left, h => by
    rw [advance_cons]
    rcases h with h | h
    · have := h.within
      omega
    · have := Inked.within h
      omega

variable (widths) in
/-- The characters that are drawn: as many as fit. -/
def fitting (room : ℤ) : Text → Text
  | [] => []
  | c :: text =>
    if room < widthOf widths c then [] else c :: fitting (room - widthOf widths c) text

variable (widths) in
/-- The longest beginning of a text that fits in a room. -/
structure Longest (text : Text) (room : ℤ) (shown : Text) : Prop where
  begins : shown <+: text
  fits : shown ≠ [] → (advance widths shown : ℤ) ≤ room
  longest : ∀ other, other <+: text → (advance widths other : ℤ) ≤ room → other <+: shown

lemma longest_fitting : ∀ {text : Text} {room : ℤ},
    Longest widths text room (fitting widths room text)
  | [], room => ⟨prefix_rfl, fun h => absurd rfl h, fun _ h _ => h⟩
  | c :: text, room => by
    rw [fitting]
    split_ifs with hroom
    · refine ⟨ nil_prefix, fun h => absurd rfl h, fun other hother hfits => ?_⟩
      rcases List.prefix_cons_iff.mp hother with rfl | ⟨rest, rfl, -⟩
      · exact prefix_rfl
      · rw [advance_cons] at hfits
        omega
    · have ih := @longest_fitting text (room - widthOf widths c)
      refine ⟨(List.prefix_cons_inj c).mpr ih.begins, fun _ => ?_, fun other hother hfits => ?_⟩
      · rw [advance_cons]
        by_cases hrest : fitting widths (room - widthOf widths c) text = []
        · rw [hrest, advance, map_nil, sum_nil]
          omega
        · have := ih.fits hrest
          omega
      · rcases List.prefix_cons_iff.mp hother with rfl | ⟨rest, rfl, hrest⟩
        · exact nil_prefix
        · rw [advance_cons] at hfits
          exact (List.prefix_cons_inj c).mpr (ih.longest rest hrest (by omega))

lemma textFrom_draws {x y maxWidth : ℤ} : ∀ {label : Text} {fuel : ℕ} {used : ℤ} {frame : Frame},
    (∀ c ∈ label, Allowed c) → (encode label).length ≤ fuel →
    Draws (Inked widths rows y (x + used) (fitting widths (maxWidth - used) label)) black frame
      (textFrom widths rows x y maxWidth black fuel (encode label) used frame)
  | [], fuel, used, frame, _, _ => by
    have hframe : textFrom widths rows x y maxWidth black fuel (encode []) used frame = frame := by
      cases fuel <;> simp [textFrom, encode, decode]
    rw [hframe]
    exact Draws.refl fun _ _ _ _ h => h
  | c :: label, fuel, used, frame, hall, hlen => by
    have hc : forbidden c.toNat = false := hall c mem_cons_self
    obtain ⟨b, bytes, hbytes, -⟩ := utf8EncodeChar_head c
    rw [encode_cons, length_append, hbytes, length_cons] at hlen
    obtain ⟨fuel, rfl⟩ : ∃ n, fuel = n + 1 := ⟨fuel - 1, by omega⟩
    rw [encode_cons, textFrom, decode_utf8]
    simp only [hc, Bool.false_eq_true, if_false]
    rw [fitting]
    change Draws _ black frame (if maxWidth - used < widthOf widths c ∨ frameWidth ≤ x + used
      then frame else _)
    by_cases hroom : maxWidth - used < widthOf widths c
    · rw [if_pos hroom, if_pos (Or.inl hroom)]
      exact Draws.refl fun _ _ _ _ h => h
    rw [if_neg hroom]
    by_cases hright : frameWidth ≤ x + used
    · rw [if_pos (Or.inr hright)]
      refine Draws.refl fun X hX Y _ h => ?_
      have := h.within
      omega
    rw [if_neg (by omega)]
    have hrest := @textFrom_draws x y maxWidth label fuel (used + widthOf widths c)
      (drawGlyph rows black (glyph c.toNat) (widthOf widths c) (x + used) y frame)
      (fun d hd => hall d (mem_cons_of_mem _ hd)) (by omega)
    rw [← add_assoc, ← sub_sub] at hrest
    exact draws_glyph.trans hrest

lemma text_draws {x y maxWidth : ℤ} {label : Text} (hall : ∀ c ∈ label, Allowed c) :
    Draws (Inked widths rows y x (fitting widths maxWidth label)) black frame
      (text widths rows frame x y (encode label) maxWidth black) := by
  unfold text
  split_ifs with hnone
  · refine Draws.refl fun X hX Y hY h => ?_
    have hwithin := h.within
    have hfits := (@longest_fitting widths label maxWidth).fits
    rcases hnone with hwidth | hright | hbelow | habove
    · by_cases hshown : fitting widths maxWidth label = []
      · rw [hshown] at h
        exact h
      · have := hfits hshown
        omega
    all_goals omega
  · have h := @textFrom_draws widths rows black x y maxWidth label _ 0 frame hall le_rfl
    rwa [add_zero, sub_zero] at h

variable (widths rows) in
/-- **Labels**: the scanner takes exactly one encoded character and reads nothing after the
terminator; a label is as wide as its characters together, and of them the longest beginning that
fits is drawn, within its columns and the frame. -/
theorem label_drawn :
    (∀ (bytes rest : Bytes) (cp : ℕ), decode bytes = some (cp, rest) ↔
      ∃ c : Char, c.toNat = cp ∧ bytes = String.utf8EncodeChar c ++ rest) ∧
    (∀ front bytes : Bytes, 0 ∉ bytes → decodeAt (front ++ bytes ++ [0]) front.length =
      some ((decode bytes).map fun r => (r.1, front.length + bytes.length - r.2.length))) ∧
    ∀ bytes, validLabel bytes → ∃ label : Text, bytes = encode label ∧
      textWidth widths bytes = advance widths label ∧
      ∀ (frame : Frame) (x y maxWidth : ℤ) (black : Bool), ∃ shown,
        Longest widths label maxWidth shown ∧
        Draws (Inked widths rows y x shown) black frame
          (text widths rows frame x y bytes maxWidth black) ∧
        ∀ X < frameWidth, ∀ Y < frameHeight, ¬ (x ≤ X ∧ (X : ℤ) < x + maxWidth) →
          pixel (text widths rows frame x y bytes maxWidth black) X Y = pixel frame X Y := by
  refine ⟨fun bytes rest cp => ⟨exists_of_decode, ?_⟩, fun front bytes hbytes => ?_, ?_⟩
  · rintro ⟨c, rfl, rfl⟩
    exact decode_utf8 c rest
  · exact decodeAt_eq (by rw [append_assoc, drop_left]) hbytes
  · intro bytes hvalid
    obtain ⟨label, hlabel, rfl⟩ := validLabel_iff.mp hvalid
    have hsmall : advance widths label ≤ intMax := by
      have hle := advance_le widths label
      have hsize := hlabel.size
      unfold labelMaxBytes at hsize
      unfold intMax
      omega
    refine ⟨label, rfl, textWidth_encode widths hlabel.allowed hsmall, ?_⟩
    intro frame x y maxWidth black
    have hdraws := @text_draws widths rows black frame x y maxWidth label hlabel.allowed
    refine ⟨_, longest_fitting, hdraws, fun X hX Y hY hout => hdraws.kept X hX Y hY fun h => hout ?_⟩
    have hwithin := h.within
    have hfits := (@longest_fitting widths label maxWidth).fits fun hnone => by rwa [hnone] at h
    omega

end C1auncher.Package.LabelDrawing
