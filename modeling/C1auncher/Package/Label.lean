import C1auncher.Ui.LockText

/-!
Labels: the names that are shown, and how wide a text is on the screen.

The widths of the characters are a generated table; the model takes any.
-/

namespace C1auncher.Package.Label

open CString Utf8Bytes Ui.LockText List Option

/-- `C1PKG_LABEL_MAX_BYTES` -/
def labelMaxBytes : ℕ := 40

/-- `decode`: the next code point and what comes after it; nothing at the end and where there is
none. -/
def decode : Bytes → Option (ℕ × Bytes)
  | [] => none
  | b :: s =>
    if b < 0x80 then some (b.toNat, s)
    else do
      let (n, minimum, bits) ← lead b.toNat
      let (cp, s) ← continuation n bits s
      if cp < minimum ∨ 0x10ffff < cp ∨ (0xd800 ≤ cp ∧ cp ≤ 0xdfff) then none else some (cp, s)

/-- The ranges of `forbidden`. -/
def ranges : List (ℕ × ℕ) :=
  [(0x0000, 0x001f), (0x007f, 0x009f), (0x00ad, 0x00ad),
   (0x034f, 0x034f), (0x0600, 0x0605), (0x061c, 0x061c),
   (0x06dd, 0x06dd), (0x070f, 0x070f), (0x0890, 0x0891),
   (0x08e2, 0x08e2), (0x115f, 0x1160), (0x17b4, 0x17b5),
   (0x180b, 0x180f), (0x200b, 0x200f), (0x2028, 0x202e),
   (0x2060, 0x206f), (0x3164, 0x3164), (0xfe00, 0xfe0f),
   (0xfeff, 0xfeff), (0xffa0, 0xffa0), (0xfff9, 0xfffd),
   (0x110bd, 0x110bd), (0x110cd, 0x110cd), (0x13430, 0x1345f),
   (0x1bca0, 0x1bca3), (0x1d173, 0x1d17a), (0xe0000, 0xe0fff)]

def forbidden (cp : ℕ) : Bool :=
  (0xfdd0 ≤ cp && cp ≤ 0xfdef) || 0xfffe ≤ cp % 0x10000 ||
    ranges.any fun r => r.1 ≤ cp && cp ≤ r.2

def whitespace (cp : ℕ) : Bool :=
  cp == 0x20 || cp == 0x85 || cp == 0xa0 || cp == 0x1680 ||
    (0x2000 ≤ cp && cp ≤ 0x200a) || cp == 0x2028 || cp == 0x2029 ||
    cp == 0x202f || cp == 0x205f || cp == 0x3000

/-- The loop of `c1pkg_valid_label`: whether every character is allowed, and the last one, if any,
no white space. `cp` is the last character so far. -/
def labelFrom : ℕ → Bool → ℕ → Bytes → Bool
  | _, _, cp, [] => !whitespace cp
  | 0, _, _, _ :: _ => false
  | fuel + 1, first, _, b :: s =>
    match decode (b :: s) with
    | none => false
    | some (cp, s) =>
      if forbidden cp || (first && whitespace cp) then false else labelFrom fuel false cp s

/-- `c1pkg_valid_label` -/
def validLabel (text : Bytes) : Bool :=
  if text.length = 0 ∨ labelMaxBytes < text.length then false
  else labelFrom text.length true 0 text

/-! ### Widths -/

/-- The ranges of `c1pkg_font_ranges`: first and last code point, and where its cells begin. -/
def fontRanges : List (ℕ × ℕ × ℕ) :=
  [(0x0020, 0x007e, 0), (0x00a0, 0x024f, 95), (0x2000, 0x206f, 527), (0x2190, 0x21ff, 639),
   (0x2500, 0x25ff, 751), (0x2e80, 0x312f, 1007), (0x31a0, 0x31bf, 1695), (0x3400, 0x4dbf, 1727),
   (0x4e00, 0x9fff, 8319), (0xf900, 0xfaff, 29311), (0xff00, 0xffef, 29823),
   (0xfffd, 0xfffd, 30063)]

/-- The number of entries of `c1pkg_font_widths`. -/
def fontCells : ℕ := 30064

/-- `glyph`: the cell of a code point; the last one stands for what the font has not. -/
def glyph (cp : ℕ) : ℕ :=
  match fontRanges.find? fun r => r.1 ≤ cp && cp ≤ r.2.1 with
  | some (first, _, offset) => offset + cp - first
  | none => fontCells - 1

/-- `INT_MAX` -/
def intMax : ℕ := 0x7fffffff

variable (widths : ℕ → UInt8)

/-- The loop of `c1pkg_text_width`. -/
def widthFrom : ℕ → ℕ → Bytes → ℕ
  | 0, width, _ => width
  | fuel + 1, width, s =>
    match decode s with
    | none => width
    | some (cp, s) =>
      if forbidden cp then width
      else
        let advance := (widths (glyph cp)).toNat
        if intMax - advance < width then intMax else widthFrom fuel (width + advance) s

/-- `c1pkg_text_width` -/
def textWidth (text : Bytes) : ℕ := widthFrom widths text.length 0 text

/-! ### Characters -/

lemma exists_of_decode {s rest : Bytes} {cp : ℕ} (h : decode s = some (cp, rest)) :
    ∃ c : Char, c.toNat = cp ∧ s = String.utf8EncodeChar c ++ rest := by
  rcases s with _ | ⟨b, s⟩
  · exact absurd h (by simp [decode])
  rw [decode] at h
  split_ifs at h with hascii
  · cases h
    obtain ⟨c, hto, hc⟩ := exists_ascii hascii
    exact ⟨c, hto, by rw [hc]; rfl⟩
  obtain ⟨⟨n, minimum, bits⟩, hlead, h⟩ := bind_eq_some_iff.mp h
  obtain ⟨⟨v, rest'⟩, hcont, h⟩ := bind_eq_some_iff.mp h
  obtain ⟨hok, h⟩ := ite_none_left_eq_some.mp h
  obtain ⟨rfl, rfl⟩ : v = cp ∧ rest' = rest := by simpa using h
  have hvalid : v.isValidChar := by
    unfold Nat.isValidChar
    omega
  have hto : (Char.ofNatAux v hvalid).toNat = v := rfl
  exact ⟨_, hto, utf8_of_continuation hlead (by rw [hto]; exact hcont) (by rw [hto]; omega)⟩

lemma decode_utf8 (c : Char) (rest : Bytes) :
    decode (String.utf8EncodeChar c ++ rest) = some (c.toNat, rest) := by
  by_cases h : c.toNat < 128
  · rcases utf8EncodeChar_cases c with ⟨-, hc⟩ | ⟨hl, -⟩ | ⟨hl, -⟩ | ⟨hl, -⟩
    · have hlow : UInt8.ofNat c.toNat < 0x80 := by
        rw [UInt8.lt_iff_toNat_lt, toNat_byte (by omega)]
        exact h
      rw [hc, singleton_append, decode, if_pos hlow, toNat_byte (by omega)]
    all_goals omega
  · rw [not_lt] at h
    obtain ⟨ch, bytes, minimum, bits, hc, hhigh, hlead, hmin, hcont⟩ := continuation_utf8 h
    have hv := c.valid
    have hmax : c.toNat < 0xd800 ∨ 0xdfff < c.toNat ∧ c.toNat < 0x110000 := hv
    rw [hc, cons_append, decode, if_neg hhigh, hlead]
    simp only [bind_eq_bind, bind_some, hcont]
    rw [if_neg (by omega)]

/-! ### Labels -/

def Allowed (c : Char) : Prop := forbidden c.toNat = false

def Blank (c : Char) : Prop := whitespace c.toNat = true

instance : DecidablePred Allowed := fun _ => inferInstanceAs (Decidable (_ = _))

instance : DecidablePred Blank := fun _ => inferInstanceAs (Decidable (_ = _))

structure LabelText (text : Text) : Prop where
  size : (encode text).length ≤ labelMaxBytes
  allowed : ∀ c ∈ text, Allowed c
  first : ∃ c, text.head? = some c ∧ ¬ Blank c
  last : ∀ c, text.getLast? = some c → ¬ Blank c

/-- The last code point of a text that comes after another one. -/
def lastOf (cp : ℕ) (text : Text) : ℕ := text.foldl (fun _ c => c.toNat) cp

lemma lastOf_eq {text : Text} {c : Char} (h : text.getLast? = some c) (cp : ℕ) :
    lastOf cp text = c.toNat := by
  obtain ⟨init, rfl⟩ := getLast?_eq_some_iff.mp h
  simp [lastOf]

lemma labelFrom_sound : ∀ {fuel cp : ℕ} {first : Bool} {bytes : Bytes},
    labelFrom fuel first cp bytes → ∃ text : Text, bytes = encode text
  | _, _, _, [], _ => ⟨[], rfl⟩
  | fuel + 1, cp, first, b :: s, h => by
    rw [labelFrom] at h
    rcases hdecode : decode (b :: s) with _ | ⟨v, rest⟩
    · simp [hdecode] at h
    obtain ⟨c, -, hbytes⟩ := exists_of_decode hdecode
    simp only [hdecode, Bool.if_false_left, Bool.and_eq_true] at h
    obtain ⟨text, rfl⟩ := labelFrom_sound h.2
    exact ⟨c :: text, by rw [hbytes, encode_cons]⟩

lemma labelFrom_encode : ∀ {text : Text} {fuel cp : ℕ} {first : Bool},
    (encode text).length ≤ fuel → (labelFrom fuel first cp (encode text) ↔
      (∀ c ∈ text, Allowed c) ∧ (first = true → ∀ c, text.head? = some c → ¬ Blank c) ∧
        whitespace (lastOf cp text) = false)
  | [], fuel, cp, first, _ => by
    cases fuel <;> simp [labelFrom, lastOf, encode]
  | c :: text, fuel, cp, first, hlen => by
    obtain ⟨b, bytes, hc, -⟩ := utf8EncodeChar_head c
    have hdecode := decode_utf8 c (encode text)
    rw [encode_cons, hc, cons_append] at hlen ⊢
    rw [hc, cons_append] at hdecode
    obtain ⟨fuel, rfl⟩ : ∃ n, fuel = n + 1 := ⟨fuel - 1, by simp at hlen; omega⟩
    have hrest : (encode text).length ≤ fuel := by
      simp only [length_cons, length_append] at hlen
      omega
    have ih := @labelFrom_encode text fuel c.toNat false hrest
    simp only [Bool.false_eq_true, false_implies, true_and] at ih
    simp only [labelFrom, hdecode, Bool.if_false_left, Bool.and_eq_true, ih, lastOf,
      foldl_cons, forall_mem_cons, Allowed, Blank, Bool.not_eq_true', head?_cons,
      some.injEq, forall_eq', Bool.not_eq_true]
    cases first <;> simp [and_assoc, and_left_comm]

lemma validLabel_encode {text : Text} : validLabel (encode text) ↔ LabelText text := by
  unfold validLabel
  constructor
  · intro h
    simp only [Bool.if_false_left, Bool.and_eq_true, Bool.not_eq_true', decide_eq_false_iff_not,
      not_or, not_lt] at h
    obtain ⟨⟨hpos, hsize⟩, h⟩ := h
    obtain ⟨hall, hfirst, hlast⟩ := (labelFrom_encode le_rfl).mp h
    refine ⟨hsize, hall, ?_, fun c hc => ?_⟩
    · rcases text with _ | ⟨c, text⟩
      · exact absurd rfl hpos
      · exact ⟨c, rfl, hfirst rfl c rfl⟩
    · rw [lastOf_eq hc] at hlast
      simp [Blank, hlast]
  · rintro ⟨hsize, hall, ⟨c, hc, hblank⟩, hlast⟩
    obtain ⟨text, rfl⟩ : ∃ rest, text = c :: rest := by
      rcases text with _ | ⟨d, rest⟩
      · simp at hc
      · exact ⟨rest, by simpa using hc⟩
    have hne : encode (c :: text) ≠ [] := fun h => by simpa using encode_eq_nil_iff.mp h
    obtain ⟨d, hd⟩ : ∃ d, (c :: text).getLast? = some d := ⟨_, getLast?_cons⟩
    have hend := hlast d hd
    rw [if_neg (by simpa [hne] using hsize), labelFrom_encode le_rfl, lastOf_eq hd]
    refine ⟨hall, fun _ e he => ?_, by simpa [Blank] using hend⟩
    obtain rfl : c = e := by simpa using he
    exact hblank

/-- **What is a label**: the UTF-8 of allowed characters, neither none nor too many, without white
space at the ends. -/
theorem validLabel_iff {bytes : Bytes} :
    validLabel bytes ↔ ∃ text, LabelText text ∧ bytes = encode text := by
  constructor
  · intro h
    have hloop := h
    simp only [validLabel, Bool.if_false_left, Bool.and_eq_true] at hloop
    obtain ⟨text, rfl⟩ := labelFrom_sound hloop.2
    exact ⟨text, validLabel_encode.mp h, rfl⟩
  · rintro ⟨text, htext, rfl⟩
    exact validLabel_encode.mpr htext

def advance (text : Text) : ℕ := (text.map fun c => (widths (glyph c.toNat)).toNat).sum

lemma widthFrom_encode : ∀ {text : Text} {fuel width : ℕ}, (∀ c ∈ text, Allowed c) →
    (encode text).length ≤ fuel → width + advance widths text ≤ intMax →
    widthFrom widths fuel width (encode text) = width + advance widths text
  | [], fuel, width, _, _, _ => by cases fuel <;> simp [widthFrom, encode, decode, advance]
  | c :: text, fuel, width, hall, hlen, hsum => by
    have hc : forbidden c.toNat = false := hall c (by simp)
    obtain ⟨b, bytes, hbytes, -⟩ := utf8EncodeChar_head c
    rw [encode_cons, length_append, hbytes, length_cons] at hlen
    obtain ⟨fuel, rfl⟩ : ∃ n, fuel = n + 1 := ⟨fuel - 1, by omega⟩
    simp only [advance, map_cons, sum_cons] at hsum ⊢
    rw [encode_cons, widthFrom, decode_utf8]
    simp only [hc, Bool.false_eq_true, if_false]
    rw [if_neg (by omega), widthFrom_encode (fun d hd => hall d (by simp [hd])) (by omega)
      (by rw [advance]; omega), advance]
    omega

lemma textWidth_encode {text : Text} (hall : ∀ c ∈ text, Allowed c)
    (h : advance widths text ≤ intMax) : textWidth widths (encode text) = advance widths text := by
  rw [textWidth, widthFrom_encode widths hall le_rfl (by omega), zero_add]

lemma advance_le (text : Text) : advance widths text ≤ 255 * (encode text).length := by
  induction text with
  | nil => simp [advance]
  | cons c text ih =>
    obtain ⟨b, bytes, hbytes, -⟩ := utf8EncodeChar_head c
    have hlt := (widths (glyph c.toNat)).toNat_lt
    simp only [advance, map_cons, sum_cons, encode_cons, hbytes, length_append, length_cons] at ih ⊢
    omega

end C1auncher.Package.Label
