import C1auncher.Utf8Bytes

/-!
UTF-8 as the terminal reads and writes it.

`utf8proc_iterate` reads the well-formed sequence a text begins with; `utf8proc_encode_char`
writes one. How many columns a character takes is a table of `utf8proc` and a parameter of
everything that needs it.
-/

namespace C1auncher.Terminal.Utf8

abbrev Bytes := List UInt8

/-- `char32_t` -/
abbrev Char32 := ℕ

/-- U+FFFD, for what is not well formed. -/
def replacement : Char32 := 0xfffd

def replacementBytes : Bytes := [0xef, 0xbf, 0xbd]

/-- The low six bits of a continuation byte. -/
def tail (b : UInt8) : ℕ := b.toNat % 64

def isTail (b : UInt8) : Bool := 0x80 ≤ b && b ≤ 0xbf

/-- The second byte a lead byte allows, without overlong forms and surrogates. -/
def isSecond (lead b : UInt8) : Bool :=
  isTail b && !(lead == 0xe0 && b < 0xa0) && !(lead == 0xed && b ≥ 0xa0) &&
    !(lead == 0xf0 && b < 0x90) && !(lead == 0xf4 && b ≥ 0x90)

/-- How many bytes a lead byte announces, none for a byte that cannot lead. -/
def lengthOf (lead : UInt8) : Option ℕ :=
  if lead < 0x80 then some 1
  else if 0xc2 ≤ lead && lead ≤ 0xdf then some 2
  else if 0xe0 ≤ lead && lead ≤ 0xef then some 3
  else if 0xf0 ≤ lead && lead ≤ 0xf4 then some 4
  else none

/-- `utf8proc_iterate`: the code point a text begins with and its length. -/
def iterate (data : Bytes) : Option (Char32 × ℕ) :=
  match data with
  | [] => none
  | a :: rest =>
    match lengthOf a, rest with
    | some 1, _ => some (a.toNat, 1)
    | some 2, b :: _ =>
      if isSecond a b then some (a.toNat % 32 * 64 + tail b, 2) else none
    | some 3, b :: c :: _ =>
      if isSecond a b && isTail c then some (a.toNat % 16 * 4096 + tail b * 64 + tail c, 3)
      else none
    | some 4, b :: c :: d :: _ =>
      if isSecond a b && isTail c && isTail d then
        some (a.toNat % 8 * 262144 + tail b * 4096 + tail c * 64 + tail d, 4)
      else none
    | _, _ => none

/-- `utf8::decode`: an invalid byte is skipped and replaced. -/
def decode (data : Bytes) : Char32 × ℕ := (iterate data).getD (replacement, 1)

/-- `utf8proc_encode_char` -/
def encodeChar (ch : Char32) : Bytes :=
  if ch < 0x80 then [UInt8.ofNat ch]
  else if ch < 0x800 then [UInt8.ofNat (0xc0 + ch / 64), UInt8.ofNat (0x80 + ch % 64)]
  else if ch < 0x10000 then
    [UInt8.ofNat (0xe0 + ch / 4096), UInt8.ofNat (0x80 + ch / 64 % 64),
      UInt8.ofNat (0x80 + ch % 64)]
  else
    [UInt8.ofNat (0xf0 + ch / 262144), UInt8.ofNat (0x80 + ch / 4096 % 64),
      UInt8.ofNat (0x80 + ch / 64 % 64), UInt8.ofNat (0x80 + ch % 64)]

/-- `utf8::encode` -/
def encode (ch : Char32) : Bytes := if ch = 0 ∨ 0x10ffff < ch then [0x20] else encodeChar ch

end C1auncher.Terminal.Utf8

/-!
Which bytes are a character, and which ones begin one.
-/

namespace C1auncher.Terminal.Utf8Form

open Terminal.Utf8 List

def IsChar (t : Bytes) : Prop := ∃ ch : Char, 0x80 ≤ ch.toNat ∧ String.utf8EncodeChar ch = t

def Begins (t : Bytes) : Prop := t ≠ [] ∧ ∃ u, IsChar u ∧ t <+: u

def Lead (l : UInt8) : Prop := 0xc2 ≤ l ∧ l ≤ 0xf4

/-- How many bytes a lead byte announces. -/
def need (l : UInt8) : ℕ := if l < 0xe0 then 2 else if l < 0xf0 then 3 else 4

/-- The bytes that are allowed behind a lead byte, one after the other. -/
def Formed : Bytes → Prop
  | [] => False
  | [l] => Lead l
  | l :: b :: rest => Lead l ∧ isSecond l b = true ∧ (∀ c ∈ rest, isTail c = true) ∧
      rest.length + 2 ≤ need l

lemma isTail_iff (b : UInt8) : isTail b = true ↔ 0x80 ≤ b.toNat ∧ b.toNat ≤ 0xbf := by
  simp [isTail, UInt8.le_iff_toNat_le]

lemma isSecond_iff (l b : UInt8) : isSecond l b = true ↔ 0x80 ≤ b.toNat ∧ b.toNat ≤ 0xbf ∧
    (l.toNat = 0xe0 → 0xa0 ≤ b.toNat) ∧ (l.toNat = 0xed → b.toNat < 0xa0) ∧
    (l.toNat = 0xf0 → 0x90 ≤ b.toNat) ∧ (l.toNat = 0xf4 → b.toNat < 0x90) := by
  simp only [isSecond, Bool.and_eq_true, isTail_iff, Bool.not_eq_true', Bool.and_eq_false_iff,
    beq_eq_false_iff_ne, ne_eq, ← UInt8.toNat_inj, decide_eq_false_iff_not, UInt8.lt_iff_toNat_lt,
    ge_iff_le, UInt8.le_iff_toNat_le, UInt8.reduceToNat]
  omega

lemma lead_iff (l : UInt8) : Lead l ↔ 0xc2 ≤ l.toNat ∧ l.toNat ≤ 0xf4 := by
  simp [Lead, UInt8.le_iff_toNat_le]

lemma need_eq (l : UInt8) : need l = if l.toNat < 0xe0 then 2 else if l.toNat < 0xf0 then 3
    else 4 := by
  simp [need, UInt8.lt_iff_toNat_lt]

variable {n : ℕ} {b l : UInt8} {rest : Bytes}

lemma exists_char (h : n < 0xd800 ∨ 0xdfff < n ∧ n < 0x110000) :
    ∃ ch : Char, ch.toNat = n := by
  refine ⟨Char.ofNat n, ?_⟩
  rw [Char.toNat_ofNat, if_pos]
  exact h

lemma byte_eq (h : n = b.toNat) : UInt8.ofNat n = b := by
  rw [h, UInt8.ofNat_toNat]

lemma isChar_two (hl : 0xc2 ≤ l.toNat ∧ l.toNat < 0xe0)
    (hb : 0x80 ≤ b.toNat ∧ b.toNat ≤ 0xbf) : IsChar [l, b] := by
  obtain ⟨ch, hch⟩ := exists_char (n := (l.toNat - 0xc0) * 64 + (b.toNat - 0x80)) (.inl (by omega))
  refine ⟨ch, by omega, ?_⟩
  rcases Utf8Bytes.utf8EncodeChar_cases ch with h | ⟨-, -, h⟩ | h | h
  · omega
  · rw [h, byte_eq (by omega : 192 + ch.toNat / 64 = l.toNat),
      byte_eq (by omega : 128 + ch.toNat % 64 = b.toNat)]
  · omega
  · omega

lemma isChar_three {c : UInt8} (hl : 0xe0 ≤ l.toNat ∧ l.toNat < 0xf0)
    (hb : isSecond l b = true) (hc : 0x80 ≤ c.toNat ∧ c.toNat ≤ 0xbf) : IsChar [l, b, c] := by
  obtain ⟨hb, hb', he0, hed, -, -⟩ := (isSecond_iff l b).mp hb
  have hn : ∃ n, n = (l.toNat - 0xe0) * 4096 + (b.toNat - 0x80) * 64 + (c.toNat - 0x80) := ⟨_, rfl⟩
  obtain ⟨n, hn⟩ := hn
  obtain ⟨ch, hch⟩ := exists_char (n := n) (by omega)
  refine ⟨ch, by omega, ?_⟩
  rcases Utf8Bytes.utf8EncodeChar_cases ch with h | h | ⟨-, -, h⟩ | h
  · omega
  · omega
  · rw [h, byte_eq (by omega : 224 + ch.toNat / 4096 = l.toNat),
      byte_eq (by omega : 128 + ch.toNat / 64 % 64 = b.toNat),
      byte_eq (by omega : 128 + ch.toNat % 64 = c.toNat)]
  · omega

lemma isChar_four {c d : UInt8} (hl : 0xf0 ≤ l.toNat ∧ l.toNat ≤ 0xf4)
    (hb : isSecond l b = true) (hc : 0x80 ≤ c.toNat ∧ c.toNat ≤ 0xbf)
    (hd : 0x80 ≤ d.toNat ∧ d.toNat ≤ 0xbf) : IsChar [l, b, c, d] := by
  obtain ⟨hb, hb', -, -, hf0, hf4⟩ := (isSecond_iff l b).mp hb
  have hn : ∃ n, n = (l.toNat - 0xf0) * 262144 + (b.toNat - 0x80) * 4096 +
      (c.toNat - 0x80) * 64 + (d.toNat - 0x80) := ⟨_, rfl⟩
  obtain ⟨n, hn⟩ := hn
  obtain ⟨ch, hch⟩ := exists_char (n := n) (by omega)
  refine ⟨ch, by omega, ?_⟩
  rcases Utf8Bytes.utf8EncodeChar_cases ch with h | h | h | ⟨-, -, h⟩
  · omega
  · omega
  · omega
  rw [h, byte_eq (by omega : 240 + ch.toNat / 262144 = l.toNat),
    byte_eq (by omega : 128 + ch.toNat / 4096 % 64 = b.toNat),
    byte_eq (by omega : 128 + ch.toNat / 64 % 64 = c.toNat),
    byte_eq (by omega : 128 + ch.toNat % 64 = d.toNat)]

lemma isChar_of_formed (h : Formed (l :: rest))
    (hlength : rest.length + 1 = need l) : IsChar (l :: rest) := by
  rw [need_eq] at hlength
  match rest, h, hlength with
  | [], _, hlength =>
    simp only [length_nil] at hlength
    split_ifs at hlength <;> omega
  | [b], ⟨hl, hb, _, _⟩, hlength =>
    rw [lead_iff] at hl
    obtain ⟨hb, hb', -⟩ := (isSecond_iff l b).mp hb
    refine isChar_two ⟨hl.1, ?_⟩ ⟨hb, hb'⟩
    simp only [length_singleton] at hlength
    split_ifs at hlength <;> omega
  | [b, c], ⟨hl, hb, hrest, _⟩, hlength =>
    rw [lead_iff] at hl
    refine isChar_three ?_ hb ((isTail_iff c).mp (hrest c mem_cons_self))
    simp only [length_cons, length_nil] at hlength
    split_ifs at hlength <;> omega
  | [b, c, d], ⟨hl, hb, hrest, _⟩, hlength =>
    rw [lead_iff] at hl
    refine isChar_four ?_ hb ((isTail_iff c).mp (hrest c mem_cons_self))
      ((isTail_iff d).mp (hrest d (by simp)))
    simp only [length_cons, length_nil] at hlength
    split_ifs at hlength <;> omega
  | b :: c :: d :: e :: more, _, hlength =>
    simp only [length_cons] at hlength
    split_ifs at hlength <;> omega

lemma tail_ofNat (h : 128 ≤ n ∧ n < 192) : isTail (UInt8.ofNat n) = true := by
  rw [isTail_iff, Utf8Bytes.toNat_byte (by omega)]
  omega

lemma formed_of_isChar {t : Bytes} (h : IsChar t) :
    ∃ l rest, t = l :: rest ∧ Formed t ∧ rest.length + 1 = need l := by
  obtain ⟨ch, hhigh, rfl⟩ := h
  rcases Utf8Bytes.utf8EncodeChar_cases ch with h | ⟨-, h', h⟩ | ⟨h, h', heq⟩ | ⟨h, h', heq⟩
  · omega
  · have hl := Utf8Bytes.toNat_byte (n := 192 + ch.toNat / 64) (by omega)
    have hb := Utf8Bytes.toNat_byte (n := 128 + ch.toNat % 64) (by omega)
    refine ⟨_, _, h, ?_, ?_⟩
    · rw [h]
      refine ⟨(lead_iff _).mpr (by omega), (isSecond_iff _ _).mpr (by omega), by simp, ?_⟩
      rw [need_eq, hl, if_pos (by omega)]
      simp
    · rw [need_eq, hl, if_pos (by omega)]
      rfl
  · have hl := Utf8Bytes.toNat_byte (n := 224 + ch.toNat / 4096) (by omega)
    have hb := Utf8Bytes.toNat_byte (n := 128 + ch.toNat / 64 % 64) (by omega)
    have hvalid := ch.valid
    have hsurrogate : ch.toNat < 0xd800 ∨ 0xdfff < ch.toNat := by
      rcases hvalid with hlow | ⟨hhigh, -⟩
      · exact .inl hlow
      · exact .inr hhigh
    refine ⟨_, _, heq, ?_, ?_⟩
    · rw [heq]
      refine ⟨(lead_iff _).mpr (by omega), (isSecond_iff _ _).mpr (by omega), ?_, ?_⟩
      · simpa using tail_ofNat (n := 128 + ch.toNat % 64) (by omega)
      · rw [need_eq, hl, if_neg (by omega), if_pos (by omega)]
        simp
    · rw [need_eq, hl, if_neg (by omega), if_pos (by omega)]
      rfl
  · have hl := Utf8Bytes.toNat_byte (n := 240 + ch.toNat / 262144) (by omega)
    have hb := Utf8Bytes.toNat_byte (n := 128 + ch.toNat / 4096 % 64) (by omega)
    refine ⟨_, _, heq, ?_, ?_⟩
    · rw [heq]
      refine ⟨(lead_iff _).mpr (by omega), (isSecond_iff _ _).mpr (by omega), ?_, ?_⟩
      · have hc := tail_ofNat (n := 128 + ch.toNat / 64 % 64) (by omega)
        have hd := tail_ofNat (n := 128 + ch.toNat % 64) (by omega)
        exact List.forall_mem_cons.mpr ⟨hc, List.forall_mem_singleton.mpr hd⟩
      · rw [need_eq, hl, if_neg (by omega), if_neg (by omega)]
        simp
    · rw [need_eq, hl, if_neg (by omega), if_neg (by omega)]
      rfl

lemma exists_isChar (h : Formed (l :: rest)) :
    ∃ more, IsChar (l :: rest ++ more) := by
  have hneed : 2 ≤ need l ∧ need l ≤ 4 := by
    rw [need_eq]
    split_ifs <;> omega
  match rest, h with
  | [], hl =>
    have hsecond : ∃ b, isSecond l b = true := by
      by_cases hlow : l.toNat = 0xe0 ∨ l.toNat = 0xf0
      · exact ⟨0xa0, (isSecond_iff l 0xa0).mpr (by simp only [UInt8.reduceToNat]; omega)⟩
      · exact ⟨0x80, (isSecond_iff l 0x80).mpr (by simp only [UInt8.reduceToNat]; omega)⟩
    obtain ⟨b, hb⟩ := hsecond
    refine ⟨b :: replicate (need l - 2) 0x80, isChar_of_formed ⟨hl, hb, ?_, ?_⟩ ?_⟩
    · exact fun c hc => eq_of_mem_replicate hc ▸ rfl
    · rw [length_replicate]
      omega
    change (replicate (need l - 2) (0x80 : UInt8)).length + 1 + 1 = need l
    rw [length_replicate]
    omega
  | b :: rest, ⟨hl, hb, hrest, hlength⟩ =>
    refine ⟨replicate (need l - (rest.length + 2)) 0x80,
      isChar_of_formed ⟨hl, hb, ?_, ?_⟩ ?_⟩
    · intro c hc
      rcases List.mem_append.mp hc with hc | hc
      · exact hrest c hc
      · exact eq_of_mem_replicate hc ▸ rfl
    · rw [append_eq, length_append, length_replicate]
      omega
    change (rest ++ replicate (need l - (rest.length + 2)) (0x80 : UInt8)).length + 1 + 1 =
      need l
    rw [length_append, length_replicate]
    omega

lemma formed_of_prefix {t u : Bytes} (h : t <+: u) (hne : t ≠ []) (hu : Formed u) : Formed t := by
  obtain ⟨more, rfl⟩ := h
  match t, hu with
  | [], _ => exact absurd rfl hne
  | [l], hu =>
    match more, hu with
    | [], hl => exact hl
    | _ :: _, ⟨hl, _⟩ => exact hl
  | l :: b :: rest, ⟨hl, hb, hrest, hlength⟩ =>
    refine ⟨hl, hb, fun c hc => hrest c (mem_append_left _ hc), ?_⟩
    rw [append_eq, length_append] at hlength
    omega

lemma begins_iff (t : Bytes) : Begins t ↔ Formed t := by
  constructor
  · rintro ⟨hne, u, hu, hprefix⟩
    obtain ⟨l, rest, rfl, hformed, -⟩ := formed_of_isChar hu
    exact formed_of_prefix hprefix hne hformed
  intro h
  match t, h with
  | l :: rest, h =>
    obtain ⟨more, hmore⟩ := exists_isChar h
    exact ⟨cons_ne_nil _ _, _, hmore, prefix_append _ _⟩

lemma isChar_iff (h : Formed (l :: rest)) :
    IsChar (l :: rest) ↔ rest.length + 1 = need l := by
  constructor
  · intro hchar
    obtain ⟨l', rest', heq, -, hlength⟩ := formed_of_isChar hchar
    obtain ⟨rfl, rfl⟩ := cons.inj heq
    exact hlength
  · exact isChar_of_formed h

end C1auncher.Terminal.Utf8Form
