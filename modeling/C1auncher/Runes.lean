import C1auncher.Utf8Bytes

/-!
Bytes that may not be UTF-8, character by character: a byte that begins no character stands alone.
-/

namespace C1auncher.Runes

open CString Utf8Bytes List

def decodeRune (bytes : Bytes) : Option Char := (bytes.take 4).toByteArray.utf8DecodeChar? 0

/-- The characters, and for each byte that is part of none of them nothing. -/
def runes : Bytes → List (Option Char)
  | [] => []
  | byte :: bytes =>
    match decodeRune (byte :: bytes) with
    | some c => some c :: runes (bytes.drop (c.utf8Size - 1))
    | none => none :: runes bytes
termination_by bytes => bytes.length

def text? (bytes : Bytes) : Option Text := (runes bytes).mapM id

/-- The text with a replacement character for each byte that is part of no character. -/
def lossy (bytes : Bytes) : Text := (runes bytes).map fun rune => rune.getD '\ufffd'

variable {bytes rest : Bytes} {c : Char} {text : Text}

/-! ### One character -/

lemma length_utf8EncodeChar_le (c : Char) : (String.utf8EncodeChar c).length ≤ 4 := by
  rw [String.length_utf8EncodeChar]
  exact c.utf8Size_le_four

lemma decodeRune_encode (c : Char) (rest : Bytes) :
    decodeRune (String.utf8EncodeChar c ++ rest) = some c := by
  rw [decodeRune, take_append, take_of_length_le (length_utf8EncodeChar_le c), toByteArray_append]
  exact ByteArray.utf8DecodeChar?_utf8EncodeChar_append

lemma decodeRune_iff : decodeRune bytes = some c ↔ String.utf8EncodeChar c <+: bytes := by
  constructor
  · intro h
    obtain ⟨l, hl⟩ := ByteArray.exists_of_utf8DecodeChar?_eq_some h
    have hlist := congrArg (fun b : ByteArray => b.data.toList) hl
    simp only [data_toByteArray, ByteArray.data_append, Array.toList_append] at hlist
    exact ⟨l.data.toList ++ bytes.drop 4, by
      rw [← append_assoc, ← hlist, take_append_drop]⟩
  · rintro ⟨rest, rfl⟩
    exact decodeRune_encode c rest

lemma decodeRune_continues {byte : UInt8} (h : Continues byte) (bytes : Bytes) :
    decodeRune (byte :: bytes) = none := by
  rcases hdecode : decodeRune (byte :: bytes) with _ | c
  · rfl
  obtain ⟨first, more, hc, hfirst, -⟩ := utf8EncodeChar_head c
  obtain ⟨rest, hrest⟩ := decodeRune_iff.mp hdecode
  rw [hc, cons_append, cons.injEq] at hrest
  exact absurd (hrest.1 ▸ h) hfirst

lemma decodeRune_cut {c : Char} {n : ℕ} (h : n < (String.utf8EncodeChar c).length) :
    decodeRune ((String.utf8EncodeChar c).take n) = none := by
  rcases hdecode : decodeRune ((String.utf8EncodeChar c).take n) with _ | d
  · rfl
  have hd := decodeRune_iff.mp hdecode
  have hsame : decodeRune (String.utf8EncodeChar c) = some d :=
    decodeRune_iff.mpr (hd.trans ( take_prefix n _))
  have hself := decodeRune_encode c []
  rw [append_nil, hsame, Option.some_inj] at hself
  have hle := hd.length_le
  rw [hself, length_take] at hle
  omega

/-! ### A text -/

lemma runes_encode_append (text : Text) (rest : Bytes) :
    runes (encode text ++ rest) = text.map some ++ runes rest := by
  induction text with
  | nil => rfl
  | cons c text ih =>
    obtain ⟨byte, more, hc, -⟩ := utf8EncodeChar_head c
    have hlen := String.length_utf8EncodeChar c
    rw [hc, length_cons] at hlen
    have hdecode := decodeRune_encode c (encode text ++ rest)
    rw [hc, cons_append] at hdecode
    rw [encode_cons, hc, cons_append, cons_append, append_assoc, runes, hdecode]
    dsimp only
    rw [show c.utf8Size - 1 = more.length by omega, drop_left, ih]
    rfl

lemma runes_encode (text : Text) : runes (encode text) = text.map some := by
  have h := runes_encode_append text []
  rwa [append_nil, show runes [] = [] by rw [runes], append_nil] at h

lemma encode_of_runes (h : runes bytes = text.map some) : bytes = encode text := by
  induction bytes using runes.induct generalizing text with
  | case1 =>
    rw [runes] at h
    rw [List.map_eq_nil_iff.mp h.symm]
    rfl
  | case2 byte bytes c hdecode ih =>
    rw [runes, hdecode] at h
    rcases text with _ | ⟨d, text⟩
    · cases h
    obtain ⟨hd, htext⟩ := cons.inj h
    obtain ⟨rest, hrest⟩ := decodeRune_iff.mp hdecode
    obtain ⟨first, more, hc, -⟩ := utf8EncodeChar_head c
    have hlen := String.length_utf8EncodeChar c
    rw [hc, length_cons] at hlen
    rw [hc, cons_append, cons.injEq] at hrest
    have hmore := ih htext
    rw [← hrest.2, show c.utf8Size - 1 = more.length by omega, drop_left] at hmore
    rw [encode_cons, ← Option.some_inj.mp hd, hc, cons_append, hrest.1, ← hrest.2, hmore]
  | case3 byte bytes hdecode ih =>
    rw [runes, hdecode] at h
    rcases text with _ | ⟨d, text⟩ <;> cases h

/-- **What is read as a text are its bytes.** -/
theorem text?_iff : text? bytes = some text ↔ bytes = encode text := by
  have hall : ∀ (found : List (Option Char)), found.mapM id = some text ↔
      found = text.map some := by
    intro found
    induction found generalizing text with
    | nil => cases text <;> simp
    | cons rune found ih =>
      rw [mapM_cons]
      rcases rune with _ | d
      · cases text <;> simp
      rcases text with _ | ⟨e, text⟩
      · simp [Option.bind_eq_some_iff]
      simp only [id, Option.bind_eq_bind, Option.bind_some, Option.bind_eq_some_iff,
        Option.pure_def, Option.some_inj, cons.injEq, map_cons]
      constructor
      · rintro ⟨a, ha, rfl, rfl⟩
        exact ⟨rfl, ih.mp ha⟩
      · rintro ⟨rfl, ha⟩
        exact ⟨text, ih.mpr ha, rfl, rfl⟩
  rw [text?, hall]
  exact ⟨encode_of_runes, fun h => h ▸ runes_encode text⟩

lemma lossy_encode (text : Text) : lossy (encode text) = text := by
  rw [lossy, runes_encode, map_map]
  exact map_id' text

lemma encode_lossy : encode (lossy bytes) = bytes ↔ ∃ text, bytes = encode text :=
  ⟨fun h => ⟨lossy bytes, h.symm⟩, by rintro ⟨text, rfl⟩; rw [lossy_encode]⟩

/-! ### A text that is cut off -/

lemma runes_continues (h : ∀ byte ∈ bytes, Continues byte) :
    runes bytes = List.replicate bytes.length none := by
  induction bytes with
  | nil => rw [runes]; rfl
  | cons byte bytes ih =>
    rw [runes, decodeRune_continues (h byte mem_cons_self), length_cons, replicate_succ]
    dsimp only
    rw [ih fun b hb => h b (mem_cons_of_mem _ hb)]

/-- **The bytes in front of a place in a text**: the characters that are whole there, and the bytes
of one that is not. -/
theorem runes_take (text : Text) (n : ℕ) : ∃ whole more k, text = whole ++ more ∧
    runes ((encode text).take n) = whole.map some ++ List.replicate k none ∧
    (n < (encode text).length → more ≠ []) := by
  induction text generalizing n with
  | nil => exact ⟨[], [], 0, rfl, by rw [encode_nil, take_nil, runes]; rfl, by simp⟩
  | cons c text ih =>
    rw [encode_cons]
    by_cases hn : n < (String.utf8EncodeChar c).length
    · refine ⟨[], c :: text, n, rfl, ?_, fun _ => cons_ne_nil _ _⟩
      rw [take_append_of_le_length hn.le]
      obtain ⟨byte, more, hc, -, hmore, -⟩ := utf8EncodeChar_head c
      have hcut := decodeRune_cut hn
      rcases n with _ | n
      · rw [take_zero, runes]
        rfl
      rw [hc, take_succ_cons] at hcut ⊢
      rw [hc, length_cons] at hn
      rw [runes, hcut, runes_continues fun b hb => hmore b (mem_of_mem_take hb),
        length_take_of_le (by omega)]
      rfl
    · rw [not_lt] at hn
      obtain ⟨whole, more, k, htext, hrunes, hne⟩ := ih (n - (String.utf8EncodeChar c).length)
      refine ⟨c :: whole, more, k, by rw [htext]; rfl, ?_, fun hlt => hne ?_⟩
      · rw [take_append, take_of_length_le hn]
        have h := runes_encode_append [c] ((encode text).take (n - (String.utf8EncodeChar c).length))
        rw [encode_cons, encode_nil, append_nil] at h
        rw [h, hrunes]
        rfl
      · rw [length_append] at hlt
        omega

end C1auncher.Runes
