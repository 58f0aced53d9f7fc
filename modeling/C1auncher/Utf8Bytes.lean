import C1auncher.CString

/-!
Texts as their UTF-8 bytes.
-/

namespace C1auncher.Utf8Bytes

open CString List

abbrev Bytes := List UInt8

def encode (text : Text) : Bytes := text.flatMap String.utf8EncodeChar

def ascii (s : String) : Bytes := encode s.toList

def strcmp : Bytes → Bytes → Ordering := List.compareLex compare

instance : Std.TransCmp strcmp := inferInstanceAs (Std.TransCmp (List.compareLex compare))

instance : Std.LawfulEqCmp strcmp := inferInstanceAs (Std.LawfulEqCmp (List.compareLex compare))

lemma encode_append (s t : Text) : encode (s ++ t) = encode s ++ encode t := by
  simp [encode]

lemma encode_cons (c : Char) (t : Text) :
    encode (c :: t) = String.utf8EncodeChar c ++ encode t := by
  simp [encode]

@[simp] lemma encode_nil : encode [] = [] := rfl

/-! ### The bytes of one character -/

def Continues (byte : UInt8) : Prop := 128 ≤ byte.toNat ∧ byte.toNat < 192

instance : DecidablePred Continues := fun _ => inferInstanceAs (Decidable (_ ∧ _))

lemma utf8EncodeChar_cases (c : Char) :
    (c.toNat < 128 ∧ String.utf8EncodeChar c = [UInt8.ofNat c.toNat]) ∨
    (128 ≤ c.toNat ∧ c.toNat < 2048 ∧ String.utf8EncodeChar c =
      [UInt8.ofNat (192 + c.toNat / 64), UInt8.ofNat (128 + c.toNat % 64)]) ∨
    (2048 ≤ c.toNat ∧ c.toNat < 65536 ∧ String.utf8EncodeChar c =
      [UInt8.ofNat (224 + c.toNat / 4096), UInt8.ofNat (128 + c.toNat / 64 % 64),
        UInt8.ofNat (128 + c.toNat % 64)]) ∨
    (65536 ≤ c.toNat ∧ c.toNat < 1114112 ∧ String.utf8EncodeChar c =
      [UInt8.ofNat (240 + c.toNat / 262144), UInt8.ofNat (128 + c.toNat / 4096 % 64),
        UInt8.ofNat (128 + c.toNat / 64 % 64), UInt8.ofNat (128 + c.toNat % 64)]) := by
  have hmax : c.toNat < 1114112 := by
    rcases c.valid with h | ⟨-, h⟩
    · exact lt_trans h (by decide)
    · exact h
  unfold String.utf8EncodeChar
  simp only [show c.val.toNat = c.toNat from rfl]
  split_ifs with h1 h2 h3
  · exact .inl ⟨by omega, rfl⟩
  · refine .inr (.inl ⟨by omega, by omega, ?_⟩)
    rw [show c.toNat / 64 % 32 + 192 = 192 + c.toNat / 64 by omega, Nat.add_comm _ 128]
  · refine .inr (.inr (.inl ⟨by omega, by omega, ?_⟩))
    rw [show c.toNat / 4096 % 16 + 224 = 224 + c.toNat / 4096 by omega, Nat.add_comm _ 128,
      Nat.add_comm _ 128]
  refine .inr (.inr (.inr ⟨by omega, by omega, ?_⟩))
  rw [show c.toNat / 262144 % 8 + 240 = 240 + c.toNat / 262144 by omega, Nat.add_comm _ 128,
    Nat.add_comm _ 128, Nat.add_comm _ 128]

lemma toNat_byte {n : ℕ} (h : n < 256) : (UInt8.ofNat n).toNat = n := UInt8.toNat_ofNat_of_lt' h

lemma utf8EncodeChar_head (c : Char) : ∃ byte rest, String.utf8EncodeChar c = byte :: rest ∧
    ¬ Continues byte ∧ (∀ b ∈ rest, Continues b) ∧ rest.length ≤ 3 := by
  rcases utf8EncodeChar_cases c with ⟨h, hc⟩ | ⟨h, h', hc⟩ | ⟨h, h', hc⟩ | ⟨h, h', hc⟩
  · refine ⟨_, _, hc, ?_, by simp, by simp⟩
    rw [Continues, toNat_byte (by omega)]
    omega
  · refine ⟨_, _, hc, ?_, ?_, by simp⟩
    · rw [Continues, toNat_byte (by omega)]
      omega
    simp only [mem_cons, not_mem_nil, or_false, forall_eq]
    rw [Continues, toNat_byte (by omega)]
    omega
  · refine ⟨_, _, hc, ?_, ?_, by simp⟩
    · rw [Continues, toNat_byte (by omega)]
      omega
    · simp only [mem_cons, not_mem_nil, or_false, forall_eq_or_imp, forall_eq]
      constructor <;> rw [Continues, toNat_byte (by omega)] <;> omega
  · refine ⟨_, _, hc, ?_, ?_, by simp⟩
    · rw [Continues, toNat_byte (by omega)]
      omega
    · simp only [mem_cons, not_mem_nil, or_false, forall_eq_or_imp, forall_eq]
      refine ⟨?_, ?_, ?_⟩ <;> rw [Continues, toNat_byte (by omega)] <;> omega

lemma high_of_mem {c : Char} (h : 128 ≤ c.toNat) {byte : UInt8}
    (hb : byte ∈ String.utf8EncodeChar c) : 128 ≤ byte := by
  have hhigh : ∀ n, 128 ≤ n → n < 256 → 128 ≤ UInt8.ofNat n := by
    intro n hn hlt
    rw [UInt8.le_iff_toNat_le, toNat_byte hlt]
    exact hn
  rcases utf8EncodeChar_cases c with ⟨h', hc⟩ | ⟨-, h', hc⟩ | ⟨-, h', hc⟩ | ⟨-, h', hc⟩
  all_goals rw [hc] at hb; simp only [mem_cons, not_mem_nil, or_false] at hb
  · omega
  · rcases hb with rfl | rfl <;> exact hhigh _ (by omega) (by omega)
  · rcases hb with rfl | rfl | rfl <;> exact hhigh _ (by omega) (by omega)
  · rcases hb with rfl | rfl | rfl | rfl <;> exact hhigh _ (by omega) (by omega)

lemma mem_of_ascii {text : Text} {byte : UInt8} (h : byte ∈ encode text) (hb : byte < 128) :
    Char.ofNat byte.toNat ∈ text := by
  obtain ⟨c, hc, hmem⟩ := List.mem_flatMap.mp h
  by_cases hlow : c.toNat < 128
  · rcases utf8EncodeChar_cases c with ⟨h', heq⟩ | ⟨h', -⟩ | ⟨h', -⟩ | ⟨h', -⟩
    · rw [heq, mem_singleton] at hmem
      rwa [hmem, toNat_byte (by omega), Char.ofNat_toNat]
    all_goals omega
  · exact absurd (high_of_mem (by omega) hmem) (UInt8.not_le.mpr hb)

lemma encode_eq_map {text : Text} (h : ∀ c ∈ text, c.toNat < 128) :
    encode text = text.map fun c => UInt8.ofNat c.toNat := by
  induction text with
  | nil => rfl
  | cons c text ih =>
    rw [encode_cons, ih fun d hd => h d (by simp [hd]), map_cons]
    rcases utf8EncodeChar_cases c with ⟨-, hc⟩ | ⟨hl, -⟩ | ⟨hl, -⟩ | ⟨hl, -⟩
    · rw [hc]
      rfl
    all_goals
      have := h c (by simp)
      omega

/-! ### Bytes as characters -/

def chars (bytes : Bytes) : Text := bytes.map fun b => Char.ofNat b.toNat

lemma toNat_char (b : UInt8) : (Char.ofNat b.toNat).toNat = b.toNat := by
  have hlt := b.toNat_lt
  have hvalid : b.toNat.isValidChar := .inl (by omega)
  rw [Char.ofNat, dif_pos hvalid]
  rfl

lemma mem_chars {bytes : Bytes} {b : UInt8} (h : b ∈ bytes) : Char.ofNat b.toNat ∈ chars bytes :=
  mem_map_of_mem h

lemma chars_eq_iff {bytes : Bytes} {text : Text} (h : ∀ c ∈ text, c.toNat < 128) :
    chars bytes = text ↔ bytes = encode text := by
  rw [encode_eq_map h]
  constructor
  · rintro rfl
    rw [chars, map_map]
    refine (map_id' bytes).symm.trans (map_congr_left fun b hb => ?_)
    simp only [Function.comp, toNat_char, UInt8.ofNat_toNat]
  rintro rfl
  rw [chars, map_map]
  refine (map_congr_left fun c hc => ?_).trans (map_id' text)
  have := h c hc
  simp only [Function.comp, toNat_byte (show c.toNat < 256 by omega), Char.ofNat_toNat]

/-! ### Numbers as bytes -/

lemma decimal_ascii (n : UInt64) : ∀ c ∈ decimal n, c.toNat < 128 := by
  intro c hc
  have hdigit := decimal_isDigit hc
  simp only [Char.isDigit, Bool.and_eq_true, decide_eq_true_eq] at hdigit
  have hle : c.toNat ≤ 57 := hdigit.2
  omega

lemma parseU64_chars {bytes : Bytes} {nonzero : Bool} {n : UInt64} :
    parseU64 (chars bytes) nonzero = some n ↔
      bytes = encode (decimal n) ∧ (nonzero = true → n ≠ 0) := by
  rw [parseU64_iff, chars_eq_iff (decimal_ascii n)]

lemma length_decimal (n : UInt64) : (encode (decimal n)).length ≤ 20 := by
  rw [encode_eq_map (decimal_ascii n), length_map]
  exact decimal_length_le n

end C1auncher.Utf8Bytes
