import C1auncher.Utf8Bytes

/-!
The text of the lock page: which bytes the preferences take for one.
-/

namespace C1auncher.Ui.LockText

open CString Utf8Bytes List Option Nat

/-- `C1_LOCK_TEXT_BYTES` -/
def lockTextBytes : ℕ := 193

/-- The bytes up to the terminator, as `strlen` sees them. -/
def cString (memory : Bytes) : Bytes := memory.takeWhile (· ≠ 0)

/-- How many bytes continue a first byte, from which code point on they are needed, and the bits of
the code point that the first byte has. -/
def lead (ch : ℕ) : Option (ℕ × ℕ × ℕ) :=
  if 0xc2 ≤ ch ∧ ch ≤ 0xdf then some (1, 0x80, ch &&& 0x1f)
  else if 0xe0 ≤ ch ∧ ch ≤ 0xef then some (2, 0x800, ch &&& 0x0f)
  else if 0xf0 ≤ ch ∧ ch ≤ 0xf4 then some (3, 0x10000, ch &&& 7)
  else none

def continuation : ℕ → ℕ → Bytes → Option (ℕ × Bytes)
  | 0, ch, s => some (ch, s)
  | _ + 1, _, [] => none
  | n + 1, ch, b :: s =>
    if b.toNat &&& 0xc0 ≠ 0x80 then none
    else continuation n ((ch <<< 6) ||| (b.toNat &&& 0x3f)) s

/-- The last condition of the loop. -/
def refused (minimum ch : ℕ) : Prop :=
  ch < minimum ∨ ch > 0x10ffff ∨ (0xd800 ≤ ch ∧ ch ≤ 0xdfff) ∨ (0x80 ≤ ch ∧ ch ≤ 0x9f) ∨
    (0x200b ≤ ch ∧ ch ≤ 0x200f) ∨ (0x2028 ≤ ch ∧ ch ≤ 0x202e) ∨ (0x2060 ≤ ch ∧ ch ≤ 0x206f) ∨
    ch = 0xfeff

instance (minimum ch : ℕ) : Decidable (refused minimum ch) :=
  inferInstanceAs (Decidable (_ ∨ _ ∨ (_ ∧ _) ∨ (_ ∧ _) ∨ (_ ∧ _) ∨ (_ ∧ _) ∨ (_ ∧ _) ∨ _))

/-- One round of the loop: what is left after a character. -/
def character (ch : UInt8) (s : Bytes) : Option Bytes :=
  if ch < 0x80 then if ch < 0x20 ∨ ch = 0x7f then none else some s
  else do
    let (n, minimum, bits) ← lead ch.toNat
    if s.length < n then none
    else do
      let (ch, s) ← continuation n bits s
      if refused minimum ch then none else some s

/-- The loop; every round takes a byte. -/
def validFrom : ℕ → Bytes → Bool
  | _, [] => true
  | 0, _ :: _ => false
  | fuel + 1, ch :: s =>
    match character ch s with
    | none => false
    | some s => validFrom fuel s

/-- `c1_preferences_valid_text`, of the memory that the pointer leads to. -/
def validText (memory : Bytes) : Bool :=
  let text := cString (memory.take lockTextBytes)
  if text = [] ∨ lockTextBytes ≤ text.length then false else validFrom text.length text

/-! ### The characters that are taken -/

/-- A character that may stand in the text: no control character, and none that has no width or
turns the direction. -/
def Printable (c : Char) : Prop :=
  32 ≤ c.toNat ∧ ¬(127 ≤ c.toNat ∧ c.toNat ≤ 159) ∧ ¬(0x200b ≤ c.toNat ∧ c.toNat ≤ 0x200f) ∧
    ¬(0x2028 ≤ c.toNat ∧ c.toNat ≤ 0x202e) ∧ ¬(0x2060 ≤ c.toNat ∧ c.toNat ≤ 0x206f) ∧
    c.toNat ≠ 0xfeff

instance : DecidablePred Printable := fun _ => inferInstanceAs (Decidable (_ ∧ _))

lemma and_c0 (b : UInt8) : b.toNat &&& 0xc0 = 0x80 ↔ Continues b := by
  have hall : ∀ n < 256, n &&& 0xc0 = 0x80 ↔ 128 ≤ n ∧ n < 192 := by decide +kernel
  exact hall b.toNat b.toNat_lt

lemma shift_or (ch b : ℕ) : (ch <<< 6) ||| (b &&& 0x3f) = 64 * ch + b % 64 := by
  rw [and_two_pow_sub_one_eq_mod b 6,
    ← shiftLeft_add_eq_or_of_lt (mod_lt _ (by decide)),
    shiftLeft_eq]
  omega

variable {n ch minimum : ℕ} {s rest : Bytes} {c : Char} {text : Text}

lemma continuation_cons {b : UInt8} (h : Continues b) (s : Bytes) :
    continuation (n + 1) ch (b :: s) = continuation n (64 * ch + b.toNat % 64) s := by
  rw [continuation, if_neg (not_not.mpr ((and_c0 b).mpr h)), shift_or]

lemma continuation_eq_some {v : ℕ}
    (h : continuation (n + 1) ch s = some (v, rest)) : ∃ b more, s = b :: more ∧ Continues b ∧
      continuation n (64 * ch + b.toNat % 64) more = some (v, rest) := by
  cases s with
  | nil => exact absurd h (by simp [continuation])
  | cons b more =>
    rw [continuation, shift_or] at h
    split_ifs at h with hb
    exact ⟨b, more, rfl, (and_c0 b).mp (not_not.mp hb), h⟩

lemma refused_iff (hm : minimum ≤ c.toNat) (h : 128 ≤ c.toNat) :
    refused minimum c.toNat ↔ ¬ Printable c := by
  have hv := c.valid
  have hmax : c.toNat < 0xd800 ∨ 0xdfff < c.toNat ∧ c.toNat < 0x110000 := hv
  unfold refused Printable
  omega

lemma exists_char {v : ℕ} (hr : ¬ refused minimum v) (h : 128 ≤ minimum) :
    ∃ c : Char, c.toNat = v ∧ Printable c ∧ minimum ≤ v := by
  unfold refused at hr
  have hvalid : v.isValidChar := by
    unfold Nat.isValidChar
    omega
  have hto : (Char.ofNatAux v hvalid).toNat = v := rfl
  refine ⟨Char.ofNatAux v hvalid, hto, ?_, by omega⟩
  unfold Printable
  rw [hto]
  omega

lemma continues_byte (h : n < 64) : Continues (UInt8.ofNat (128 + n)) := by
  rw [Continues, toNat_byte (by omega)]
  omega

lemma byte_mod (h : n < 64) : (UInt8.ofNat (128 + n)).toNat % 64 = n := by
  rw [toNat_byte (by omega)]
  omega

lemma byte_eq {b : UInt8} (h : b.toNat = n) : b = UInt8.ofNat n := by
  rw [← h, UInt8.ofNat_toNat]

lemma lead_cases {bits : ℕ} (h : lead ch = some (n, minimum, bits)) :
    (0xc2 ≤ ch ∧ ch ≤ 0xdf ∧ n = 1 ∧ minimum = 0x80 ∧ bits = ch % 32) ∨
    (0xe0 ≤ ch ∧ ch ≤ 0xef ∧ n = 2 ∧ minimum = 0x800 ∧ bits = ch % 16) ∨
    (0xf0 ≤ ch ∧ ch ≤ 0xf4 ∧ n = 3 ∧ minimum = 0x10000 ∧ bits = ch % 8) := by
  unfold lead at h
  rw [and_two_pow_sub_one_eq_mod ch 5, and_two_pow_sub_one_eq_mod ch 4,
    and_two_pow_sub_one_eq_mod ch 3] at h
  split_ifs at h with h1 h2 h3 <;> cases h
  · exact .inl ⟨h1.1, h1.2, rfl, rfl, rfl⟩
  · exact .inr (.inl ⟨h2.1, h2.2, rfl, rfl, rfl⟩)
  · exact .inr (.inr ⟨h3.1, h3.2, rfl, rfl, rfl⟩)

/-- **A first byte and its continuation, backwards**: they are the bytes of the character. -/
lemma utf8_of_continuation {ch : UInt8} {bits : ℕ}
    (hlead : lead ch.toNat = some (n, minimum, bits))
    (hcont : continuation n bits s = some (c.toNat, rest)) (hmin : minimum ≤ c.toNat) :
    ch :: s = String.utf8EncodeChar c ++ rest := by
  have hlast : ∀ {v : ℕ} {more : Bytes}, continuation 0 v more = some (c.toNat, rest) →
      v = c.toNat ∧ more = rest := by
    intro v more h
    simpa [continuation] using h
  rcases lead_cases hlead with ⟨hlow, hhigh, rfl, rfl, rfl⟩ | ⟨hlow, hhigh, rfl, rfl, rfl⟩ |
    ⟨hlow, hhigh, rfl, rfl, rfl⟩
  · obtain ⟨b, more, rfl, hb, hcont⟩ := continuation_eq_some hcont
    obtain ⟨hto, rfl⟩ := hlast hcont
    unfold Continues at hb
    rcases utf8EncodeChar_cases c with ⟨h, -⟩ | ⟨-, -, hc⟩ | ⟨h, -⟩ | ⟨h, -⟩
    · omega
    · rw [hc, byte_eq (show ch.toNat = 192 + c.toNat / 64 by omega),
        byte_eq (show b.toNat = 128 + c.toNat % 64 by omega)]
      rfl
    all_goals omega
  · obtain ⟨b, more, rfl, hb, hcont⟩ := continuation_eq_some hcont
    obtain ⟨b', more, rfl, hb', hcont⟩ := continuation_eq_some hcont
    obtain ⟨hto, rfl⟩ := hlast hcont
    unfold Continues at hb hb'
    rcases utf8EncodeChar_cases c with ⟨h, -⟩ | ⟨-, h, -⟩ | ⟨-, -, hc⟩ | ⟨h, -⟩
    · omega
    · omega
    · rw [hc, byte_eq (show ch.toNat = 224 + c.toNat / 4096 by omega),
        byte_eq (show b.toNat = 128 + c.toNat / 64 % 64 by omega),
        byte_eq (show b'.toNat = 128 + c.toNat % 64 by omega)]
      rfl
    · omega
  · obtain ⟨b, more, rfl, hb, hcont⟩ := continuation_eq_some hcont
    obtain ⟨b', more, rfl, hb', hcont⟩ := continuation_eq_some hcont
    obtain ⟨b'', more, rfl, hb'', hcont⟩ := continuation_eq_some hcont
    obtain ⟨hto, rfl⟩ := hlast hcont
    unfold Continues at hb hb' hb''
    rcases utf8EncodeChar_cases c with ⟨h, -⟩ | ⟨-, h, -⟩ | ⟨-, h, -⟩ | ⟨-, -, hc⟩
    · omega
    · omega
    · omega
    rw [hc, byte_eq (show ch.toNat = 240 + c.toNat / 262144 by omega),
      byte_eq (show b.toNat = 128 + c.toNat / 4096 % 64 by omega),
      byte_eq (show b'.toNat = 128 + c.toNat / 64 % 64 by omega),
      byte_eq (show b''.toNat = 128 + c.toNat % 64 by omega)]
    rfl

lemma exists_ascii {ch : UInt8} (h : ch < 0x80) :
    ∃ c : Char, c.toNat = ch.toNat ∧ String.utf8EncodeChar c = [ch] := by
  rw [UInt8.lt_iff_toNat_lt] at h
  simp only [UInt8.reduceToNat] at h
  have hvalid : ch.toNat.isValidChar := .inl (by omega)
  have hto : (Char.ofNatAux ch.toNat hvalid).toNat = ch.toNat := rfl
  rcases utf8EncodeChar_cases (Char.ofNatAux ch.toNat hvalid) with ⟨-, hc⟩ | h' | h' | h'
  · exact ⟨_, hto, by rw [hc, hto, UInt8.ofNat_toNat]⟩
  all_goals
    rw [hto] at h'
    omega

/-- **One round, backwards**: what is taken is one printable character. -/
lemma exists_of_character {ch : UInt8} (h : character ch s = some rest) :
    ∃ c : Char, Printable c ∧ ch :: s = String.utf8EncodeChar c ++ rest := by
  unfold character at h
  split_ifs at h with hascii hcontrol
  · -- an ASCII byte
    cases h
    obtain ⟨c, hto, hc⟩ := exists_ascii hascii
    refine ⟨c, ?_, by rw [hc]; rfl⟩
    simp only [not_or, UInt8.lt_iff_toNat_lt, ← UInt8.toNat_inj, UInt8.reduceToNat]
      at hascii hcontrol
    unfold Printable
    rw [hto]
    omega
  obtain ⟨⟨n, minimum, bits⟩, hlead, h⟩ := bind_eq_some_iff.mp h
  obtain ⟨-, h⟩ := ite_none_left_eq_some.mp h
  obtain ⟨⟨v, rest'⟩, hcont, h⟩ := bind_eq_some_iff.mp h
  obtain ⟨hrefused, h⟩ := ite_none_left_eq_some.mp h
  obtain rfl : rest' = rest := by simpa using h
  have hlow : 128 ≤ minimum := by
    rcases lead_cases hlead with ⟨-, -, -, rfl, -⟩ | ⟨-, -, -, rfl, -⟩ | ⟨-, -, -, rfl, -⟩ <;>
      decide
  obtain ⟨c, rfl, hp, hmin⟩ := exists_char hrefused hlow
  exact ⟨c, hp, utf8_of_continuation hlead hcont hmin⟩

lemma continuation_byte {k : ℕ} (h : n < 64) (s : Bytes) :
    continuation (k + 1) ch (UInt8.ofNat (128 + n) :: s) = continuation k (64 * ch + n) s := by
  rw [continuation_cons (continues_byte h), byte_mod h]

/-- **A first byte and its continuation, forwards**: the bytes of a character spell it. -/
lemma continuation_utf8 (h : 128 ≤ c.toNat) : ∃ (ch : UInt8) (bytes : Bytes)
    (minimum bits : ℕ), String.utf8EncodeChar c = ch :: bytes ∧ ¬ ch < 0x80 ∧
      lead ch.toNat = some (bytes.length, minimum, bits) ∧ minimum ≤ c.toNat ∧
      ∀ rest, continuation bytes.length bits (bytes ++ rest) = some (c.toNat, rest) := by
  have hhigh : ∀ {n : ℕ}, 128 ≤ n → n < 256 → ¬ UInt8.ofNat n < 0x80 := by
    intro n hn hlt
    rw [UInt8.lt_iff_toNat_lt, toNat_byte hlt]
    exact not_lt.mpr hn
  rcases utf8EncodeChar_cases c with ⟨hu, -⟩ | ⟨hl, hu, hc⟩ | ⟨hl, hu, hc⟩ | ⟨hl, hu, hc⟩
  · omega
  · refine ⟨_, _, 0x80, c.toNat / 64, hc, hhigh (by omega) (by omega), ?_, by omega, fun rest => ?_⟩
    · rw [toNat_byte (by omega), lead, if_pos (by omega), and_two_pow_sub_one_eq_mod _ 5]
      simp only [length_singleton, some.injEq, Prod.mk.injEq, true_and]
      omega
    · rw [length_singleton, singleton_append, continuation_byte (by omega), continuation,
        show 64 * (c.toNat / 64) + c.toNat % 64 = c.toNat by omega]
  · refine ⟨_, _, 0x800, c.toNat / 4096, hc, hhigh (by omega) (by omega), ?_, by omega,
      fun rest => ?_⟩
    · rw [toNat_byte (by omega), lead, if_neg (by omega), if_pos (by omega),
        and_two_pow_sub_one_eq_mod _ 4]
      simp only [length_cons, length_nil, some.injEq, Prod.mk.injEq, true_and]
      omega
    · simp only [length_cons, length_nil, cons_append, nil_append]
      rw [continuation_byte (by omega), continuation_byte (by omega), continuation,
        show 64 * (64 * (c.toNat / 4096) + c.toNat / 64 % 64) + c.toNat % 64 = c.toNat by omega]
  · refine ⟨_, _, 0x10000, c.toNat / 262144, hc, hhigh (by omega) (by omega), ?_, by omega,
      fun rest => ?_⟩
    · rw [toNat_byte (by omega), lead, if_neg (by omega), if_neg (by omega), if_pos (by omega),
        and_two_pow_sub_one_eq_mod _ 3]
      simp only [length_cons, length_nil, some.injEq, Prod.mk.injEq, true_and]
      omega
    simp only [length_cons, length_nil, cons_append, nil_append]
    rw [continuation_byte (by omega), continuation_byte (by omega), continuation_byte (by omega),
      continuation, show 64 * (64 * (64 * (c.toNat / 262144) + c.toNat / 4096 % 64) +
        c.toNat / 64 % 64) + c.toNat % 64 = c.toNat by omega]

/-- **One round, forwards**: a printable character is taken. -/
lemma character_utf8 (hp : Printable c) : ∃ ch bytes,
    String.utf8EncodeChar c = ch :: bytes ∧
      ∀ rest, character ch (bytes ++ rest) = some rest := by
  by_cases h : c.toNat < 128
  · rcases utf8EncodeChar_cases c with ⟨-, hc⟩ | ⟨hl, -⟩ | ⟨hl, -⟩ | ⟨hl, -⟩
    · refine ⟨_, _, hc, fun rest => ?_⟩
      unfold Printable at hp
      have hlow : UInt8.ofNat c.toNat < 0x80 := by
        rw [UInt8.lt_iff_toNat_lt, toNat_byte (by omega)]
        exact h
      have hok : ¬(UInt8.ofNat c.toNat < 0x20 ∨ UInt8.ofNat c.toNat = 0x7f) := by
        rw [UInt8.lt_iff_toNat_lt, ← UInt8.toNat_inj, toNat_byte (by omega)]
        simp only [UInt8.reduceToNat]
        omega
      rw [character, if_pos hlow, if_neg hok]
      rfl
    all_goals omega
  · rw [not_lt] at h
    obtain ⟨ch, bytes, minimum, bits, hc, hhigh, hlead, hmin, hcont⟩ := continuation_utf8 h
    refine ⟨ch, bytes, hc, fun rest => ?_⟩
    rw [character, if_neg hhigh, hlead]
    simp only [bind_eq_bind, bind_some]
    rw [if_neg (by simp), hcont]
    simp only [bind_some]
    rw [if_neg ((refused_iff hmin h).not.mpr (not_not.mpr hp))]

/-! ### The texts that are taken -/

lemma validFrom_sound : ∀ {fuel : ℕ} {bytes : Bytes}, validFrom fuel bytes →
    ∃ text : Text, bytes = encode text ∧ ∀ c ∈ text, Printable c
  | fuel, [], _ => ⟨[], rfl, by simp⟩
  | fuel + 1, ch :: s, h => by
    rw [validFrom] at h
    rcases hchar : character ch s with _ | rest
    · simp [hchar] at h
    rw [hchar] at h
    obtain ⟨c, hp, hbytes⟩ := exists_of_character hchar
    obtain ⟨text, rfl, hall⟩ := validFrom_sound h
    refine ⟨c :: text, by rw [hbytes, encode_cons], ?_⟩
    intro d hd
    rcases mem_cons.mp hd with rfl | hd
    · exact hp
    · exact hall d hd

lemma validFrom_encode : ∀ {text : Text} {fuel : ℕ}, (∀ c ∈ text, Printable c) →
    (encode text).length ≤ fuel → validFrom fuel (encode text)
  | [], fuel, _, _ => by cases fuel <;> rfl
  | c :: text, fuel, h, hlen => by
    obtain ⟨ch, bytes, hc, htake⟩ := character_utf8 (h c (by simp))
    rw [encode_cons, hc, cons_append] at hlen ⊢
    obtain ⟨fuel, rfl⟩ : ∃ n, fuel = n + 1 := ⟨fuel - 1, by simp at hlen; omega⟩
    rw [validFrom, htake]
    refine validFrom_encode (fun d hd => h d (by simp [hd])) ?_
    simp only [length_cons, length_append] at hlen
    omega

lemma encode_ne_zero (h : ∀ c ∈ text, Printable c) : ∀ b ∈ encode text, b ≠ 0 := by
  rintro b hb rfl
  have hmem := h _ (mem_of_ascii hb (by decide))
  exact absurd hmem (by decide)

lemma cString_encode (h : ∀ c ∈ text, Printable c) (rest : Bytes) :
    cString (encode text ++ 0 :: rest) = encode text := by
  have hall : ∀ b ∈ encode text, decide (b ≠ 0) = true := fun b hb => by
    simpa using encode_ne_zero h b hb
  rw [cString, takeWhile_append_of_pos hall]
  simp

lemma cString_take_eq (memory : Bytes) (n : ℕ) :
    cString (memory.take n) = (cString memory).take n := by
  induction memory generalizing n with
  | nil => simp [cString]
  | cons b memory ih =>
    cases n with
    | zero => simp [cString]
    | succ n =>
      by_cases hb : b = 0
      · simp [cString, hb]
      · simpa [cString, hb] using ih n

structure Fits (text : Text) : Prop where
  ne_nil : text ≠ []
  printable : ∀ c ∈ text, Printable c
  size : (encode text).length < lockTextBytes

lemma encode_eq_nil_iff : encode text = [] ↔ text = [] := by
  cases text with
  | nil => simp
  | cons c text =>
    obtain ⟨b, rest, hc, -⟩ := utf8EncodeChar_head c
    simp [encode_cons, hc]

/-- **What is valid**: the bytes up to the terminator are the UTF-8 of printable characters, not
none, and they fit. -/
theorem validText_iff {memory : Bytes} : validText memory ↔
    ∃ text, Fits text ∧ cString (memory.take lockTextBytes) = encode text := by
  unfold validText
  constructor
  · intro h
    simp only [Bool.if_false_left, Bool.and_eq_true, Bool.not_eq_true',
      decide_eq_false_iff_not, not_or, not_le] at h
    obtain ⟨⟨hne, hlen⟩, h⟩ := h
    obtain ⟨text, htext, hall⟩ := validFrom_sound h
    rw [htext] at hne hlen
    exact ⟨text, ⟨fun hnil => hne (encode_eq_nil_iff.mpr hnil), hall, hlen⟩, htext⟩
  · rintro ⟨text, ⟨hne, hall, hlen⟩, htext⟩
    simp only [htext]
    rw [if_neg]
    · exact validFrom_encode hall le_rfl
    rintro (hnil | hle)
    · exact hne (encode_eq_nil_iff.mp hnil)
    · omega

lemma cString_take (h : Fits text) (rest : Bytes) :
    cString ((encode text ++ 0 :: rest).take lockTextBytes) = encode text := by
  obtain ⟨n, hn⟩ : ∃ n, lockTextBytes - (encode text).length = n + 1 :=
    ⟨lockTextBytes - (encode text).length - 1, by have := h.size; omega⟩
  rw [take_append, take_of_length_le (le_of_lt h.size), hn, take_succ_cons,
    cString_encode h.printable]

lemma validText_terminated (h : Fits text) (rest : Bytes) :
    validText (encode text ++ 0 :: rest) :=
  validText_iff.mpr ⟨text, h, cString_take h rest⟩

lemma exists_terminated {memory : Bytes} (hlen : lockTextBytes ≤ memory.length)
    (h : validText memory) : ∃ text rest, Fits text ∧ memory = encode text ++ 0 :: rest := by
  obtain ⟨text, hfits, htext⟩ := validText_iff.mp h
  have hsplit := takeWhile_append_dropWhile (p := (· ≠ 0)) (l := memory.take lockTextBytes)
  rcases hrest : (memory.take lockTextBytes).dropWhile (· ≠ 0) with _ | ⟨b, rest⟩
  · -- without a terminator all the bytes would be text
    have hall : (memory.take lockTextBytes).takeWhile (· ≠ 0) = memory.take lockTextBytes := by
      rw [hrest, append_nil] at hsplit
      exact hsplit
    have hsize := hfits.size
    rw [← htext, cString, hall, length_take_of_le hlen] at hsize
    omega
  · have hb : b = 0 := by
      have hhead := head?_dropWhile_not (· ≠ 0) (memory.take lockTextBytes)
      rw [hrest] at hhead
      simpa using hhead
    refine ⟨text, rest ++ memory.drop lockTextBytes, hfits, ?_⟩
    calc memory = memory.take lockTextBytes ++ memory.drop lockTextBytes :=
          (take_append_drop _ _).symm
      _ = encode text ++ 0 :: rest ++ memory.drop lockTextBytes := by
          rw [← hsplit, hrest, hb, ← htext, cString]
      _ = encode text ++ 0 :: (rest ++ memory.drop lockTextBytes) := by simp

end C1auncher.Ui.LockText
