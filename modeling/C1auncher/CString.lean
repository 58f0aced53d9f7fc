import Mathlib

/-!
C strings as lists of characters: decimal numbers, tokens and hexadecimal digests.

These are the small readers and writers that several subsystems repeat word for word.
-/

namespace C1auncher.CString

open List Nat

/-- The characters of a C string or of a file. -/
abbrev Text := List Char

/-! ### Unsigned decimal numbers -/

/-- What `%llu` writes. -/
def decimal (n : UInt64) : Text := Nat.toDigits 10 n.toNat

def digitValue (c : Char) : UInt64 := UInt64.ofNat (c.toNat - '0'.toNat)

/-- The loop of `parse_u64`, which refuses anything but digits and any overflow. -/
def parseDigits : UInt64 → Text → Option UInt64
  | result, [] => some result
  | result, c :: text =>
    if c < '0' || c > '9' then none
    else if result > (0xffffffffffffffff - digitValue c) / 10 then none
    else parseDigits (result * 10 + digitValue c) text

/-- A decimal number without leading zeros, and not zero if so wished. -/
def parseU64 (text : Text) (nonzero : Bool) : Option UInt64 :=
  match text with
  | [] => none
  | '0' :: _ :: _ => none
  | _ =>
    match parseDigits 0 text with
    | none => none
    | some result => if nonzero && result == 0 then none else some result

variable {c : Char} {text : Text} {n : UInt64}

lemma isDigit_bounds (h : c.isDigit) : ¬(c < '0' || c > '9') := by
  simp only [Char.isDigit, Bool.and_eq_true, decide_eq_true_eq] at h
  simp only [Bool.or_eq_true, decide_eq_true_eq, not_or, not_lt]
  exact h

lemma digitValue_toNat (h : c.isDigit) :
    (digitValue c).toNat = c.toNat - 48 ∧ c.toNat - 48 < 10 := by
  have hb : c.toNat ≤ 57 := by
    simp only [Char.isDigit, Bool.and_eq_true, decide_eq_true_eq] at h
    exact h.2
  refine ⟨?_, by omega⟩
  simp only [digitValue, show '0'.toNat = 48 from rfl, UInt64.toNat_ofNat']
  omega

lemma le_ofDigitChars (text : Text) (n : ℕ) : n ≤ Nat.ofDigitChars 10 text n := by
  induction text generalizing n with
  | nil => simp
  | cons c text ih =>
    rw [ofDigitChars_cons]
    have := ih (10 * n + (c.toNat - '0'.toNat))
    omega

lemma parseDigits_eq (hd : ∀ c ∈ text, c.isDigit) (result : UInt64)
    (h : Nat.ofDigitChars 10 text result.toNat < 2 ^ 64) :
    ∃ n, parseDigits result text = some n ∧ n.toNat = Nat.ofDigitChars 10 text result.toNat := by
  induction text generalizing result with
  | nil => exact ⟨result, rfl, by simp⟩
  | cons c text ih =>
    have hc := hd c mem_cons_self
    obtain ⟨hv, hlt⟩ := digitValue_toNat hc
    rw [ofDigitChars_cons] at h ⊢
    have hle := le_ofDigitChars text (10 * result.toNat + (c.toNat - '0'.toNat))
    simp only [show '0'.toNat = 48 from rfl] at h hle ⊢
    have hnext : (result * 10 + digitValue c).toNat = 10 * result.toNat + (c.toNat - 48) := by
      simp only [UInt64.toNat_add, UInt64.toNat_mul, hv, UInt64.reduceToNat]
      omega
    have hfits : ¬result > (0xffffffffffffffff - digitValue c) / 10 := by
      have hsub : (0xffffffffffffffff - digitValue c : UInt64).toNat
          = 0xffffffffffffffff - (c.toNat - 48) := by
        have hle : digitValue c ≤ 0xffffffffffffffff := by
          simp only [UInt64.le_iff_toNat_le, hv, UInt64.reduceToNat]
          omega
        simp only [UInt64.toNat_sub_of_le _ _ hle, hv, UInt64.reduceToNat]
      simp only [gt_iff_lt, UInt64.lt_iff_toNat_lt, UInt64.toNat_div, hsub, UInt64.reduceToNat]
      omega
    rw [parseDigits, if_neg (isDigit_bounds hc), if_neg hfits]
    obtain ⟨n, hn, hn'⟩ := ih (fun x hx => hd x (mem_cons_of_mem _ hx)) _ (by rwa [hnext])
    exact ⟨n, hn, by rw [hn', hnext]⟩

lemma decimal_isDigit (h : c ∈ decimal n) : c.isDigit :=
  isDigit_of_mem_toDigits (by omega) (by omega) h

lemma decimal_ne_nil (n : UInt64) : decimal n ≠ [] := toDigits_ne_nil

lemma parseDigits_decimal (n : UInt64) : parseDigits 0 (decimal n) = some n := by
  have hval : ofDigitChars 10 (decimal n) (0 : UInt64).toNat = n.toNat :=
    ofDigitChars_ten_toDigits
  obtain ⟨m, hm, hm'⟩ := parseDigits_eq (fun c hc => decimal_isDigit hc) 0
    (by rw [hval]; exact n.toNat_lt)
  rw [hm, Option.some_inj, ← UInt64.toNat_inj, hm', hval]

lemma toDigits_head_ne_zero (n : ℕ) (c : Char) (text : Text) :
    Nat.toDigits 10 n ≠ '0' :: c :: text := by
  induction n using Nat.strongRecOn generalizing c text with
  | ind n ih =>
    intro h
    rcases lt_or_ge n 10 with hn | hn
    · rw [toDigits_of_lt_base hn] at h
      simp at h
    rw [toDigits_of_base_le (by omega) hn] at h
    rcases hd : toDigits 10 (n / 10) with _ | ⟨x, _ | ⟨y, rest⟩⟩
    · exact toDigits_ne_nil hd
    · -- the leading digit of a two-digit number is not zero
      rw [hd] at h
      simp only [singleton_append, cons.injEq] at h
      have hlt : n / 10 < 10 := by
        by_contra hge
        have hlen := congrArg List.length hd
        rw [toDigits_of_base_le (by omega) (by omega)] at hlen
        have : 0 < (toDigits 10 (n / 10 / 10)).length := length_toDigits_pos
        simp only [length_append, length_singleton] at hlen
        omega
      rw [toDigits_of_lt_base hlt, h.1] at hd
      have hpos : 0 < n / 10 := by omega
      interval_cases n / 10 <;> simp [digitChar] at hd
    · rw [hd] at h
      simp only [cons_append, cons.injEq] at h
      exact ih (n / 10) (by omega) y rest (by rw [hd, h.1])

theorem parseU64_decimal (nonzero : Bool) (h : nonzero = true → n ≠ 0) :
    parseU64 (decimal n) nonzero = some n := by
  have hp := parseDigits_decimal n
  rcases hd : decimal n with _ | ⟨x, _ | ⟨y, rest⟩⟩
  · exact absurd hd (decimal_ne_nil n)
  all_goals
    rw [hd] at hp
    unfold parseU64
    split
    · simp_all
    · have := toDigits_head_ne_zero n.toNat
      simp_all [decimal]
    rw [hp]
    simp only [Bool.and_eq_true, beq_iff_eq, ite_eq_right_iff, reduceCtorEq, imp_false, not_and]
    exact h

lemma parseDigits_spec {result : UInt64} (h : parseDigits result text = some n) :
    (∀ c ∈ text, c.isDigit) ∧ n.toNat = Nat.ofDigitChars 10 text result.toNat := by
  induction text generalizing result with
  | nil => exact ⟨by simp, by rw [← Option.some.inj h, ofDigitChars_nil]⟩
  | cons c text ih =>
    rw [parseDigits] at h
    split_ifs at h with hdigit hfits
    have hc : c.isDigit := by
      simp only [Bool.or_eq_true, decide_eq_true_eq, not_or, not_lt] at hdigit
      simp only [Char.isDigit, Bool.and_eq_true, decide_eq_true_eq]
      exact hdigit
    obtain ⟨hall, hn⟩ := ih h
    refine ⟨fun x hx => (List.mem_cons.mp hx).elim (· ▸ hc) (hall x), ?_⟩
    obtain ⟨hv, hlt⟩ := digitValue_toNat hc
    have hnext : (result * 10 + digitValue c).toNat = 10 * result.toNat + (c.toNat - 48) := by
      have hsub : (0xffffffffffffffff - digitValue c : UInt64).toNat
          = 0xffffffffffffffff - (c.toNat - 48) := by
        have hle : digitValue c ≤ 0xffffffffffffffff := by
          simp only [UInt64.le_iff_toNat_le, hv, UInt64.reduceToNat]
          omega
        simp only [UInt64.toNat_sub_of_le _ _ hle, hv, UInt64.reduceToNat]
      simp only [gt_iff_lt, UInt64.lt_iff_toNat_lt, UInt64.toNat_div, hsub, UInt64.reduceToNat]
        at hfits
      simp only [UInt64.toNat_add, UInt64.toNat_mul, hv, UInt64.reduceToNat]
      omega
    rw [hn, hnext, ofDigitChars_cons]
    rfl

lemma toDigits_of_isDigit (h : c.isDigit) : Nat.toDigits 10 (c.toNat - 48) = [c] := by
  have hle : 48 ≤ c.toNat ∧ c.toNat ≤ 57 := by
    simp only [Char.isDigit, Bool.and_eq_true, decide_eq_true_eq] at h
    exact h
  rw [toDigits_of_lt_base (by omega), ← Char.ofNat_toNat c]
  obtain ⟨hlo, hhi⟩ := hle
  interval_cases c.toNat <;> rfl

lemma toDigits_ofDigitChars (hd : ∀ c ∈ text, c.isDigit) (hnil : text ≠ [])
    (hzero : ∀ c rest, text ≠ '0' :: c :: rest) :
    Nat.toDigits 10 (Nat.ofDigitChars 10 text 0) = text := by
  induction text using reverseRecOn with
  | nil => exact absurd rfl hnil
  | append_singleton text c ih =>
    have hc := hd c (by simp)
    obtain ⟨-, hlt⟩ := digitValue_toNat hc
    have hdigit := toDigits_of_isDigit hc
    rw [ofDigitChars_append, ofDigitChars_cons, ofDigitChars_nil]
    rcases text with _ | ⟨x, rest⟩
    · simpa using hdigit
    have hx : x ≠ '0' := by
      rintro rfl
      rcases rest with _ | ⟨y, rest⟩
      · exact hzero c [] rfl
      · exact hzero y (rest ++ [c]) rfl
    have hih := ih (fun y hy => hd y (mem_append_left _ hy)) (by simp)
      fun y rest' h => hx (cons.inj h).1
    have hpos : 0 < ofDigitChars 10 (x :: rest) 0 := by
      rw [Nat.pos_iff_ne_zero]
      intro h0
      rw [h0, toDigits_zero] at hih
      exact hx (cons.inj hih).1.symm
    rw [show '0'.toNat = 48 from rfl, ← toDigits_append_toDigits (by omega) hpos hlt, hih,
      hdigit]

/-- **The numbers that are accepted are those that are printed.** -/
theorem parseU64_iff {nonzero : Bool} :
    parseU64 text nonzero = some n ↔ text = decimal n ∧ (nonzero = true → n ≠ 0) := by
  refine ⟨fun h => ?_, fun ⟨ht, hn⟩ => ht ▸ parseU64_decimal nonzero hn⟩
  unfold parseU64 at h
  split at h
  · cases h
  · cases h
  next hnil hzero =>
  split at h
  · cases h
  next result hp =>
  split_ifs at h with hno
  obtain rfl := Option.some.inj h
  obtain ⟨hd, hv⟩ := parseDigits_spec hp
  refine ⟨?_, by simpa using hno⟩
  rw [decimal, hv, UInt64.toNat_zero, toDigits_ofDigitChars hd hnil hzero]

lemma decimal_injective : Function.Injective decimal := by
  intro m n h
  have := parseDigits_decimal m
  rw [h, parseDigits_decimal] at this
  exact (Option.some.inj this).symm

lemma decimal_length_le (n : UInt64) : (decimal n).length ≤ 20 :=
  (length_toDigits_le_iff (by omega) (by omega)).mpr
    (lt_of_lt_of_le n.toNat_lt (by norm_num))

/-! ### Tokens and digests -/

def alphanumeric (c : Char) : Bool :=
  ('a' ≤ c && c ≤ 'z') || ('A' ≤ c && c ≤ 'Z') || ('0' ≤ c && c ≤ '9')

def punctuation (c : Char) : Bool := c == '.' || c == '_' || c == '-' || c == '+'

/-- `C1_UPDATE_TOKEN_MAX` -/
def tokenMax : ℕ := 64

/-- A token: letters, digits and inner punctuation, neither empty nor too long. -/
def safeToken (text : Text) : Bool :=
  text.length != 0 && text.length ≤ tokenMax &&
    text.all (fun c => alphanumeric c || punctuation c) &&
    text.head?.all alphanumeric && text.getLast?.all alphanumeric

/-- A SHA-256 digest in lower-case hexadecimal. -/
def validDigest (digest : Text) : Bool :=
  digest.length == 64 && digest.all fun c => ('0' ≤ c && c ≤ '9') || ('a' ≤ c && c ≤ 'f')

/-- Printable, and no blank of any kind. -/
def Plain (c : Char) : Prop := '!' ≤ c ∧ c ≤ '~'

lemma plain_of_safeToken (h : safeToken text) : ∀ c ∈ text, Plain c := by
  intro c hc
  simp only [safeToken, Bool.and_eq_true, all_eq_true] at h
  have := h.1.1.2 c hc
  simp only [alphanumeric, punctuation, Bool.or_eq_true, Bool.and_eq_true, decide_eq_true_eq,
    beq_iff_eq] at this
  unfold Plain
  rcases this with ((⟨h1, h2⟩ | ⟨h1, h2⟩) | ⟨h1, h2⟩) | (((rfl | rfl) | rfl) | rfl)
  · exact ⟨le_trans (by decide) h1, le_trans h2 (by decide)⟩
  · exact ⟨le_trans (by decide) h1, le_trans h2 (by decide)⟩
  · exact ⟨le_trans (by decide) h1, le_trans h2 (by decide)⟩
  all_goals decide

lemma plain_of_validDigest {digest : Text} (h : validDigest digest) : ∀ c ∈ digest, Plain c := by
  intro c hc
  simp only [validDigest, Bool.and_eq_true, all_eq_true] at h
  have := h.2 c hc
  simp only [Bool.or_eq_true, Bool.and_eq_true, decide_eq_true_eq] at this
  rcases this with ⟨h1, h2⟩ | ⟨h1, h2⟩
  all_goals exact ⟨le_trans (by decide) h1, le_trans h2 (by decide)⟩

lemma plain_of_isDigit (h : c.isDigit) : Plain c := by
  simp only [Char.isDigit, Bool.and_eq_true, decide_eq_true_eq] at h
  exact ⟨le_trans (by decide) (show '0' ≤ c from h.1), le_trans (show c ≤ '9' from h.2) (by decide)⟩

lemma plain_decimal (n : UInt64) : ∀ c ∈ decimal n, Plain c := fun _ h =>
  plain_of_isDigit (decimal_isDigit h)

lemma ne_nil_of_safeToken (h : safeToken text) : text ≠ [] := by
  rintro rfl
  simp [safeToken] at h

lemma length_of_safeToken (h : safeToken text) : text.length ≤ 64 := by
  simp only [safeToken, tokenMax, Bool.and_eq_true] at h
  exact of_decide_eq_true h.1.1.1.2

lemma length_of_validDigest {digest : Text} (h : validDigest digest) : digest.length = 64 := by
  simp only [validDigest, Bool.and_eq_true, beq_iff_eq] at h
  exact h.1

end C1auncher.CString
