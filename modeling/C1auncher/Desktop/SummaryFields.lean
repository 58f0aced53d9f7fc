import C1auncher.Desktop.Summary
import C1auncher.Package.HttpDate

/-!
The fields of the summary: dates that exist, quotes that fit the banner, and arrays of characters.
-/

namespace C1auncher.Desktop.SummaryFields

open CString Utf8Bytes
open Ui.LockText Package.Label Package.Calendar
open Desktop.Summary

/-! ### Dates -/

def digitByte (n : ℕ) : UInt8 := UInt8.ofNat (48 + n % 10)

def dateBytes (year month day : ℕ) : Bytes :=
  [digitByte (year / 1000), digitByte (year / 100), digitByte (year / 10), digitByte year, 45,
    digitByte (month / 10), digitByte month, 45, digitByte (day / 10), digitByte day]

/-- A day of the calendar. -/
structure IsDate (date : Bytes) : Prop where
  exists_day : ∃ year month day, 1 ≤ year ∧ year ≤ 9999 ∧ month < 12 ∧ 1 ≤ day ∧
    day ≤ monthLength year month ∧ date = dateBytes year (month + 1) day

lemma isDigit_iff {b : UInt8} : Summary.isDigit b ↔ digit b < 10 ∧ b = digitByte (digit b) := by
  have hlt := b.toNat_lt
  simp only [Summary.isDigit, Bool.and_eq_true, decide_eq_true_eq, UInt8.le_iff_toNat_le,
    UInt8.reduceToNat, digitByte, ← UInt8.toNat_inj, digit]
  rw [toNat_byte (by omega)]
  omega

lemma digit_digitByte (n : ℕ) : digit (digitByte n) = n % 10 := by
  rw [digit, digitByte, toNat_byte (by omega)]
  omega

lemma isDigit_digitByte (n : ℕ) : Summary.isDigit (digitByte n) := by
  rw [isDigit_iff, digit_digitByte]
  exact ⟨by omega, by rw [digitByte, digitByte, Nat.mod_mod]⟩

lemma calendarDay_iff {year month day : ℕ} : calendarDay year (month + 1) day ↔
    1 ≤ year ∧ month < 12 ∧ 1 ≤ day ∧ day ≤ monthLength year month := by
  have hlength : days.getD month 0 + (if month + 1 = 2 ∧ year % 4 = 0 ∧
      (year % 100 ≠ 0 ∨ year % 400 = 0) then 1 else 0) = monthLength year month := by
    unfold monthLength leapYear days
    by_cases hm : month = 1
    · subst hm
      by_cases hl : year % 4 = 0 ∧ (year % 100 ≠ 0 ∨ year % 400 = 0)
      · rw [if_pos ⟨rfl, hl⟩, if_pos ⟨rfl, hl⟩]
        rfl
      · rw [if_neg (fun h => hl h.2), if_neg (fun h => hl h.2)]
        rfl
    · rw [if_neg (fun h => hm (by omega)), if_neg (fun h => hm h.1), Nat.add_zero]
  simp only [calendarDay, Bool.and_eq_true, decide_eq_true_eq, Nat.add_sub_cancel, hlength]
  omega

variable {n : ℕ} {c : Char} {text : Bytes}

lemma digitByte_eq {b : UInt8} (h : digit b < 10 ∧ b = digitByte (digit b))
    (hn : n % 10 = digit b) : b = digitByte n := by
  have hmod : digit b % 10 = digit b := Nat.mod_eq_of_lt h.1
  rw [h.2, digitByte, digitByte, hn, hmod]

/-- **The dates that are valid are the days of the calendar.** -/
theorem validDate_iff {date : Bytes} : validDate date ↔ IsDate date := by
  constructor
  · intro h
    unfold validDate at h
    split at h
    · next y3 y2 y1 y0 d m1 m0 d' d1 d0 =>
      simp only [Bool.and_eq_true, beq_iff_eq, List.all_cons, List.all_nil, isDigit_iff]
        at h
      obtain ⟨⟨⟨rfl, rfl⟩, hy3, hy2, hy1, hy0, hm1, hm0, hd1, hd0, -⟩, hday⟩ := h
      obtain ⟨month, hmonth⟩ : ∃ month, digit m1 * 10 + digit m0 = month + 1 := by
        refine ⟨digit m1 * 10 + digit m0 - 1, ?_⟩
        simp only [calendarDay, Bool.and_eq_true, decide_eq_true_eq] at hday
        omega
      rw [hmonth] at hday
      obtain ⟨hyear, hmonth', hpos, hle⟩ := calendarDay_iff.mp hday
      refine ⟨_, month, _, hyear, by omega, hmonth', hpos, hle, ?_⟩
      rw [dateBytes, ← hmonth, ← digitByte_eq hy3, ← digitByte_eq hy2, ← digitByte_eq hy1,
        ← digitByte_eq hy0, ← digitByte_eq hm1, ← digitByte_eq hm0, ← digitByte_eq hd1,
        ← digitByte_eq hd0] <;> omega
    · cases h
  · rintro ⟨year, month, day, hyear, hyear', hmonth, hday, hday', rfl⟩
    have hlength : monthLength year month ≤ 31 := by
      unfold monthLength
      split
      · decide
      · interval_cases month <;> decide
    have hvalid := calendarDay_iff.mpr ⟨hyear, hmonth, hday, hday'⟩
    have hy : year / 1000 % 10 * 1000 + year / 100 % 10 * 100 + year / 10 % 10 * 10 + year % 10 =
        year := by omega
    have hm : (month + 1) / 10 % 10 * 10 + (month + 1) % 10 = month + 1 := by omega
    have hd : day / 10 % 10 * 10 + day % 10 = day := by omega
    simp only [validDate, dateBytes, List.all_cons, List.all_nil, isDigit_digitByte,
      digit_digitByte, hy, hm, hd, hvalid, beq_self_eq_true, Bool.and_self]

/-! ### Quotes -/

def Shown (c : Char) : Prop := c = ' ' ∨ (Allowed c ∧ ¬ Blank c)

structure Quote (widths : ℕ → UInt8) (text : Text) : Prop where
  ne_nil : text ≠ []
  size : (encode text).length < lockTextBytes
  shown : ∀ c ∈ text, Shown c
  first : text.head? ≠ some ' '
  last : text.getLast? ≠ some ' '
  width : advance widths text ≤ bannerWidth

lemma printable_of_allowed (h : Allowed c) : Printable c := by
  simp only [Allowed, forbidden, ranges, List.any_cons, List.any_nil, Bool.or_eq_false_iff,
    Bool.and_eq_false_iff, decide_eq_false_iff_not, and_true] at h
  unfold Printable
  omega

lemma Shown.allowed (h : Shown c) : Allowed c := by
  rcases h with rfl | h
  · decide
  · exact h.1

lemma utf8_space (h : (32 : UInt8) ∈ String.utf8EncodeChar c) : c = ' ' := by
  have hmem : Char.ofNat (32 : UInt8).toNat ∈ [c] :=
    mem_of_ascii (by simpa [encode] using h) (by decide)
  simpa using (List.mem_singleton.mp hmem).symm

lemma head?_encode {text : Text} : (encode text).head? = some 32 ↔ text.head? = some ' ' := by
  rcases text with _ | ⟨c, text⟩
  · simp
  obtain ⟨b, bytes, hc, -⟩ := utf8EncodeChar_head c
  rw [encode_cons, hc, List.cons_append, List.head?_cons, List.head?_cons, Option.some_inj,
    Option.some_inj]
  constructor
  · rintro rfl
    exact utf8_space (by rw [hc]; simp)
  · rintro rfl
    exact (List.cons.inj hc).1.symm

lemma getLast?_encode {text : Text} :
    (encode text).getLast? = some 32 ↔ text.getLast? = some ' ' := by
  induction text using List.reverseRecOn with
  | nil => simp
  | append_singleton text c =>
    obtain ⟨b, bytes, hc, -⟩ := utf8EncodeChar_head c
    have hne : String.utf8EncodeChar c ≠ [] := by simp [hc]
    have hlast : (encode (text ++ [c])).getLast? = (String.utf8EncodeChar c).getLast? := by
      rw [encode_append, show encode [c] = String.utf8EncodeChar c by simp [encode],
        List.getLast?_append_of_ne_nil _ hne]
    rw [hlast, List.getLast?_concat, Option.some_inj]
    constructor
    · intro h
      exact utf8_space (List.mem_of_getLast? h)
    · rintro rfl
      rfl

lemma scalarLength_utf8 (c : Char) : ∃ b bytes, String.utf8EncodeChar c = b :: bytes ∧
    scalarLength b = bytes.length + 1 := by
  have hbound : ∀ n < 256, ∀ m < 256, (UInt8.ofNat n < UInt8.ofNat m ↔ n < m) := by
    intro n hn m hm
    rw [UInt8.lt_iff_toNat_lt, toNat_byte hn, toNat_byte hm]
  unfold scalarLength
  simp only [show (0x80 : UInt8) = UInt8.ofNat 128 from rfl,
    show (0xe0 : UInt8) = UInt8.ofNat 224 from rfl, show (0xf0 : UInt8) = UInt8.ofNat 240 from rfl]
  rcases utf8EncodeChar_cases c with ⟨h, hc⟩ | ⟨h, h', hc⟩ | ⟨h, h', hc⟩ | ⟨h, h', hc⟩
  · exact ⟨_, _, hc, by rw [if_pos ((hbound _ (by omega) _ (by omega)).mpr (by omega))]; rfl⟩
  · refine ⟨_, _, hc, ?_⟩
    rw [if_neg (by rw [hbound _ (by omega) _ (by omega)]; omega),
      if_pos ((hbound _ (by omega) _ (by omega)).mpr (by omega))]
    rfl
  · refine ⟨_, _, hc, ?_⟩
    rw [if_neg (by rw [hbound _ (by omega) _ (by omega)]; omega),
      if_neg (by rw [hbound _ (by omega) _ (by omega)]; omega),
      if_pos ((hbound _ (by omega) _ (by omega)).mpr (by omega))]
    rfl
  · refine ⟨_, _, hc, ?_⟩
    rw [if_neg (by rw [hbound _ (by omega) _ (by omega)]; omega),
      if_neg (by rw [hbound _ (by omega) _ (by omega)]; omega),
      if_neg (by rw [hbound _ (by omega) _ (by omega)]; omega)]
    rfl

lemma validLabel_utf8 (c : Char) :
    validLabel (String.utf8EncodeChar c) ↔ Allowed c ∧ ¬ Blank c := by
  rw [show String.utf8EncodeChar c = encode [c] by simp [encode], validLabel_encode]
  constructor
  · intro h
    obtain ⟨d, hd, hblank⟩ := h.first
    obtain rfl : c = d := by simpa using hd
    exact ⟨h.allowed c (by simp), hblank⟩
  rintro ⟨hallowed, hblank⟩
  obtain ⟨b, bytes, hc, -, -, hlen⟩ := utf8EncodeChar_head c
  refine ⟨?_, by simpa using hallowed, ⟨c, rfl, hblank⟩, by simpa using hblank⟩
  simp only [encode, List.flatMap_singleton, hc, List.length_cons, labelMaxBytes]
  omega

lemma scalarsFrom_encode : ∀ {text : Text} {fuel : ℕ}, (encode text).length ≤ fuel →
    (scalarsFrom fuel (encode text) ↔ ∀ c ∈ text, Shown c)
  | [], fuel, _ => by cases fuel <;> simp [scalarsFrom]
  | c :: text, fuel, hlen => by
    obtain ⟨b, bytes, hc, hscalar⟩ := scalarLength_utf8 c
    rw [encode_cons, hc, List.cons_append] at hlen ⊢
    obtain ⟨fuel, rfl⟩ : ∃ n, fuel = n + 1 := ⟨fuel - 1, by simp at hlen; omega⟩
    have hrest : (encode text).length ≤ fuel := by
      simp only [List.length_cons, List.length_append] at hlen
      omega
    have htake : (b :: (bytes ++ encode text)).take (scalarLength b) = String.utf8EncodeChar c := by
      rw [hscalar, hc, List.take_succ_cons, List.take_left]
    have hdrop : (b :: (bytes ++ encode text)).drop (scalarLength b) = encode text := by
      rw [hscalar, List.drop_succ_cons, List.drop_left]
    have hspace : b = 32 ↔ c = ' ' := by
      constructor
      · rintro rfl
        exact utf8_space (by rw [hc]; simp)
      · rintro rfl
        exact (List.cons.inj hc).1.symm
    have hshown : Shown c ↔ ¬(b ≠ 32 ∧ (!validLabel (String.utf8EncodeChar c)) = true) := by
      rw [Shown, ← hspace, ← validLabel_utf8]
      by_cases hb : b = 32 <;> simp [hb]
    rw [scalarsFrom]
    simp only [htake, hdrop]
    rw [List.forall_mem_cons, hshown, ← scalarsFrom_encode hrest]
    split_ifs with hbad
    · simp [hbad]
    · exact ⟨fun h => ⟨hbad, h⟩, fun h => h.2⟩

lemma validText_iff_encode {memory : Bytes} :
    validText memory ↔ ∃ text, Fits text ∧ cString memory = encode text := by
  rw [validText_iff]
  constructor
  · rintro ⟨text, hfits, htext⟩
    refine ⟨text, hfits, ?_⟩
    rw [cString_take_eq] at htext
    have hlen := congrArg List.length htext
    have hsize := hfits.size
    rw [List.length_take] at hlen
    rwa [List.take_of_length_le (by omega)] at htext
  · rintro ⟨text, hfits, htext⟩
    refine ⟨text, hfits, ?_⟩
    rw [cString_take_eq, htext, List.take_of_length_le (le_of_lt hfits.size)]

variable {widths : ℕ → UInt8}

lemma textWidth_quote {text : Text} (hsize : (encode text).length < lockTextBytes)
    (hshown : ∀ c ∈ text, Shown c) : textWidth widths (encode text) = advance widths text := by
  refine textWidth_encode widths (fun c hc => (hshown c hc).allowed) ?_
  have hle := advance_le widths text
  simp only [lockTextBytes] at hsize
  simp only [intMax]
  omega

/-- **The quotes that are valid.** -/
theorem quoteValid_iff {memory : Bytes} :
    quoteValid widths memory ↔ ∃ text, Quote widths text ∧ cString memory = encode text := by
  unfold quoteValid
  simp only
  constructor
  · intro h
    split_ifs at h with hbad
    simp only [Bool.or_eq_true, Bool.not_eq_true', decide_eq_true_eq, beq_iff_eq, not_or,
      Bool.not_eq_false, not_lt] at hbad
    obtain ⟨⟨⟨hvalid, hwidth⟩, hfirst⟩, hlast⟩ := hbad
    obtain ⟨text, hfits, htext⟩ := validText_iff_encode.mp hvalid
    rw [htext] at h hwidth hfirst hlast
    have hshown := (scalarsFrom_encode le_rfl).mp h
    rw [textWidth_quote hfits.size hshown] at hwidth
    exact ⟨text, ⟨hfits.ne_nil, hfits.size, hshown, mt head?_encode.mpr hfirst,
      mt getLast?_encode.mpr hlast, hwidth⟩, htext⟩
  · rintro ⟨text, hquote, htext⟩
    have hfits : Fits text :=
      ⟨hquote.ne_nil, fun c hc => printable_of_allowed (hquote.shown c hc).allowed, hquote.size⟩
    have hvalid := validText_iff_encode.mpr ⟨text, hfits, htext⟩
    rw [htext, if_neg]
    · exact (scalarsFrom_encode le_rfl).mpr hquote.shown
    simp only [Bool.or_eq_true, Bool.not_eq_true', decide_eq_true_eq, beq_iff_eq, not_or,
      Bool.not_eq_false, not_lt, textWidth_quote hquote.size hquote.shown]
    exact ⟨⟨⟨hvalid, hquote.width⟩, mt head?_encode.mp hquote.first⟩,
      mt getLast?_encode.mp hquote.last⟩

/-! ### Arrays -/

lemma cString_terminated (h : 0 ∉ text) (rest : Bytes) :
    cString (text ++ 0 :: rest) = text := by
  have hall : ∀ b ∈ text, decide (b ≠ 0) = true := by
    intro b hb
    simp only [ne_eq, decide_not, Bool.not_eq_true', decide_eq_false_iff_not]
    rintro rfl
    exact h hb
  rw [cString, List.takeWhile_append_of_pos hall]
  simp

lemma strcpy_bytes (a : CharArray n) (h : text.length < n) :
    (a.strcpy text).bytes = text ++ 0 :: a.bytes.drop (text.length + 1) := by
  refine List.take_of_length_le ?_
  simp only [List.length_append, List.length_cons, List.length_drop, a.length_eq]
  omega

lemma text_strcpy (a : CharArray n) (h : text.length < n) (h0 : 0 ∉ text) :
    (a.strcpy text).text = text := by
  rw [CharArray.text, strcpy_bytes a h, cString_terminated h0]

lemma terminated_strcpy (a : CharArray n) (h : text.length < n) :
    (a.strcpy text).terminated := by
  simp [CharArray.terminated, strcpy_bytes a h]

end C1auncher.Desktop.SummaryFields
