import C1auncher.Package.HttpDate

/-!
Dates as a server writes them, and what `http_date` and `retry_after_seconds` read.
-/

namespace C1auncher.Package.WrittenDates

open CString Package.HttpDate Package.Calendar List Option

/-! ### Numbers of a fixed width -/

/-- The last `width` decimal digits. -/
def padded : ℕ → ℕ → Text
  | 0, _ => []
  | width + 1, n => padded width (n / 10) ++ [Nat.digitChar (n % 10)]

lemma digitChar_spec {d : ℕ} (h : d < 10) :
    (Nat.digitChar d).isDigit = true ∧ isSpace (Nat.digitChar d) = false ∧
      (Nat.digitChar d).toNat - '0'.toNat = d ∧ Nat.digitChar d ≠ '-' ∧ Nat.digitChar d ≠ '+' := by
  interval_cases d <;> decide

@[simp] lemma padded_length (width n : ℕ) : (padded width n).length = width := by
  induction width generalizing n with
  | zero => rfl
  | succ width ih => simp [padded, ih]

variable {width n : ℕ} {rest : Text}

lemma padded_digit {c : Char} (h : c ∈ padded width n) :
    ∃ d < 10, c = Nat.digitChar d := by
  induction width generalizing n with
  | zero => simp [padded] at h
  | succ width ih =>
    rw [padded, mem_append, mem_singleton] at h
    rcases h with h | rfl
    · exact ih h
    · exact ⟨n % 10, Nat.mod_lt _ (by omega), rfl⟩

lemma ofDigitChars_padded (h : n < 10 ^ width) :
    Nat.ofDigitChars 10 (padded width n) 0 = n := by
  induction width generalizing n with
  | zero =>
    simp only [pow_zero] at h
    simp [padded]
    omega
  | succ width ih =>
    have hlt : n / 10 < 10 ^ width := by
      rw [pow_succ] at h
      omega
    have hd : n % 10 < 10 := Nat.mod_lt _ (by omega)
    rw [padded, Nat.ofDigitChars_append, ih hlt, Nat.ofDigitChars_cons, (digitChar_spec hd).2.2.1]
    simp
    omega

/-! ### What the conversions read -/

lemma takeWhile_append_eq {p : Char → Bool} {word : Text}
    (hlen : word.length = width) (hall : ∀ c ∈ word, p c) :
    ((word ++ rest).take width).takeWhile p = word := by
  rw [← hlen, take_left]
  exact List.takeWhile_eq_self_iff.mpr hall

lemma letters_append {word : Text} (hlen : word.length = width) (hpos : word ≠ [])
    (hall : ∀ c ∈ word, isLetter c) : letters width (word ++ rest) = some (word, rest) := by
  rw [letters, takeWhile_append_eq hlen hall]
  simp [hpos]

lemma digitsOf_padded (hpos : 0 < width) (h : n < 10 ^ width) (rest : Text) :
    digitsOf width (padded width n ++ rest) = some (n, rest) := by
  have hall : ∀ c ∈ padded width n, c.isDigit := fun c hc => by
    obtain ⟨d, hd, rfl⟩ := padded_digit hc
    exact (digitChar_spec hd).1
  have hne : padded width n ≠ [] := ne_nil_of_length_pos (by simpa using hpos)
  rw [digitsOf, takeWhile_append_eq (padded_length _ _) hall]
  simp [hne, ofDigitChars_padded h]

lemma padded_cons (hpos : 0 < width) :
    ∃ d < 10, ∃ word, padded width n = Nat.digitChar d :: word := by
  obtain ⟨c, word, h⟩ := exists_cons_of_length_pos (by simpa using hpos :
    0 < (padded width n).length)
  obtain ⟨d, hd, rfl⟩ := padded_digit (h ▸ mem_cons_self : c ∈ padded width n)
  exact ⟨d, hd, word, h⟩

@[simp] lemma skipBlanks_blank (text : Text) : skipBlanks (' ' :: text) = skipBlanks text := rfl

lemma skipBlanks_padded (hpos : 0 < width) (n : ℕ) (rest : Text) :
    skipBlanks (padded width n ++ rest) = padded width n ++ rest := by
  obtain ⟨d, hd, word, hword⟩ := padded_cons (n := n) hpos
  simp [hword, skipBlanks, (digitChar_spec hd).2.1]

lemma number_padded (hpos : 0 < width) (h : n < 10 ^ width) {text : Text}
    (htext : skipBlanks text = padded width n ++ rest) :
    number width text = some ((n : ℤ), rest) := by
  obtain ⟨d, hd, word, hword⟩ := padded_cons (n := n) hpos
  have hread := digitsOf_padded hpos h rest
  rw [number, htext]
  rw [hword, cons_append] at hread ⊢
  split
  · rename_i heq
    exact absurd (cons.inj heq).1 (digitChar_spec hd).2.2.2.1
  · rename_i heq
    exact absurd (cons.inj heq).1 (digitChar_spec hd).2.2.2.2
  · rw [hread]
    rfl

lemma number_digit {d : ℕ} (h : d < 10) {text : Text}
    (htext : skipBlanks text = Nat.digitChar d :: ' ' :: rest) :
    number 2 text = some ((d : ℤ), ' ' :: rest) := by
  rw [number, htext]
  interval_cases d <;> rfl

/-! ### The two forms -/

structure Word where
  letters : Text
  length : letters.length = 3
  all : ∀ c ∈ letters, isLetter c

/-- The words and the digits of a date, whether there is such a day or not. -/
structure Date where
  weekday : Word
  month : Word
  day : ℕ
  year : ℕ
  hour : ℕ
  minute : ℕ
  second : ℕ
  day_lt : day < 100
  year_lt : year < 10000
  hour_lt : hour < 100
  minute_lt : minute < 100
  second_lt : second < 100

namespace Word

variable (w : Word)

lemma ne_nil : w.letters ≠ [] := ne_nil_of_length_pos (by simp [w.length])

lemma letters_eq (rest : Text) :
    HttpDate.letters 3 (w.letters ++ rest) = some (w.letters, rest) :=
  letters_append w.length w.ne_nil w.all

lemma skipBlanks_eq (rest : Text) : skipBlanks (w.letters ++ rest) = w.letters ++ rest := by
  obtain ⟨c, word, h⟩ := exists_cons_of_ne_nil w.ne_nil
  have hc : isLetter c := w.all c (h ▸ mem_cons_self)
  have hblank : isSpace c = false := by
    by_contra hspace
    simp only [isSpace, Bool.or_eq_true, beq_iff_eq, Bool.not_eq_false] at hspace
    rcases hspace with ((((rfl | rfl) | rfl) | rfl) | rfl) | rfl <;> revert hc <;> decide
  simp [h, skipBlanks, hblank]

lemma letters_blank (rest : Text) :
    HttpDate.letters 9 (w.letters ++ ' ' :: rest) = some (w.letters, ' ' :: rest) := by
  obtain ⟨a, b, c, h⟩ := List.length_eq_three.mp w.length
  have hall := w.all
  simp only [h, mem_cons, not_mem_nil, or_false, forall_eq_or_imp, forall_eq] at hall
  simp [h, HttpDate.letters, hall.1, hall.2.1, hall.2.2, show isLetter ' ' = false from rfl]

end Word

namespace Date

variable (d : Date)

/-- `08:49:37` -/
def time (rest : Text) : Text :=
  padded 2 d.hour ++ ':' :: (padded 2 d.minute ++ ':' :: (padded 2 d.second ++ rest))

/-- `Sun, 06 Nov 1994 08:49:37 GMT` -/
def imfFixdate : Text :=
  d.weekday.letters ++ ',' :: ' ' :: (padded 2 d.day ++ ' ' :: (d.month.letters ++
    ' ' :: (padded 4 d.year ++ ' ' :: d.time (' ' :: gmt))))

/-- A day of the month on two columns: a blank may stand for the first digit. -/
inductive Columns (day : ℕ) : Text → Prop
  | digits : Columns day (padded 2 day)
  | blank (h : day < 10) : Columns day [' ', Nat.digitChar day]

/-- `Sun Nov  6 08:49:37 1994` -/
def asctime (columns : Text) : Text :=
  d.weekday.letters ++ ' ' :: (d.month.letters ++ ' ' :: (columns ++ ' ' ::
    d.time (' ' :: padded 4 d.year)))

inductive Writes : Text → Prop
  | imfFixdate : Writes d.imfFixdate
  | asctime {columns : Text} (h : Columns d.day columns) : Writes (d.asctime columns)

def toFields : Fields where
  day := d.day
  month := d.month.letters
  year := d.year
  hour := d.hour
  minute := d.minute
  second := d.second

variable {d}

lemma clock_time {text : Text} (rest : Text) (h : skipBlanks text = d.time rest) :
    clock text = some (((d.hour : ℤ), (d.minute : ℤ), (d.second : ℤ)), rest) := by
  rw [clock, number_padded (by decide) d.hour_lt h]
  simp only [bind_eq_bind, bind_some, literal, if_true]
  rw [number_padded (by decide) d.minute_lt (skipBlanks_padded (by decide) _ _)]
  simp only [bind_some, if_true]
  rw [number_padded (by decide) d.second_lt (skipBlanks_padded (by decide) _ _)]
  rfl

lemma skipBlanks_time (rest : Text) : skipBlanks (d.time rest) = d.time rest :=
  skipBlanks_padded (by decide) _ _

lemma scan_imfFixdate (currentYear : Option ℤ) :
    scan currentYear d.imfFixdate = some d.toFields := by
  have hscan : scanFixdate d.imfFixdate = some (d.toFields, gmt) := by
    rw [scanFixdate, imfFixdate, Word.letters_eq]
    simp only [bind_eq_bind, bind_some, literal, if_true, skipBlanks_blank,
      skipBlanks_padded (show 0 < 2 by decide)]
    rw [number_padded (by decide) d.day_lt (skipBlanks_padded (by decide) _ _)]
    simp only [bind_some, skipBlanks_blank, Word.skipBlanks_eq, Word.letters_eq]
    rw [skipBlanks_padded (by decide),
      number_padded (by decide) d.year_lt (skipBlanks_padded (by decide) _ _)]
    simp only [bind_some, skipBlanks_blank, skipBlanks_time]
    rw [clock_time _ (skipBlanks_time _)]
    rfl
  rw [scan, hscan]
  exact if_pos rfl

lemma number_columns {columns : Text} (h : Columns d.day columns) {rest : Text} :
    number 2 (skipBlanks (columns ++ ' ' :: rest)) = some ((d.day : ℤ), ' ' :: rest) := by
  cases h with
  | digits =>
    rw [skipBlanks_padded (by decide)]
    exact number_padded (by decide) d.day_lt (skipBlanks_padded (by decide) _ _)
  | blank hlt =>
    have hdigit : skipBlanks (Nat.digitChar d.day :: ' ' :: rest) =
        Nat.digitChar d.day :: ' ' :: rest := by
      simp [skipBlanks, (digitChar_spec hlt).2.1]
    exact number_digit hlt (by simp [hdigit])

lemma scanFixdate_asctime (columns : Text) : scanFixdate (d.asctime columns) = none := by
  rw [scanFixdate, asctime, Word.letters_eq]
  rfl

lemma scanRfc850_asctime (columns : Text) : scanRfc850 (d.asctime columns) = none := by
  rw [scanRfc850, asctime, Word.letters_blank]
  rfl

lemma scan_asctime (currentYear : Option ℤ) {columns : Text} (h : Columns d.day columns) :
    scan currentYear (d.asctime columns) = some d.toFields := by
  have hscan : scanAsctime (d.asctime columns) = some d.toFields := by
    rw [scanAsctime, asctime, Word.letters_eq]
    simp only [bind_eq_bind, bind_some, skipBlanks_blank, Word.skipBlanks_eq, Word.letters_eq]
    rw [number_columns h]
    simp only [bind_some, skipBlanks_blank, skipBlanks_time]
    rw [clock_time _ (skipBlanks_time _)]
    have hyear : skipBlanks (' ' :: padded 4 d.year) = padded 4 d.year ++ [] := by
      rw [skipBlanks_blank, append_nil]
      simpa using skipBlanks_padded (show 0 < 4 by decide) d.year []
    have hread : number 4 (skipBlanks (' ' :: padded 4 d.year)) = some ((d.year : ℤ), []) := by
      rw [hyear]
      exact number_padded (by decide) d.year_lt (skipBlanks_padded (by decide) _ _)
    simp only [bind_some, hread]
    rfl
  rw [scan, scanFixdate_asctime, scanRfc850_asctime]
  exact hscan

lemma scan_eq (currentYear : Option ℤ) {text : Text} (h : d.Writes text) :
    scan currentYear text = some d.toFields := by
  cases h with
  | imfFixdate => exact scan_imfFixdate currentYear
  | asctime hcolumns => exact scan_asctime currentYear hcolumns

end Date

lemma months_word : ∀ word ∈ months, word.length = 3 ∧ word.all isLetter := by decide

lemma months_getD {month : ℕ} (h : month < 12) : months.getD month [] ∈ months := by
  rw [getD_eq_getElem _ _ h]
  exact getElem_mem h

/-- The name of a month that is counted from zero. -/
def monthWord {month : ℕ} (h : month < 12) : Word where
  letters := months.getD month []
  length := (months_word _ (months_getD h)).1
  all := List.all_eq_true.mp (months_word _ (months_getD h)).2

lemma monthLength_le (year : ℕ) {month : ℕ} (h : month < 12) : monthLength year month ≤ 31 := by
  unfold monthLength
  split_ifs
  · decide
  · interval_cases month <;> decide

def ofInstant (i : Instant) (weekday : Word) (hyear : i.year < 10000) : Date where
  weekday := weekday
  month := monthWord i.month_lt
  day := i.day
  year := i.year
  hour := i.hour
  minute := i.minute
  second := i.second
  day_lt := by
    have hlength := monthLength_le i.year i.month_lt
    exact i.day_le.trans_lt (by omega)
  year_lt := hyear
  hour_lt := i.hour_lt.trans (by decide)
  minute_lt := i.minute_lt.trans (by decide)
  second_lt := i.second_lt.trans (by decide)

/-! ### The waiting time -/

variable {text rest : Text} {width : ℕ} {currentYear : Option ℤ}

lemma ofDigitChars_lt (hdigits : ∀ c ∈ text, c.isDigit) (n : ℕ) :
    Nat.ofDigitChars 10 text n < (n + 1) * 10 ^ text.length := by
  induction text generalizing n with
  | nil => simp
  | cons c text ih =>
    have hc := (digitValue_toNat (hdigits c mem_cons_self)).2
    rw [Nat.ofDigitChars_cons, length_cons]
    calc Nat.ofDigitChars 10 text (10 * n + (c.toNat - '0'.toNat))
        < (10 * n + (c.toNat - '0'.toNat) + 1) * 10 ^ text.length :=
          ih (fun x hx => hdigits x (mem_cons_of_mem _ hx)) _
      _ ≤ ((n + 1) * 10) * 10 ^ text.length := by
          apply Nat.mul_le_mul_right
          rw [show '0'.toNat = 48 from rfl]
          omega
      _ = (n + 1) * 10 ^ (text.length + 1) := by ring

lemma digitsOf_lt {n : ℕ} (h : digitsOf width text = some (n, rest)) :
    n < 10 ^ width := by
  rw [digitsOf] at h
  obtain ⟨-, h⟩ := Option.ite_none_left_eq_some.mp h
  obtain ⟨rfl, -⟩ := Prod.mk.inj (Option.some_inj.mp h)
  set digits := (text.take width).takeWhile Char.isDigit with hdigits
  have hall : ∀ c ∈ digits, c.isDigit := fun c hc => mem_takeWhile_imp hc
  have hlen : digits.length ≤ width :=
    ( takeWhile_prefix _).length_le.trans (length_take_le _ _)
  calc Nat.ofDigitChars 10 digits 0
      < (0 + 1) * 10 ^ digits.length := ofDigitChars_lt hall 0
    _ ≤ 10 ^ width := by simpa using Nat.pow_le_pow_right (by omega) hlen

lemma number_lt {n : ℤ} (h : number width text = some (n, rest)) :
    n < 10 ^ width := by
  have hpos : (0 : ℤ) < 10 ^ width := by positivity
  have hle : (10 : ℤ) ^ (width - 1) ≤ 10 ^ width :=
    pow_le_pow_right₀ (by omega) (Nat.sub_le _ _)
  rw [number] at h
  split at h <;> obtain ⟨⟨m, rest'⟩, hm, h⟩ := Option.map_eq_some_iff.mp h <;>
    obtain ⟨rfl, -⟩ := Prod.mk.inj h <;> have hlt := digitsOf_lt hm <;> zify at hlt <;> omega

lemma letters_cons {word : Text}
    (h : letters width text = some (word, rest)) : ∃ c t, text = c :: t ∧ isLetter c := by
  rw [letters] at h
  obtain ⟨hne, -⟩ := Option.ite_none_left_eq_some.mp h
  rcases text with _ | ⟨c, text⟩
  · simp at hne
  refine ⟨c, text, rfl, ?_⟩
  rcases width with _ | width
  · simp at hne
  · by_contra hc
    simp [hc] at hne

lemma scan_year_lt (hcurrent : ∀ c ∈ currentYear, c < 2 ^ 31) {f : Fields} (h : scan currentYear text = some f) : f.year < 2 ^ 32 := by
  rw [scan] at h
  split at h
  · rename_i fields zone hfix
    obtain ⟨-, h⟩ := Option.ite_none_right_eq_some.mp h
    obtain rfl := Option.some_inj.mp h
    simp only [scanFixdate, bind_eq_bind, bind_eq_some_iff, Option.pure_def,
      Prod.exists, some_inj, Prod.mk.injEq] at hfix
    obtain ⟨_, _, -, _, -, _, _, -, _, _, -, year, _, hyear, _, _, _, _, -, _, _, -, _, -, rfl,
      -⟩ :=
      hfix
    have := number_lt hyear
    show year < 2 ^ 32
    omega
  · split at h
    · rename_i fields zone hfields
      split at h
      · cases h
      rename_i current
      obtain ⟨-, h⟩ := Option.ite_none_left_eq_some.mp h
      obtain rfl := Option.some_inj.mp h
      simp only [scanRfc850, bind_eq_bind, bind_eq_some_iff, Option.pure_def,
        Prod.exists, some_inj, Prod.mk.injEq] at hfields
      obtain ⟨_, _, -, _, -, _, _, -, _, -, _, _, -, _, -, year, _, hyear, _, _, _, _, -, _, _, -,
        _, -, rfl, -⟩ := hfields
      have := number_lt hyear
      have := hcurrent current rfl
      have hcentury : current.tdiv 100 * 100 < 2 ^ 31 + 100 := by
        rcases le_total 0 current with hpos | hneg
        · rw [Int.tdiv_eq_ediv_of_nonneg hpos]
          omega
        have hopposite := Int.neg_tdiv (a := current) (b := 100)
        rw [Int.tdiv_eq_ediv_of_nonneg (by omega)] at hopposite
        omega
      show (if year + current.tdiv 100 * 100 > current + 50
        then year + current.tdiv 100 * 100 - 100 else year + current.tdiv 100 * 100) < 2 ^ 32
      split_ifs <;> omega
    · simp only [scanAsctime, bind_eq_bind, bind_eq_some_iff, Option.pure_def,
        Prod.exists, some_inj] at h
      obtain ⟨_, _, -, _, _, -, _, _, -, _, _, _, _, -, year, _, hyear, _, -, rfl⟩ := h
      have := number_lt hyear
      show year < 2 ^ 32
      omega

lemma isLetter_not_digit {c : Char} (h : isLetter c) : c.isDigit = false := by
  simp only [isLetter, Bool.or_eq_true, Bool.and_eq_true, decide_eq_true_eq, Char.le_def,
    UInt32.le_iff_toNat_le] at h
  simp only [Char.isDigit, Bool.and_eq_false_iff, decide_eq_false_iff_not, ge_iff_le,
    UInt32.le_iff_toNat_le]
  have hA : 'A'.val.toNat = 65 := rfl
  have ha : 'a'.val.toNat = 97 := rfl
  have h9 : '9'.val.toNat = 57 := rfl
  omega

lemma scan_cons {f : Fields}
    (h : scan currentYear text = some f) : ∃ c rest, text = c :: rest ∧ isLetter c := by
  rw [scan] at h
  split at h
  · rename_i hfields
    obtain ⟨⟨_, _⟩, hletters, -⟩ := Option.bind_eq_some_iff.mp hfields
    exact letters_cons hletters
  split at h
  · rename_i hfields
    obtain ⟨⟨_, _⟩, hletters, -⟩ := Option.bind_eq_some_iff.mp hfields
    exact letters_cons hletters
  · obtain ⟨⟨_, _⟩, hletters, -⟩ := Option.bind_eq_some_iff.mp h
    exact letters_cons hletters

lemma timestamp_le (i : Instant) : -719528 * 86400 ≤ i.timestamp ∧
    i.timestamp < 366 * 86400 * (i.year + 1) := by
  have hdays := dayNumber_lt i.month_lt i.day_pos i.day_le
  have hyears := daysBefore_eq (i.year + 1)
  have := i.hour_lt
  have := i.minute_lt
  have := i.second_lt
  rw [Instant.timestamp, dayNumber_epoch]
  constructor <;> omega

/-- **The time to wait for a date is never less than the time until it.** -/
lemma retryAfterSeconds_date (hcurrent : ∀ c ∈ currentYear, c < 2 ^ 31) {t reference : ℤ} (h : httpDate currentYear text = some t)
    (hlow : -2 ^ 63 ≤ reference) :
    ∃ s, retryAfterSeconds currentYear text reference = some s ∧ t - reference ≤ s.toNat := by
  obtain ⟨f, hscan, hdecode⟩ := Option.bind_eq_some_iff.mp h
  obtain ⟨c, rest, rfl, hc⟩ := scan_cons hscan
  obtain ⟨i, -, rfl, rfl⟩ := decode_eq_some.mp hdecode
  have hyear := scan_year_lt hcurrent hscan
  rw [show i.toFields.year = (i.year : ℤ) from rfl] at hyear
  have hlt := (timestamp_le i).2
  have hdigit := isLetter_not_digit hc
  refine ⟨if i.timestamp > reference then UInt64.ofInt (i.timestamp - reference) else 0, ?_, ?_⟩
  · rw [retryAfterSeconds, if_neg (by simp [hdigit]), h]
    rfl
  split_ifs with hlater
  · have hfits : (i.timestamp - reference) % 2 ^ 64 = i.timestamp - reference :=
      Int.emod_eq_of_lt (by omega) (by omega)
    rw [UInt64.ofInt, hfits, UInt64.toNat_ofNat']
    omega
  · rw [UInt64.toNat_zero]
    omega

/-! ### Every instant from 1601 to 9999 -/

/-- **`http_date` reads exactly the dates of the calendar, as their timestamps.** -/
theorem http_date_calendar (currentYear : Option ℤ) :
    (∀ (i : Instant) (weekday : Word) (hyear : i.year < 10000) (text : Text), 1601 ≤ i.year →
      (ofInstant i weekday hyear).Writes text → httpDate currentYear text = some i.timestamp) ∧
    (∀ (d : Date) (text : Text), d.Writes text →
      (¬∃ i : Instant, 1601 ≤ i.year ∧ i.toFields = d.toFields) →
        httpDate currentYear text = none) ∧
    (∀ i j : Instant, i.fields < j.fields → i.timestamp < j.timestamp) ∧
    ∀ (text : Text) (t reference : ℤ), (∀ c ∈ currentYear, c < 2 ^ 31) →
      httpDate currentYear text = some t → -2 ^ 63 ≤ reference →
        ∃ s, retryAfterSeconds currentYear text reference = some s ∧ t - reference ≤ s.toNat := by
  refine ⟨?_, ?_, fun i j h => Instant.timestamp_lt h,
    fun text t reference hcurrent h hlow => retryAfterSeconds_date hcurrent h hlow⟩
  · intro i weekday hyear text hfrom hwrites
    rw [httpDate, Date.scan_eq currentYear hwrites, bind_some]
    exact decode_eq_some.mpr ⟨i, hfrom, rfl, rfl⟩
  · intro d text hwrites hnone
    rw [httpDate, Date.scan_eq currentYear hwrites, bind_some, eq_none_iff_forall_ne_some]
    intro t h
    obtain ⟨i, hfrom, hfields, -⟩ := decode_eq_some.mp h
    exact hnone ⟨i, hfrom, hfields⟩

def sunday : Word := ⟨"Sun".toList, rfl, List.all_eq_true.mp (by decide)⟩

def november : Instant :=
  ⟨1994, 10, 6, 8, 49, 37, by decide, by decide, by decide, by decide, by decide, by decide⟩

lemma november_timestamp : november.timestamp = 784111777 := by
  have h := daysOf_eq (show 1 ≤ 1994 by decide) (show 10 < 12 by decide) (show 1 ≤ 6 by decide)
  rw [Instant.timestamp, show november.year = 1994 from rfl, show november.month = 10 from rfl,
    show november.day = 6 from rfl, ← h]
  rfl

def nextDay : Instant := { november with day := 7, day_pos := by decide, day_le := by decide }

/-- The same time on the thirty-first, which November does not have. -/
def lastNovember : Date :=
  { ofInstant november sunday (by decide) with day := 31, day_lt := by decide }

theorem http_date_calendar_november :
    httpDate (some 2025) "Sun, 06 Nov 1994 08:49:37 GMT".toList = some 784111777 ∧
    httpDate (some 2025) "Sun, 31 Nov 1994 08:49:37 GMT".toList = none ∧
    november.timestamp < nextDay.timestamp ∧
    ∃ s, retryAfterSeconds (some 2025) "Sun, 06 Nov 1994 08:49:37 GMT".toList 784111700 = some s ∧
      (77 : ℤ) ≤ s.toNat := by
  obtain ⟨hreads, hrejects, hmono, hwait⟩ := http_date_calendar (some 2025)
  have hdate : httpDate (some 2025) "Sun, 06 Nov 1994 08:49:37 GMT".toList = some 784111777 := by
    rw [← november_timestamp]
    exact hreads november sunday (by decide) _ (by decide) .imfFixdate
  refine ⟨hdate, ?_, hmono _ _ (by decide), ?_⟩
  · apply hrejects lastNovember _ .imfFixdate
    rintro ⟨i, hfrom, hfields⟩
    have h := decode_eq_some.mpr ⟨i, hfrom, hfields, rfl⟩
    cases h
  · exact hwait _ 784111777 784111700 (by decide) hdate (by decide)

end C1auncher.Package.WrittenDates
