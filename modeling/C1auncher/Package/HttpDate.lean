import C1auncher.CString

/-!
Dates of HTTP: what the installer reads of them, and the waiting time that follows.
-/

namespace C1auncher.Package.HttpDate

open CString

/-! ### The conversions of `sscanf` -/

def isSpace (c : Char) : Bool :=
  c == ' ' || c == '\t' || c == '\n' || c == '\x0b' || c == '\x0c' || c == '\r'

def isLetter (c : Char) : Bool := ('A' ≤ c && c ≤ 'Z') || ('a' ≤ c && c ≤ 'z')

def skipBlanks (text : Text) : Text := text.dropWhile isSpace

def literal (c : Char) : Text → Option Text
  | c' :: text => if c' = c then some text else none
  | [] => none

/-- `%3[A-Za-z]`, with the width -/
def letters (width : ℕ) (text : Text) : Option (Text × Text) :=
  let word := (text.take width).takeWhile isLetter
  if word = [] then none else some (word, text.drop word.length)

def digitsOf (width : ℕ) (text : Text) : Option (ℕ × Text) :=
  let digits := (text.take width).takeWhile Char.isDigit
  if digits = [] then none
  else some (Nat.ofDigitChars 10 digits 0, text.drop digits.length)

/-- `%2d`, with the width -/
def number (width : ℕ) (text : Text) : Option (ℤ × Text) :=
  match skipBlanks text with
  | '-' :: rest => (digitsOf (width - 1) rest).map fun (n, rest) => (-n, rest)
  | '+' :: rest => (digitsOf (width - 1) rest).map fun (n, rest) => (n, rest)
  | rest => (digitsOf width rest).map fun (n, rest) => (n, rest)

/-! ### The three forms -/

structure Fields where
  day : ℤ
  month : Text
  year : ℤ
  hour : ℤ
  minute : ℤ
  second : ℤ
  deriving DecidableEq

/-- `%2d:%2d:%2d` -/
def clock (text : Text) : Option ((ℤ × ℤ × ℤ) × Text) := do
  let (hour, text) ← number 2 text
  let text ← literal ':' text
  let (minute, text) ← number 2 text
  let text ← literal ':' text
  let (second, text) ← number 2 text
  return ((hour, minute, second), text)

/-- `Sun, 06 Nov 1994 08:49:37 GMT`, with the zone; nothing may follow it. -/
def scanFixdate (text : Text) : Option (Fields × Text) := do
  let (_, text) ← letters 3 text
  let text ← literal ',' text
  let (day, text) ← number 2 (skipBlanks text)
  let (month, text) ← letters 3 (skipBlanks text)
  let (year, text) ← number 4 (skipBlanks text)
  let ((hour, minute, second), text) ← clock (skipBlanks text)
  let (zone, text) ← letters 3 (skipBlanks text)
  guard (text = [])
  return (⟨day, month, year, hour, minute, second⟩, zone)

/-- `Sunday, 06-Nov-94 08:49:37 GMT` -/
def scanRfc850 (text : Text) : Option (Fields × Text) := do
  let (_, text) ← letters 9 text
  let text ← literal ',' text
  let (day, text) ← number 2 (skipBlanks text)
  let text ← literal '-' text
  let (month, text) ← letters 3 text
  let text ← literal '-' text
  let (year, text) ← number 2 text
  let ((hour, minute, second), text) ← clock (skipBlanks text)
  let (zone, text) ← letters 3 (skipBlanks text)
  guard (text = [])
  return (⟨day, month, year, hour, minute, second⟩, zone)

/-- `Sun Nov  6 08:49:37 1994` -/
def scanAsctime (text : Text) : Option Fields := do
  let (_, text) ← letters 3 text
  let (month, text) ← letters 3 (skipBlanks text)
  let (day, text) ← number 2 (skipBlanks text)
  let ((hour, minute, second), text) ← clock (skipBlanks text)
  let (year, text) ← number 4 (skipBlanks text)
  guard (text = [])
  return ⟨day, month, year, hour, minute, second⟩

def gmt : Text := "GMT".toList

/-- The fields of a date. The year of two digits is the one within fifty years from now;
`currentYear` is what `time` and `gmtime_r` say, `none` where they fail. -/
def scan (currentYear : Option ℤ) (text : Text) : Option Fields :=
  match scanFixdate text with
  | some (fields, zone) => if zone = gmt then some fields else none
  | none =>
    match scanRfc850 text with
    | some (fields, zone) =>
      match currentYear with
      | none => none
      | some current =>
        if fields.year < 0 ∨ zone ≠ gmt then none
        else
          let year := fields.year + current.tdiv 100 * 100
          some { fields with year := if year > current + 50 then year - 100 else year }
    | none => scanAsctime text

/-! ### The timestamp -/

def months : List Text :=
  ["Jan".toList, "Feb".toList, "Mar".toList, "Apr".toList, "May".toList, "Jun".toList,
    "Jul".toList, "Aug".toList, "Sep".toList, "Oct".toList, "Nov".toList, "Dec".toList]

def lengths : List ℤ := [31, 28, 31, 30, 31, 30, 31, 31, 30, 31, 30, 31]

/-- The days from the first of January 1970, for a month counted from zero. -/
def daysOf (year : ℤ) (m : ℕ) (day : ℤ) : ℤ :=
  let y := year - if m < 2 then 1 else 0
  let era := y.tdiv 400
  let yoe := y - era * 400
  era * 146097 + yoe * 365 + yoe.tdiv 4 - yoe.tdiv 100 +
    (153 * ((m : ℤ) + if m > 1 then -2 else 10) + 2).tdiv 5 + day - 1 - 719468

def decode (fields : Fields) : Option ℤ :=
  match months.findIdx? (· == fields.month) with
  | none => none
  | some m =>
    let leap : ℤ := if m = 1 ∧ fields.year.tmod 4 = 0 ∧
      (fields.year.tmod 100 ≠ 0 ∨ fields.year.tmod 400 = 0) then 1 else 0
    if fields.year < 1601 ∨ fields.day < 1 ∨ fields.day > lengths.getD m 0 + leap ∨
        fields.hour < 0 ∨ fields.hour > 23 ∨ fields.minute < 0 ∨ fields.minute > 59 ∨
        fields.second < 0 ∨ fields.second > 59 then none
    else some (daysOf fields.year m fields.day * 86400 + fields.hour * 3600 + fields.minute * 60 +
      fields.second)

def httpDate (currentYear : Option ℤ) (text : Text) : Option ℤ :=
  (scan currentYear text).bind decode

/-! ### Retry-After -/

/-- The number of seconds, `UINT64_MAX` where it is larger. -/
def saturated (value : UInt64) : Text → UInt64
  | [] => value
  | c :: text =>
    saturated (if value > (0xffffffffffffffff - digitValue c) / 10 then 0xffffffffffffffff
      else value * 10 + digitValue c) text

def retryAfterSeconds (currentYear : Option ℤ) (text : Text) (reference : ℤ) : Option UInt64 :=
  if (text.head?.map Char.isDigit).getD false then
    if text.dropWhile Char.isDigit = [] then some (saturated 0 text) else none
  else
    (httpDate currentYear text).map fun date =>
      if date > reference then UInt64.ofInt (date - reference) else 0

end C1auncher.Package.HttpDate

/-!
The proleptic Gregorian calendar, counted day by day, and the dates of HTTP in it.
-/

namespace C1auncher.Package.Calendar

open CString Package.HttpDate

/-! ### The calendar -/

def leapYear (year : ℕ) : Prop := year % 4 = 0 ∧ (year % 100 ≠ 0 ∨ year % 400 = 0)

instance (year : ℕ) : Decidable (leapYear year) := inferInstanceAs (Decidable (_ ∧ _))

def yearLength (year : ℕ) : ℕ := if leapYear year then 366 else 365

/-- The days of a month, which is counted from zero. -/
def monthLength (year month : ℕ) : ℕ :=
  if month = 1 ∧ leapYear year then 29
  else [31, 28, 31, 30, 31, 30, 31, 31, 30, 31, 30, 31].getD month 0

def daysBefore (year : ℕ) : ℕ := ∑ y ∈ Finset.range year, yearLength y

def daysBeforeMonth (year month : ℕ) : ℕ := ∑ m ∈ Finset.range month, monthLength year m

def dayNumber (year month day : ℕ) : ℕ := daysBefore year + daysBeforeMonth year month + (day - 1)

/-- A second of a day that exists. -/
structure Instant where
  year : ℕ
  month : ℕ
  day : ℕ
  hour : ℕ
  minute : ℕ
  second : ℕ
  month_lt : month < 12
  day_pos : 1 ≤ day
  day_le : day ≤ monthLength year month
  hour_lt : hour < 24
  minute_lt : minute < 60
  second_lt : second < 60

namespace Instant

variable (i : Instant)

/-- Seconds since the first of January 1970. -/
def timestamp : ℤ :=
  ((dayNumber i.year i.month i.day : ℤ) - dayNumber 1970 0 1) * 86400 + i.hour * 3600 +
    i.minute * 60 + i.second

def fields : List ℕ := [i.year, i.month, i.day, i.hour, i.minute, i.second]

end Instant

lemma daysBefore_succ (year : ℕ) : daysBefore (year + 1) = daysBefore year + yearLength year :=
  Finset.sum_range_succ _ _

lemma daysBefore_eq (year : ℕ) : daysBefore year + (year + 99) / 100 =
    365 * year + (year + 3) / 4 + (year + 399) / 400 := by
  induction year with
  | zero => rfl
  | succ year ih =>
    rw [daysBefore_succ]
    by_cases h : leapYear year
    · rw [yearLength, if_pos h]
      unfold leapYear at h
      omega
    rw [yearLength, if_neg h]
    unfold leapYear at h
    omega

lemma daysBeforeMonth_eq (year : ℕ) {month : ℕ} (h : month < 12) :
    daysBeforeMonth year month = if month < 2 then month * 31
      else (153 * (month - 2) + 2) / 5 + 59 + if leapYear year then 1 else 0 := by
  unfold daysBeforeMonth monthLength
  interval_cases month <;> simp [Finset.sum_range_succ] <;> split_ifs <;> rfl

lemma era_eq (y : ℕ) : (y : ℤ).tdiv 400 * 146097 + (y - (y : ℤ).tdiv 400 * 400) * 365 +
      (y - (y : ℤ).tdiv 400 * 400).tdiv 4 - (y - (y : ℤ).tdiv 400 * 400).tdiv 100 =
    365 * y + (y / 4 : ℕ) + (y / 400 : ℕ) - (y / 100 : ℕ) := by
  obtain ⟨e, r, hr, rfl⟩ : ∃ e r, r < 400 ∧ y = 400 * e + r :=
    ⟨y / 400, y % 400, Nat.mod_lt _ (by decide), (Nat.div_add_mod y 400).symm⟩
  have hera : ((400 * e + r : ℕ) : ℤ).tdiv 400 = e := by
    rw [Int.tdiv_eq_ediv_of_nonneg (by omega)]
    omega
  have hyoe : (((400 * e + r : ℕ) : ℤ) - e * 400) = r := by
    push_cast
    ring
  rw [hera, hyoe, Int.tdiv_eq_ediv_of_nonneg (by omega), Int.tdiv_eq_ediv_of_nonneg (by omega)]
  omega

lemma fifths_eq {month : ℕ} (h : month < 12) :
    (153 * ((month : ℤ) + if month > 1 then -2 else 10) + 2).tdiv 5 =
      if month < 2 then (month : ℤ) * 31 + 306 else ((153 * (month - 2) + 2) / 5 : ℕ) := by
  interval_cases month <;> rfl

lemma daysBefore_succ_eq (y : ℕ) : (daysBefore (y + 1) : ℤ) =
    365 * y + (y / 4 : ℕ) + (y / 400 : ℕ) - (y / 100 : ℕ) + 366 := by
  have h := daysBefore_eq (y + 1)
  omega

lemma yearLength_eq (y : ℕ) :
    (daysBefore (y + 1) : ℤ) = daysBefore y + 365 + if leapYear y then 1 else 0 := by
  rw [daysBefore_succ, yearLength]
  split_ifs <;> push_cast <;> ring

lemma dayNumber_epoch : dayNumber 1970 0 1 = 719528 := by
  have h := daysBefore_eq 1970
  have hmonths : daysBeforeMonth 1970 0 = 0 := rfl
  rw [dayNumber, hmonths]
  omega

/-- **The arithmetic of eras is the calendar.** -/
theorem daysOf_eq {year month day : ℕ} (hyear : 1 ≤ year) (hmonth : month < 12) (hday : 1 ≤ day) :
    daysOf year month day = (dayNumber year month day : ℤ) - dayNumber 1970 0 1 := by
  obtain ⟨y, rfl⟩ : ∃ y, year = y + 1 := ⟨year - 1, by omega⟩
  have hmonths := daysBeforeMonth_eq (y + 1) hmonth
  rw [dayNumber_epoch, dayNumber, daysOf]
  rw [fifths_eq hmonth]
  by_cases hwinter : month < 2
  · have hyears : ((y + 1 : ℕ) : ℤ) - 1 = y := by push_cast; ring
    rw [if_pos hwinter] at hmonths ⊢
    rw [if_pos hwinter, hyears, era_eq]
    have hbefore := daysBefore_succ_eq y
    push_cast [hmonths]
    omega
  · have hyears : ((y + 1 : ℕ) : ℤ) - 0 = (y + 1 : ℕ) := sub_zero _
    rw [if_neg hwinter] at hmonths ⊢
    rw [if_neg hwinter, hyears, era_eq]
    have hbefore := daysBefore_succ_eq (y + 1)
    have hlength := yearLength_eq (y + 1)
    rw [hmonths]
    by_cases hleap : leapYear (y + 1)
    · rw [if_pos hleap] at hlength ⊢
      omega
    · rw [if_neg hleap] at hlength ⊢
      omega

/-! ### The order of the instants -/

lemma daysBefore_mono : Monotone daysBefore :=
  monotone_nat_of_le_succ fun year => by
    rw [daysBefore_succ]
    exact Nat.le_add_right _ _

lemma daysBeforeMonth_mono (year : ℕ) : Monotone (daysBeforeMonth year) :=
  monotone_nat_of_le_succ fun month => by
    rw [daysBeforeMonth, daysBeforeMonth, Finset.sum_range_succ]
    exact Nat.le_add_right _ _

lemma daysBeforeMonth_le (year : ℕ) {month month' : ℕ} (h : month < month') :
    daysBeforeMonth year month + monthLength year month ≤ daysBeforeMonth year month' := by
  calc daysBeforeMonth year month + monthLength year month
      = daysBeforeMonth year (month + 1) := (Finset.sum_range_succ _ _).symm
    _ ≤ daysBeforeMonth year month' := daysBeforeMonth_mono year h

lemma daysBeforeMonth_year (year : ℕ) : daysBeforeMonth year 12 = yearLength year := by
  rw [daysBeforeMonth, yearLength]
  unfold monthLength
  by_cases h : leapYear year <;> simp [Finset.sum_range_succ, h]

lemma dayNumber_lt {year month day : ℕ} (hmonth : month < 12) (hpos : 1 ≤ day)
    (hday : day ≤ monthLength year month) : dayNumber year month day < daysBefore (year + 1) := by
  have h : daysBeforeMonth year month + monthLength year month ≤ daysBeforeMonth year 12 :=
    daysBeforeMonth_le year hmonth
  rw [daysBeforeMonth_year] at h
  rw [dayNumber, daysBefore_succ]
  omega

namespace Instant

variable {i j : Instant}

lemma timestamp_lt_of_day (h : dayNumber i.year i.month i.day < dayNumber j.year j.month j.day) :
    i.timestamp < j.timestamp := by
  have := i.hour_lt
  have := i.minute_lt
  have := i.second_lt
  unfold timestamp
  omega

/-- **The timestamps are in the order of the instants.** -/
theorem timestamp_lt (h : i.fields < j.fields) : i.timestamp < j.timestamp := by
  have himinute := i.minute_lt
  have hisecond := i.second_lt
  have hidays := dayNumber_lt i.month_lt i.day_pos i.day_le
  simp only [fields, List.cons_lt_cons_iff, List.lt_irrefl, and_false, or_false] at h
  rcases h with hyear | ⟨hyear, hmonth | ⟨hmonth, hday | ⟨hday, h⟩⟩⟩
  · apply timestamp_lt_of_day
    have hyears := daysBefore_mono (show i.year + 1 ≤ j.year from hyear)
    rw [dayNumber.eq_1 j.year]
    omega
  · apply timestamp_lt_of_day
    have hmonths := daysBeforeMonth_le i.year hmonth
    have := i.day_le
    have := i.day_pos
    rw [dayNumber, dayNumber, ← hyear]
    omega
  · apply timestamp_lt_of_day
    have := i.day_pos
    rw [dayNumber, dayNumber, ← hyear, ← hmonth]
    omega
  · unfold timestamp
    rw [← hyear, ← hmonth, ← hday]
    omega

end Instant

/-! ### What `http_date` makes of the fields -/

namespace Instant

def toFields (i : Instant) : Fields where
  day := i.day
  month := months.getD i.month []
  year := i.year
  hour := i.hour
  minute := i.minute
  second := i.second

end Instant

lemma months_findIdx {word : Text} {m : ℕ} :
    months.findIdx? (· == word) = some m ↔ m < 12 ∧ months.getD m [] = word := by
  constructor
  · intro h
    obtain ⟨hm, hword, -⟩ := List.findIdx?_eq_some_iff_getElem.mp h
    refine ⟨hm, ?_⟩
    rw [List.getD_eq_getElem _ _ hm]
    simpa using hword
  · rintro ⟨hm, rfl⟩
    interval_cases m <;> rfl

lemma monthLength_eq (year : ℕ) {m : ℕ} (h : m < 12) : (monthLength year m : ℤ) =
    lengths.getD m 0 + if m = 1 ∧ (year : ℤ).tmod 4 = 0 ∧
      ((year : ℤ).tmod 100 ≠ 0 ∨ (year : ℤ).tmod 400 = 0) then 1 else 0 := by
  have hleap : ((year : ℤ).tmod 4 = 0 ∧ ((year : ℤ).tmod 100 ≠ 0 ∨ (year : ℤ).tmod 400 = 0)) ↔
      leapYear year := by
    simp only [Int.tmod_eq_emod_of_nonneg (Int.natCast_nonneg year), leapYear]
    omega
  simp only [hleap, monthLength]
  interval_cases m <;> by_cases h : leapYear year <;> simp [lengths, h]

/-- **The fields are accepted if and only if they are an instant's, with its timestamp.** -/
theorem decode_eq_some {f : Fields} {t : ℤ} :
    decode f = some t ↔ ∃ i : Instant, 1601 ≤ i.year ∧ i.toFields = f ∧ i.timestamp = t := by
  constructor
  · intro h
    rw [decode] at h
    split at h
    · cases h
    rename_i m hm
    obtain ⟨hlt, hword⟩ := months_findIdx.mp hm
    dsimp only at h
    obtain ⟨hvalid, h⟩ := Option.ite_none_left_eq_some.mp h
    obtain ⟨year, hyear⟩ : ∃ year : ℕ, f.year = year := ⟨f.year.toNat, by omega⟩
    obtain ⟨day, hday⟩ : ∃ day : ℕ, f.day = day := ⟨f.day.toNat, by omega⟩
    obtain ⟨hour, hhour⟩ : ∃ hour : ℕ, f.hour = hour := ⟨f.hour.toNat, by omega⟩
    obtain ⟨minute, hminute⟩ : ∃ minute : ℕ, f.minute = minute := ⟨f.minute.toNat, by omega⟩
    obtain ⟨second, hsecond⟩ : ∃ second : ℕ, f.second = second := ⟨f.second.toNat, by omega⟩
    have hlength := monthLength_eq year hlt
    rw [hyear, hday, hhour, hminute, hsecond, ← hlength] at hvalid
    rw [hyear, hday, hhour, hminute, hsecond] at h
    refine ⟨⟨year, m, day, hour, minute, second, hlt, by omega, by omega, by omega, by omega,
      by omega⟩, ?_, ?_, ?_⟩
    · show 1601 ≤ year
      omega
    · rw [Instant.toFields, hword, ← hyear, ← hday, ← hhour, ← hminute, ← hsecond]
    · rw [daysOf_eq (by omega) hlt (by omega)] at h
      exact Option.some_inj.mp h
  · rintro ⟨i, hyear, rfl, rfl⟩
    have hday := daysOf_eq (show 1 ≤ i.year by omega) i.month_lt i.day_pos
    have hlength := monthLength_eq i.year i.month_lt
    have := i.day_pos
    have := i.day_le
    have := i.hour_lt
    have := i.minute_lt
    have := i.second_lt
    rw [decode, Instant.toFields, months_findIdx.mpr ⟨i.month_lt, rfl⟩]
    dsimp only
    rw [← hlength, if_neg (by omega), hday]
    rfl

end C1auncher.Package.Calendar
