import C1auncher.CString

/-!
The draft of a percentage: the keys that edit it and the reader of its text.
-/

namespace C1auncher.BookReader.PercentInput

open CString List Nat

/-- All draft values are in hundredths of a percent. -/
def percentScale : ℕ := 100

def maxPercentUnits : ℕ := 100 * percentScale

def clampPercent (value : ℤ) : ℕ :=
  if value < 0 then 0 else if (maxPercentUnits : ℤ) < value then maxPercentUnits else value.toNat

def number (digits : Text) : ℕ := Nat.ofDigitChars 10 digits 0

/-- The hundredths that at most two decimals stand for. -/
def fractionUnits : Text → ℕ
  | [] => 0
  | [digit] => number [digit] * 10
  | digits => number digits

def checked (units : ℕ) : Option ℕ := if units ≤ maxPercentUnits then some units else none

/-- What stands before the point and what was split off behind it. -/
def parseParts (whole : Text) (more : List Text) : Option ℕ :=
  if 1 < more.length || whole = [] || 3 < whole.length ||
    !(whole :: more).all (·.all Char.isDigit) then none
  else
    match more with
    | [] => checked (number whole * percentScale)
    | fraction :: _ =>
      if 2 < fraction.length then none
      else checked (number whole * percentScale + fractionUnits fraction)

/-- Lengths are bytes in the source; a text with a character that takes more is no number. -/
def parsePercentInput (text : Text) : Option ℕ :=
  if text = [] || 6 < text.length then none
  else
    match text.splitOn '.' with
    | [] => none
    | whole :: more => parseParts whole more

/-- Two digits, the first perhaps a zero. -/
def twoDigits (n : ℕ) : Text := (if n < 10 then ['0'] else []) ++ Nat.toDigits 10 n

def formatPercentUnits (units : ℕ) : Text :=
  Nat.toDigits 10 (units / percentScale) ++ '.' :: twoDigits (units % percentScale)

/-- The value, the text that replaces it while it is edited, and the message below. -/
structure Draft where
  value : ℕ
  input : Text
  message : String

/-- What the dialog begins with. -/
def Draft.opened (value : ℤ) : Draft := ⟨clampPercent value, [], ""⟩

/-- The value the draft stands for, if it is one. -/
def Draft.selectedPercent (d : Draft) : Option ℕ :=
  if d.input ≠ [] then parsePercentInput d.input else some d.value

def Draft.erase (d : Draft) : Draft :=
  let input := (if d.input = [] then formatPercentUnits d.value else d.input).dropLast
  { d with input := input, value := if input = [] then 0 else d.value }

def Draft.point (d : Draft) : Draft :=
  if d.input.contains '.' then d
  else { d with input := (if d.input = [] then ['0'] else d.input) ++ ['.'] }

def Draft.digit (d : Draft) (character : Char) : Draft :=
  match d.input.idxOf? '.' with
  | some point =>
    if 2 ≤ d.input.length - point - 1 then { d with message := "最多输入两位小数" }
    else { d with input := d.input ++ [character] }
  | none =>
    if 3 ≤ d.input.length then { d with message := "百分比范围 0-100" }
    else { d with input := d.input ++ [character] }

def Draft.inputPercent (d : Draft) (character : Char) : Draft :=
  if character = '\x08' then d.erase
  else if character = '.' then d.point
  else if character < '0' || '9' < character then d
  else d.digit character

inductive Key
  | up
  | down
  | volumeUp
  | volumeDown
  | pause
  | rune (character : Char)
deriving DecidableEq

structure Event where
  key : Key
  held : Bool

def topRow : Text := ['q', 'w', 'e', 'r', 't', 'y', 'u', 'i', 'o', 'p']

def topDigits : Text := ['1', '2', '3', '4', '5', '6', '7', '8', '9', '0']

section Keys

-- The lower case of a character.
variable (toLower : Char → Char)

/-- In this dialog the letters of the top row are the digits printed on them. -/
def percentCharacter (rune : Char) : Char :=
  let character := toLower rune
  match topRow.idxOf? character with
  | some index => topDigits.getD index '0'
  | none => if character = 'z' then '.' else character

def chapterSelectionDelta (held : Bool) : ℤ := if held then 5 else 1

def Draft.adjust (d : Draft) (delta : ℤ) : Draft :=
  match d.selectedPercent with
  | none => { d with message := "请先修正输入：0-100" }
  | some units => { d with value := clampPercent (units + delta * percentScale), input := [] }

def Draft.handlePercentJump (d : Draft) (event : Event) : Draft :=
  match event.key with
  | .up | .volumeUp => d.adjust (chapterSelectionDelta event.held)
  | .down | .volumeDown => d.adjust (-chapterSelectionDelta event.held)
  | .rune character => d.inputPercent (percentCharacter toLower character)
  | .pause => d.inputPercent '0'

/-- Of held keys only those that adjust repeat. -/
def Event.ignored (event : Event) : Bool :=
  event.held && !(event.key == .up || event.key == .down || event.key == .volumeUp ||
    event.key == .volumeDown)

def Draft.handleEvent (d : Draft) (event : Event) : Draft :=
  if event.ignored then d else { d with message := "" }.handlePercentJump toLower event

def Draft.run (d : Draft) (events : List Event) : Draft :=
  events.foldl (Draft.handleEvent toLower) d

end Keys

/-! ### Decimal numbers with at most two decimals -/

/-- A text as one to three digits and perhaps a point with at most two decimals. -/
structure Parts (text whole fraction : Text) : Prop where
  text : text = whole ∧ fraction = [] ∨ text = whole ++ '.' :: fraction
  whole_length : 1 ≤ whole.length ∧ whole.length ≤ 3
  fraction_length : fraction.length ≤ 2
  whole_digits : ∀ c ∈ whole, c.isDigit
  fraction_digits : ∀ c ∈ fraction, c.isDigit

/-- The hundredths that a decimal number denotes. -/
def Decimal (text : Text) (units : ℕ) : Prop :=
  ∃ whole fraction, Parts text whole fraction ∧
    units = number whole * 100 + number (fraction ++ List.replicate (2 - fraction.length) '0')

variable {fraction text : Text} {units : ℕ} {d : Draft}

lemma fractionUnits_eq (h : fraction.length ≤ 2) :
    fractionUnits fraction =
      number (fraction ++ replicate (2 - fraction.length) '0') := by
  rcases fraction with _ | ⟨c, _ | ⟨d, _ | ⟨e, fraction⟩⟩⟩
  · rfl
  · simp [fractionUnits, number, ofDigitChars_cons]
    omega
  · simp [fractionUnits]
  · simp at h

lemma not_point {digits : Text} (h : ∀ c ∈ digits, c.isDigit) : '.' ∉ digits := fun hmem => by
  have := h '.' hmem
  simp at this

lemma Parts.parse {whole : Text} (h : Parts text whole fraction) :
    parsePercentInput text = checked (number whole * percentScale + fractionUnits fraction) := by
  obtain ⟨htext, ⟨hone, hthree⟩, htwo, hwhole, hfraction⟩ := h
  have hdigits : whole.all Char.isDigit = true := List.all_eq_true.mpr hwhole
  have hdecimals : fraction.all Char.isDigit = true := List.all_eq_true.mpr hfraction
  have hne : whole ≠ [] := length_pos_iff.mp hone
  unfold parsePercentInput
  rcases htext with ⟨rfl, rfl⟩ | rfl
  · rw [if_neg (by simp only [Bool.or_eq_true, decide_eq_true_eq, hne, false_or]; omega),
      splitOn_eq_singleton (not_point hwhole)]
    dsimp only [parseParts]
    rw [if_neg (by simpa [hne] using ⟨hthree, hwhole⟩)]
    rfl
  · have hlength : (whole ++ '.' :: fraction).length = whole.length + 1 + fraction.length := by
      rw [length_append, length_cons]
      omega
    have hcons : whole ++ '.' :: fraction ≠ [] := by simp
    rw [if_neg (by simp only [Bool.or_eq_true, decide_eq_true_eq, hlength, hcons, false_or]; omega),
      splitOn_append_cons_self_of_not_mem (not_point hwhole),
      splitOn_eq_singleton (not_point hfraction)]
    dsimp only [parseParts]
    rw [if_neg (by simpa [hne] using ⟨hthree, hwhole, hfraction⟩),
      if_neg (by simpa using htwo)]

lemma parts_of_parse (h : parsePercentInput text = some units) :
    ∃ whole fraction, Parts text whole fraction := by
  have hjoin : ['.'].intercalate (text.splitOn '.') = text := intercalate_splitOn '.'
  unfold parsePercentInput at h
  split at h
  · cases h
  rcases hsplit : text.splitOn '.' with _ | ⟨whole, more⟩
  · rw [hsplit] at h
    cases h
  rw [hsplit] at h hjoin
  dsimp only [parseParts] at h
  split at h
  · cases h
  rename_i hparts
  simp only [Bool.or_eq_true, decide_eq_true_eq, Bool.not_eq_true', not_or,
    Bool.not_eq_false, all_eq_true] at hparts
  obtain ⟨⟨⟨hmore, hne⟩, hthree⟩, hall⟩ := hparts
  have hone : 1 ≤ whole.length := length_pos_iff.mpr hne
  have hwhole : ∀ c ∈ whole, c.isDigit := hall whole mem_cons_self
  rcases more with _ | ⟨fraction, _ | ⟨_, more⟩⟩
  · exact ⟨whole, [], .inl ⟨hjoin.symm.trans (by simp [intercalate]), rfl⟩,
      ⟨hone, by omega⟩, by simp, hwhole, by simp⟩
  · dsimp only at h
    split at h
    · cases h
    · exact ⟨whole, fraction, .inr (hjoin.symm.trans (by simp [intercalate])),
        ⟨hone, by omega⟩, by omega, hwhole, hall fraction (by simp)⟩
  · simp at hmore

/-- **A text is accepted exactly as a decimal number of at most a hundred percent.** -/
theorem parsePercentInput_iff :
    parsePercentInput text = some units ↔ Decimal text units ∧ units ≤ maxPercentUnits := by
  constructor
  · intro h
    obtain ⟨whole, fraction, hparts⟩ := parts_of_parse h
    rw [hparts.parse, checked] at h
    split at h
    · obtain rfl := Option.some.inj h
      exact ⟨⟨whole, fraction, hparts, by rw [fractionUnits_eq hparts.fraction_length]; rfl⟩, ‹_›⟩
    · cases h
  · rintro ⟨⟨whole, fraction, hparts, rfl⟩, hle⟩
    rw [hparts.parse, checked, fractionUnits_eq hparts.fraction_length]
    exact if_pos hle

/-! ### What the keys leave -/

/-- The text is empty or a decimal number, and the value is one that can be chosen. -/
structure Kept (d : Draft) : Prop where
  input : d.input = [] ∨ ∃ whole fraction, Parts d.input whole fraction
  value : d.value ≤ maxPercentUnits

lemma clampPercent_le (value : ℤ) : clampPercent value ≤ maxPercentUnits := by
  unfold clampPercent
  split_ifs <;> omega

lemma parts_format (h : units ≤ maxPercentUnits) :
    Parts (formatPercentUnits units) (Nat.toDigits 10 (units / 100)) (twoDigits (units % 100)) := by
  have hmax : maxPercentUnits = 10000 := rfl
  have hwhole : (toDigits 10 (units / 100)).length ≤ 3 :=
    (length_toDigits_le_iff (by omega) (by omega)).mpr (by omega)
  have htwo : (toDigits 10 (units % 100)).length ≤ 2 :=
    (length_toDigits_le_iff (by omega) (by omega)).mpr (by omega)
  have hdigits : ∀ n, ∀ c ∈ toDigits 10 n, c.isDigit := fun _ _ hc =>
    isDigit_of_mem_toDigits (by omega) (by omega) hc
  refine ⟨.inr rfl, ⟨length_toDigits_pos, hwhole⟩, ?_, hdigits _, ?_⟩
  · unfold twoDigits
    split
    · rename_i hlt
      rw [toDigits_of_lt_base hlt]
      rfl
    · exact htwo
  · unfold twoDigits
    intro c hc
    rcases mem_append.mp hc with hc | hc
    · split at hc
      · rw [mem_singleton.mp hc]
        rfl
      · cases hc
    · exact hdigits _ c hc

lemma Parts.dropLast {whole : Text} (h : Parts text whole fraction) :
    text.dropLast = [] ∨ ∃ whole' fraction', Parts text.dropLast whole' fraction' := by
  obtain ⟨htext, ⟨hone, hthree⟩, htwo, hwhole, hfraction⟩ := h
  rcases htext with ⟨rfl, rfl⟩ | rfl
  · rcases hdrop : text.dropLast with _ | ⟨c, rest⟩
    · exact .inl rfl
    refine .inr ⟨c :: rest, [], .inl ⟨rfl, rfl⟩, ⟨by simp, ?_⟩, by simp, ?_, by simp⟩
    · rw [← hdrop, length_dropLast]
      omega
    · rw [← hdrop]
      exact fun c hc => hwhole c (dropLast_subset _ hc)
  · rcases eq_nil_or_concat fraction with rfl | ⟨decimals, c, hlast⟩
    · refine .inr ⟨whole, [], .inl ⟨?_, rfl⟩, ⟨hone, hthree⟩, by simp, hwhole, by simp⟩
      rw [dropLast_concat]
    rw [concat_eq_append] at hlast
    subst hlast
    refine .inr ⟨whole, decimals, .inr ?_, ⟨hone, hthree⟩, ?_, hwhole, fun d hd =>
      hfraction d (mem_append_left _ hd)⟩
    · rw [← cons_append, ← append_assoc, dropLast_concat]
    · rw [length_append] at htwo
      exact le_of_add_right_le htwo

lemma Kept.erase (h : Kept d) : Kept d.erase := by
  refine ⟨?_, ?_⟩
  · unfold Draft.erase
    dsimp only
    split
    · exact (parts_format h.value).dropLast
    rename_i hne
    obtain ⟨whole, fraction, hparts⟩ := h.input.resolve_left hne
    exact hparts.dropLast
  · unfold Draft.erase
    dsimp only
    split_ifs
    · exact Nat.zero_le _
    · exact h.value
    · exact Nat.zero_le _
    · exact h.value

lemma Kept.point (h : Kept d) : Kept d.point := by
  unfold Draft.point
  split
  · exact h
  rename_i hnone
  refine ⟨.inr ?_, h.value⟩
  dsimp only
  split
  · exact ⟨['0'], [], .inr rfl, by simp, by simp, by simp, by simp⟩
  rename_i hne
  obtain ⟨whole, fraction, htext, hwhole, htwo, hdigits, hdecimals⟩ := h.input.resolve_left hne
  rcases htext with ⟨htext, rfl⟩ | htext
  · exact ⟨whole, [], .inr (by rw [htext]), hwhole, htwo, hdigits, hdecimals⟩
  · rw [htext] at hnone
    simp at hnone

lemma Kept.digit (h : Kept d) {c : Char} (hc : c.isDigit) : Kept (d.digit c) := by
  unfold Draft.digit
  rcases h.input with hempty | ⟨whole, fraction, htext, hwhole, htwo, hdigits, hdecimals⟩
  · rw [hempty]
    exact ⟨.inr ⟨[c], [], .inl ⟨rfl, rfl⟩, by simp, by simp, by simpa using hc, by simp⟩, h.value⟩
  have hadd : ∀ digits : Text, (∀ e ∈ digits, e.isDigit) → ∀ e ∈ digits ++ [c], e.isDigit :=
    fun digits hall e he => (mem_append.mp he).elim (hall e) fun he =>
      mem_singleton.mp he ▸ hc
  rcases htext with ⟨htext, rfl⟩ | htext
  · rw [htext, idxOf?_eq_none_iff.mpr (not_point hdigits)]
    dsimp only
    split
    · exact ⟨.inr ⟨whole, [], .inl ⟨rfl, rfl⟩, hwhole, htwo, hdigits, hdecimals⟩, h.value⟩
    rename_i hlt
    refine ⟨.inr ⟨whole ++ [c], [], .inl ⟨rfl, rfl⟩, ?_, by simp, hadd whole hdigits,
      by simp⟩, h.value⟩
    rw [length_append, length_singleton]
    omega
  · have hpoint : d.input.idxOf? '.' = some whole.length := by
      rw [htext, idxOf?_eq_some_iff]
      refine ⟨by simp, by simp, fun j hj => ?_⟩
      rw [getElem_append_left hj]
      exact fun heq => not_point hdigits (heq ▸ getElem_mem hj)
    have hlength : d.input.length - whole.length - 1 = fraction.length := by
      rw [htext, length_append, length_cons]
      omega
    rw [hpoint]
    dsimp only
    rw [hlength]
    split
    · exact ⟨.inr ⟨whole, fraction, .inr htext, hwhole, htwo, hdigits, hdecimals⟩, h.value⟩
    rename_i hlt
    refine ⟨.inr ⟨whole, fraction ++ [c], .inr ?_, hwhole, ?_, hdigits,
      hadd fraction hdecimals⟩, h.value⟩
    · rw [htext, append_assoc, cons_append]
    · rw [length_append, length_singleton]
      omega

lemma isDigit_of_bounds {c : Char} (h : ¬(c < '0' || '9' < c) = true) : c.isDigit := by
  simp only [Bool.or_eq_true, decide_eq_true_eq, not_or, Char.not_lt] at h
  exact Char.isDigit_iff_toNat.mpr h

lemma Kept.inputPercent (h : Kept d) (character : Char) :
    Kept (d.inputPercent character) := by
  unfold Draft.inputPercent
  split
  · exact h.erase
  split
  · exact h.point
  split
  · exact h
  · exact h.digit (isDigit_of_bounds ‹_›)

lemma Kept.adjust (h : Kept d) (delta : ℤ) : Kept (d.adjust delta) := by
  unfold Draft.adjust
  split
  · exact ⟨h.input, h.value⟩
  · exact ⟨.inl rfl, clampPercent_le _⟩

section Keys

variable {toLower : Char → Char}

lemma Kept.handleEvent {d : Draft} (h : Kept d) (event : Event) :
    Kept (d.handleEvent toLower event) := by
  have hcleared : Kept { d with message := "" } := ⟨h.input, h.value⟩
  unfold Draft.handleEvent
  split
  · exact h
  unfold Draft.handlePercentJump
  split
  · exact hcleared.adjust _
  · exact hcleared.adjust _
  · exact hcleared.adjust _
  · exact hcleared.adjust _
  · exact hcleared.inputPercent _
  · exact hcleared.inputPercent _

/-- **Every sequence of keys leaves nothing or a decimal number.** -/
theorem kept_run (value : ℤ) (events : List Event) :
    Kept ((Draft.opened value).run toLower events) := by
  have hall : ∀ d, Kept d → Kept (d.run toLower events) := by
    induction events with
    | nil => exact fun d h => h
    | cons event events ih => exact fun d h => ih _ (h.handleEvent event)
  exact hall _ ⟨.inl rfl, clampPercent_le value⟩

end Keys

lemma number_twoDigits {n : ℕ} : number (twoDigits n) = n := by
  unfold twoDigits number
  split
  · rw [singleton_append, ofDigitChars_cons]
    exact ofDigitChars_ten_toDigits
  · exact ofDigitChars_ten_toDigits

lemma length_twoDigits {n : ℕ} (h : n < 100) : (twoDigits n).length = 2 := by
  unfold twoDigits
  split
  · rename_i hlt
    rw [toDigits_of_lt_base hlt]
    rfl
  have hle : (toDigits 10 n).length ≤ 2 :=
    (length_toDigits_le_iff (by omega) (by omega)).mpr (by omega)
  have hgt : ¬(toDigits 10 n).length ≤ 1 := fun hle =>
    absurd ((length_toDigits_le_iff (by omega) (by omega)).mp hle) (by omega)
  rw [nil_append]
  omega

/-- **What is written for a value is read as it.** -/
theorem parse_format {units : ℕ} (h : units ≤ maxPercentUnits) :
    parsePercentInput (formatPercentUnits units) = some units := by
  rw [parsePercentInput_iff]
  refine ⟨⟨_, _, parts_format h, ?_⟩, h⟩
  rw [length_twoDigits (mod_lt _ (by omega)), replicate_zero, append_nil,
    number_twoDigits, number, ofDigitChars_ten_toDigits]
  omega

end C1auncher.BookReader.PercentInput
