import C1auncher.BookReader.Titles

/-!
The numbers of volume titles: positional digits of three scripts and Chinese numerals with units.
-/

namespace C1auncher.BookReader.VolumeNumber

open CString Runs BookReader.Titles List

def volumeNumberChar (c : Char) : Bool :=
  c.isDigit || ['０', '１', '２', '３', '４', '５', '６', '７', '８', '９'].contains c ||
    ['零', '〇', '一', '二', '三', '四', '五', '六', '七', '八', '九', '十', '百', '千', '两', '兩', '壹', '贰',
     '貳', '叁', '參', '肆', '伍', '陆', '陸', '柒', '捌', '玖', '拾', '佰', '仟'].contains c

def numberedVolumePattern : List (Run Char) :=
  [one ordinal, ⟨patternSpace, 0, none⟩, ⟨volumeNumberChar, 1, none⟩, ⟨patternSpace, 0, none⟩,
    one volumeUnit]

def reverseNumberedVolumePattern : List (Run Char) :=
  [one volumeUnit, ⟨patternSpace, 0, none⟩, ⟨volumeNumberChar, 1, none⟩]

def variants : List (Char × Char) :=
  [('壹', '一'), ('贰', '二'), ('貳', '二'), ('叁', '三'), ('參', '三'), ('肆', '四'), ('伍', '五'), ('陆', '六'),
    ('陸', '六'), ('柒', '七'), ('捌', '八'), ('玖', '九'), ('拾', '十'), ('佰', '百'), ('仟', '千'), ('两', '二'),
    ('兩', '二'), ('〇', '零')]

def plain (c : Char) : Char := (variants.lookup c).getD c

def chineseDigits : Text := ['零', '一', '二', '三', '四', '五', '六', '七', '八', '九']

def chineseDigit? (c : Char) : Option ℕ := chineseDigits.idxOf? c

/-- A digit of any script as an ASCII digit; other characters stay. -/
def asciiOf (c : Char) : Char :=
  if '0' ≤ c && c ≤ '9' then c
  else
    match ['０', '１', '２', '３', '４', '５', '６', '７', '８', '９'].idxOf? c with
    | some d => Nat.digitChar d
    | none =>
      match chineseDigit? c with
      | some d => Nat.digitChar d
      | none => c

def signed : Text → ℤ × Text
  | '-' :: digits => (-1, digits)
  | '+' :: digits => (1, digits)
  | digits => (1, digits)

/-- The library's decimal reader, for integers of 32 bits. -/
def atoi (text : Text) : Option ℤ :=
  let (sign, digits) := signed text
  if digits = [] || !digits.all Char.isDigit then none
  else
    let value := sign * (Nat.ofDigitChars 10 digits 0 : ℤ)
    if -2 ^ 31 ≤ value && value < 2 ^ 31 then some value else none

def unitOf (c : Char) : ℕ :=
  match ['十', '百', '千'].idxOf? c with
  | some 0 => 10
  | some 1 => 100
  | some _ => 1000
  | none => 0

/-- The sum of a numeral with units, which have to fall. -/
def unitForm (value pending previousUnit : ℕ) : Text → Option ℕ
  | [] => some (value + pending)
  | c :: rest =>
    match chineseDigit? c with
    | some digit => unitForm value digit previousUnit rest
    | none =>
      if unitOf c = 0 || previousUnit ≤ unitOf c then none
      else if pending = 0 then
        if value = 0 && unitOf c = 10 then unitForm (value + 1 * unitOf c) 0 (unitOf c) rest
        else none
      else unitForm (value + pending * unitOf c) 0 (unitOf c) rest

/-- One decimal place more of a numeral, and whether a zero is due. -/
def chinesePlace (number : ℕ) (state : Text × Bool) (place : ℕ × Text) : Text × Bool :=
  let digit := number / place.1 % 10
  if digit = 0 then (state.1, state.2 || state.1 ≠ [])
  else
    let result := state.1 ++ (if state.2 then ['零'] else [])
    let leading := place.1 = 10 && digit = 1 && result = []
    (result ++ (if leading then [] else [chineseDigits.getD digit '零']) ++ place.2, false)

def places : List (ℕ × Text) :=
  [(1000, ['千']), (100, ['百']), (10, ['十']), (1, [])]

def chineseNumber (number : ℕ) : Text := (places.foldl (chinesePlace number) ([], false)).1

/-- The number of a volume; one that is not accepted is dropped by every caller. -/
def parseVolumeNumber (text : Text) : Option ℕ :=
  let text := text.map plain
  match atoi (text.map asciiOf) with
  | some value => if 1 ≤ value && value ≤ 9999 then some value.toNat else none
  | none =>
    match unitForm 0 0 10000 text with
    | none => none
    | some value =>
      if value < 1 || 9999 < value then none
      else
        let canonical := chineseNumber value
        if text = canonical ||
          (10 ≤ value && value < 20 && text = ['一'] ++ canonical) then some value
        else none

def volumeNumber (title : Text) : Option (ℕ × Text) :=
  match capture ending numberedVolumePattern (trimSpace title) with
  | some ([_, _, number, _, unit], _) => (parseVolumeNumber number).map (·, unit)
  | _ =>
    match capture ending reverseNumberedVolumePattern (trimSpace title) with
    | some ([unit, _, number], _) => (parseVolumeNumber number).map (·, unit)
    | _ => none

example : volumeNumber "第贰拾壹卷 后续".toList = some (21, "卷".toList) := by decide

example : chineseNumber 1001 = "一千零一".toList := by decide

/-! ### The digits of the three scripts -/

def digitForms : List Text :=
  [['0', '０', '零', '〇'], ['1', '１', '一', '壹'],
    ['2', '２', '二', '贰', '貳', '两', '兩'], ['3', '３', '三', '叁', '參'],
    ['4', '４', '四', '肆'], ['5', '５', '五', '伍'],
    ['6', '６', '六', '陆', '陸'], ['7', '７', '七', '柒'],
    ['8', '８', '八', '捌'], ['9', '９', '九', '玖']]

def digitValue (c : Char) : Option ℕ := digitForms.findIdx? (·.contains c)

def known : Text := digitForms.flatten ++ ['十', '百', '千', '拾', '佰', '仟']

/-- What becomes of a character when digits are made ASCII. -/
structure Asciified (c : Char) (after : Char) : Prop where
  digit : ∀ d, digitValue c = some d → d < 10 ∧ after = Nat.digitChar d
  other : digitValue c = none → after.isDigit = false
  plus : after = '+' → c = '+'

instance (c after : Char) : Decidable (Asciified c after) :=
  decidable_of_iff ((∀ d ∈ digitValue c, d < 10 ∧ after = Nat.digitChar d) ∧
    (digitValue c = none → after.isDigit = false) ∧ (after = '+' → c = '+'))
    ⟨fun h => ⟨h.1, h.2.1, h.2.2⟩, fun h => ⟨h.digit, h.other, h.plus⟩⟩

variable {c : Char} {text : Text} {n d value pending previous number : ℕ}

lemma asciified_known (h : c ∈ known) : Asciified c (asciiOf (plain c)) := by
  have hall : (known.all fun c => Asciified c (asciiOf (plain c))) = true := by decide
  simpa using List.all_eq_true.mp hall c h

lemma not_mem_of_unknown (h : c ∉ known) {chars : Text}
    (hall : chars.all (known.contains ·) = true) : c ∉ chars := fun hc =>
  h (List.contains_iff_mem.mp (List.all_eq_true.mp hall c hc))

lemma digitValue_unknown (h : c ∉ known) : digitValue c = none := by
  unfold digitValue
  rw [findIdx?_eq_none_iff]
  intro form hform
  rw [contains_eq_mem, decide_eq_false_iff_not]
  exact fun hc => h (mem_append_left _ (List.mem_flatten.mpr ⟨form, hform, hc⟩))

lemma plain_unknown (h : c ∉ known) : plain c = c := by
  have hkeys : c ∉ variants.map Prod.fst := not_mem_of_unknown h (by decide)
  have hnone : variants.lookup c = none := by
    rw [lookup_eq_none_iff]
    intro pair hpair
    rw [bne_iff_ne]
    rintro rfl
    exact hkeys (mem_map_of_mem hpair)
  rw [plain, hnone]
  rfl

lemma asciiOf_unknown (h : c ∉ known) : asciiOf c = c := by
  have hwide : ['０', '１', '２', '３', '４', '５', '６', '７', '８', '９'].idxOf? c = none := by
    rw [idxOf?_eq_none_iff]
    exact not_mem_of_unknown h (by decide)
  have hchinese : chineseDigit? c = none := by
    rw [chineseDigit?, idxOf?_eq_none_iff]
    exact not_mem_of_unknown h (by decide)
  unfold asciiOf
  rw [hwide, hchinese]
  exact ite_self c

lemma mem_of_isDigit (h : c.isDigit) :
    c ∈ ['0', '1', '2', '3', '4', '5', '6', '7', '8', '9'] := by
  obtain ⟨hlo, hhi⟩ := Char.isDigit_iff_toNat.mp h
  have hc : c = Char.ofNat c.toNat := (Char.ofNat_toNat c).symm
  have hlo' : 48 ≤ c.toNat := hlo
  have hhi' : c.toNat ≤ 57 := hhi
  generalize c.toNat = n at hc hlo' hhi'
  subst hc
  interval_cases n <;> simp

lemma asciified (c : Char) : Asciified c (asciiOf (plain c)) := by
  by_cases hc : c ∈ known
  · exact asciified_known hc
  rw [plain_unknown hc, asciiOf_unknown hc]
  refine ⟨fun d hd => ?_, fun _ => ?_, id⟩
  · rw [digitValue_unknown hc] at hd
    cases hd
  · rw [Bool.eq_false_iff]
    exact fun hdigit => not_mem_of_unknown hc (by decide) (mem_of_isDigit hdigit)

/-- The digits of a number in any mixture of the scripts, and its value. -/
def Positional (text : Text) (n : ℕ) : Prop :=
  ∃ digits : List ℕ, digits ≠ [] ∧ text.map digitValue = digits.map some ∧
    digits.foldl (fun value digit => 10 * value + digit) 0 = n

/-- What the decimal reader sees of a text. -/
def asciiText (text : Text) : Text := (text.map plain).map asciiOf

lemma asciiText_cons (c : Char) (text : Text) :
    asciiText (c :: text) = asciiOf (plain c) :: asciiText text := rfl

lemma asciiText_of_digits {digits : List ℕ}
    (h : text.map digitValue = digits.map some) : asciiText text = digits.map Nat.digitChar ∧
      ∀ d ∈ digits, d < 10 := by
  induction text generalizing digits with
  | nil =>
    rcases digits with _ | ⟨d, digits⟩
    · exact ⟨rfl, by simp⟩
    · cases h
  | cons c text ih =>
    rcases digits with _ | ⟨d, digits⟩
    · cases h
    rw [map_cons, map_cons, cons.injEq] at h
    obtain ⟨hmore, hlt⟩ := ih h.2
    obtain ⟨hd, hc⟩ := (asciified c).digit d h.1
    exact ⟨by rw [asciiText_cons, hc, hmore, map_cons], List.forall_mem_cons.mpr ⟨hd, hlt⟩⟩

lemma digits_of_asciiText (h : ∀ c ∈ asciiText text, c.isDigit) :
    ∃ digits : List ℕ, text.map digitValue = digits.map some := by
  induction text with
  | nil => exact ⟨[], rfl⟩
  | cons c text ih =>
    rw [asciiText_cons] at h
    obtain ⟨hc, hmore⟩ := List.forall_mem_cons.mp h
    obtain ⟨digits, hdigits⟩ := ih hmore
    rcases hd : digitValue c with _ | d
    · rw [(asciified c).other hd] at hc
      cases hc
    · exact ⟨d :: digits, by rw [map_cons, map_cons, hd, hdigits]⟩

lemma ofDigitChars_digits {digits : List ℕ} (h : ∀ d ∈ digits, d < 10) (init : ℕ) :
    Nat.ofDigitChars 10 (digits.map Nat.digitChar) init =
      digits.foldl (fun value digit => 10 * value + digit) init := by
  induction digits generalizing init with
  | nil => exact Nat.ofDigitChars_nil
  | cons d digits ih =>
    obtain ⟨hd, hmore⟩ := List.forall_mem_cons.mp h
    rw [map_cons, Nat.ofDigitChars_cons_digitChar_of_lt_ten hd, foldl_cons, ih hmore]

lemma positional_iff : Positional text n ↔ asciiText text ≠ [] ∧
    (∀ c ∈ asciiText text, c.isDigit) ∧ Nat.ofDigitChars 10 (asciiText text) 0 = n := by
  constructor
  · rintro ⟨digits, hne, hdigits, rfl⟩
    obtain ⟨htext, hlt⟩ := asciiText_of_digits hdigits
    rw [htext, ofDigitChars_digits hlt]
    refine ⟨by simpa using hne, fun c hc => ?_, rfl⟩
    obtain ⟨d, hd, rfl⟩ := List.mem_map.mp hc
    rw [Nat.isDigit_digitChar, decide_eq_true_eq]
    exact hlt d hd
  · rintro ⟨hne, hall, rfl⟩
    obtain ⟨digits, hdigits⟩ := digits_of_asciiText hall
    obtain ⟨htext, hlt⟩ := asciiText_of_digits hdigits
    refine ⟨digits, ?_, hdigits, by rw [htext, ofDigitChars_digits hlt]⟩
    rintro rfl
    exact hne htext

lemma atoi_of_signed {digits : Text} {sign : ℤ} (h : signed text = (sign, digits))
    (hmax : n ≤ 9999) : atoi text = some (n : ℤ) ↔
      digits ≠ [] ∧ (∀ c ∈ digits, c.isDigit) ∧ sign * (Nat.ofDigitChars 10 digits 0 : ℤ) = n := by
  unfold atoi
  rw [h]
  dsimp only
  generalize sign * (Nat.ofDigitChars 10 digits 0 : ℤ) = value
  by_cases hdigits : digits ≠ [] ∧ ∀ c ∈ digits, c.isDigit
  · rw [if_neg (by simpa using hdigits)]
    constructor
    · intro hread
      split at hread
      · exact ⟨hdigits.1, hdigits.2, Option.some.inj hread⟩
      · cases hread
    · rintro ⟨-, -, rfl⟩
      rw [if_pos (by simp only [Bool.and_eq_true, decide_eq_true_eq]; omega)]
  · rw [if_pos (by simpa [or_iff_not_imp_left] using hdigits)]
    simp only [reduceCtorEq, false_iff]
    exact fun hread => hdigits ⟨hread.1, hread.2.1⟩

lemma signed_eq (text : Text) : signed text = (1, text) ∨
    (∃ digits, text = '+' :: digits ∧ signed text = (1, digits)) ∨
    ∃ digits, text = '-' :: digits ∧ signed text = (-1, digits) := by
  unfold signed
  split
  · exact .inr (.inr ⟨_, rfl, rfl⟩)
  · exact .inr (.inl ⟨_, rfl, rfl⟩)
  · exact .inl rfl

lemma not_digits_of_sign {digits : Text} (hc : c.isDigit = false) :
    ¬∀ d ∈ c :: digits, d.isDigit := fun h => by
  have := h c mem_cons_self
  rw [hc] at this
  cases this

lemma atoi_eq_some (hpos : 1 ≤ n) (hmax : n ≤ 9999) :
    atoi text = some (n : ℤ) ↔ ∃ digits, (text = digits ∨ text = '+' :: digits) ∧ digits ≠ [] ∧
      (∀ c ∈ digits, c.isDigit) ∧ Nat.ofDigitChars 10 digits 0 = n := by
  constructor
  · intro h
    rcases signed_eq text with hs | ⟨digits, rfl, hs⟩ | ⟨digits, rfl, hs⟩
    · rw [atoi_of_signed hs hmax, one_mul, Nat.cast_inj] at h
      exact ⟨text, .inl rfl, h⟩
    · rw [atoi_of_signed hs hmax, one_mul, Nat.cast_inj] at h
      exact ⟨digits, .inr rfl, h⟩
    · rw [atoi_of_signed hs hmax] at h
      omega
  · rintro ⟨digits, rfl | rfl, hne, hall, hvalue⟩
    · rcases signed_eq text with hs | ⟨_, rfl, -⟩ | ⟨_, rfl, -⟩
      · rw [atoi_of_signed hs hmax, one_mul, Nat.cast_inj]
        exact ⟨hne, hall, hvalue⟩
      · exact absurd hall (not_digits_of_sign (by decide))
      · exact absurd hall (not_digits_of_sign (by decide))
    · have hs : signed ('+' :: digits) = (1, digits) := rfl
      rw [atoi_of_signed hs hmax, one_mul, Nat.cast_inj]
      exact ⟨hne, hall, hvalue⟩

/-! ### Numerals with units -/

def chineseDigit (d : ℕ) : Char := chineseDigits.getD d '零'

lemma chineseDigit?_chineseDigit (h : d < 10) :
    chineseDigit? (chineseDigit d) = some d := by
  interval_cases d <;> decide

lemma unitForm_pair {unit : Char} (hd : d < 10) (hpos : d ≠ 0)
    (hdigit : chineseDigit? unit = none) (hunit : unitOf unit ≠ 0)
    (hbelow : unitOf unit < previous) (rest : Text) :
    unitForm value pending previous (chineseDigit d :: unit :: rest) =
      unitForm (value + d * unitOf unit) 0 (unitOf unit) rest := by
  rw [unitForm, chineseDigit?_chineseDigit hd]
  dsimp only
  rw [unitForm, hdigit]
  dsimp only
  rw [if_neg (by simpa [hunit] using hbelow), if_neg hpos]

lemma unitForm_zero (rest : Text) :
    unitForm value pending previous ('零' :: rest) = unitForm value 0 previous rest := rfl

lemma unitForm_last (h : d < 10) :
    unitForm value pending previous [chineseDigit d] = some (value + d) := by
  rw [unitForm, chineseDigit?_chineseDigit h]
  rfl

/-- What has been written of a number down to a decimal place, and how it is read. -/
structure Reads (number reached : ℕ) (state : Text × Bool) : Prop where
  reads : ∃ previous, reached ≤ previous ∧ ∀ rest, unitForm 0 0 10000 (state.1 ++ rest) =
    unitForm (number / reached * reached) 0 previous rest
  empty : state.1 = [] ↔ number / reached = 0
  unit : state.1 = [] ∨ ∃ c ∈ state.1, c ∈ ['十', '百', '千']
  plain : state.1.map VolumeNumber.plain = state.1

lemma reads_start (h : number ≤ 9999) : Reads number 10000 ([], false) := by
  have hzero : number / 10000 = 0 := Nat.div_eq_of_lt (by omega)
  refine ⟨⟨10000, le_rfl, fun rest => ?_⟩, by simp [hzero], .inl rfl, rfl⟩
  rw [hzero, Nat.zero_mul]
  rfl

lemma plain_chineseDigit (h : d < 10) : plain (chineseDigit d) = chineseDigit d := by
  interval_cases d <;> decide

lemma chinesePlace_zero {divisor : ℕ} {unit : Text} {state : Text × Bool}
    (h : number / divisor % 10 = 0) : chinesePlace number state (divisor, unit) =
      (state.1, state.2 || state.1 ≠ []) := by
  unfold chinesePlace
  rw [h]
  rfl

lemma chinesePlace_digit {number divisor : ℕ} {unit : Text} {state : Text × Bool}
    (h : number / divisor % 10 ≠ 0) : ∃ zero digit : Text,
      chinesePlace number state (divisor, unit) = (state.1 ++ zero ++ digit ++ unit, false) ∧
        (zero = [] ∨ zero = ['零']) ∧ (digit = [chineseDigit (number / divisor % 10)] ∨
          digit = [] ∧ divisor = 10 ∧ number / divisor % 10 = 1 ∧ state.1 = []) := by
  unfold chinesePlace
  dsimp only
  rw [if_neg h]
  refine ⟨if state.2 then ['零'] else [], _, rfl, by split <;> simp, ?_⟩
  generalize (if state.2 = true then ['零'] else []) = zero
  split
  · rename_i hleading
    simp only [Bool.and_eq_true, decide_eq_true_eq, append_eq_nil_iff] at hleading
    exact .inr ⟨rfl, hleading.1.1, hleading.1.2, hleading.2.1⟩
  · exact .inl rfl

lemma unitForm_skip {zero : Text} (h : zero = [] ∨ zero = ['零']) (value previous : ℕ)
    (rest : Text) : unitForm value 0 previous (zero ++ rest) = unitForm value 0 previous rest := by
  rcases h with rfl | rfl
  · rfl
  · exact unitForm_zero rest

lemma div_mul_succ (number p : ℕ) :
    number / (p * 10) * (p * 10) + number / p % 10 * p = number / p * p := by
  rw [← Nat.div_div_eq_div_mul, ← Nat.mul_assoc, Nat.mul_right_comm, ← Nat.add_mul,
    Nat.div_add_mod']

lemma Reads.place {p : ℕ} {unit : Char} {state : Text × Bool}
    (h : Reads number (p * 10) state) (hp : 0 < p) (hunit : unitOf unit = p)
    (hdigit : chineseDigit? unit = none) (hmem : unit ∈ ['十', '百', '千'])
    (hplain : VolumeNumber.plain unit = unit) :
    Reads number p (chinesePlace number state (p, [unit])) := by
  obtain ⟨previous, hprevious, hreads⟩ := h.reads
  have hvalue' := div_mul_succ number p
  have hhigh : number / (p * 10) = number / p / 10 := (Nat.div_div_eq_div_mul _ _ _).symm
  by_cases hd : number / p % 10 = 0
  · rw [chinesePlace_zero hd]
    rw [hd, Nat.zero_mul, Nat.add_zero] at hvalue'
    refine ⟨⟨previous, by omega, fun rest => by rw [hreads, hvalue']⟩, ?_, h.unit, h.plain⟩
    rw [h.empty, hhigh]
    omega
  · obtain ⟨zero, digit, hplace, hzero, hwritten⟩ :=
      @chinesePlace_digit number p [unit] state hd
    have hlt : number / p % 10 < 10 := Nat.mod_lt _ (by omega)
    rw [hplace]
    refine ⟨⟨p, le_rfl, fun rest => ?_⟩, ?_, .inr ⟨unit, by simp, hmem⟩, ?_⟩
    · dsimp only
      rw [append_assoc, append_assoc, append_assoc, hreads, unitForm_skip hzero, ← hvalue']
      rcases hwritten with rfl | ⟨rfl, rfl, hone, hempty⟩
      · rw [singleton_append, singleton_append,
          unitForm_pair hlt hd hdigit (by omega) (by omega), hunit]
      have hnone : number / (10 * 10) = 0 := h.empty.mp hempty
      rw [hnone, hone, nil_append, singleton_append, unitForm, hdigit]
      dsimp only
      rw [hunit, if_neg (by simp only [Bool.or_eq_true, decide_eq_true_eq]; omega), if_pos rfl,
        if_pos (by decide)]
    · simp only [append_eq_nil_iff, cons_ne_nil, and_false, false_iff]
      intro hz
      rw [hz] at hd
      exact hd rfl
    · dsimp only
      rw [map_append, map_append, map_append, h.plain]
      congr 1
      · congr 1
        · congr 1
          rcases hzero with rfl | rfl <;> rfl
        rcases hwritten with rfl | ⟨rfl, -⟩
        · rw [map_singleton, plain_chineseDigit hlt]
        · rfl
      · rw [map_singleton, hplain]

structure Numeral (number : ℕ) (text : Text) : Prop where
  reads : unitForm 0 0 10000 text = some number
  plain : text.map VolumeNumber.plain = text
  unit : 10 ≤ number → ∃ c ∈ text, c ∈ ['十', '百', '千']

lemma Reads.last {number : ℕ} {state : Text × Bool} (h : Reads number 10 state) :
    Numeral number (chinesePlace number state (1, [])).1 := by
  obtain ⟨previous, -, hreads⟩ := h.reads
  have hvalue := div_mul_succ number 1
  rw [Nat.one_mul, Nat.div_one, Nat.mul_one, Nat.mul_one] at hvalue
  have hunit : 10 ≤ number → ∃ c ∈ state.1, c ∈ ['十', '百', '千'] := fun hten => by
    rcases h.unit with hempty | hunit
    · have := h.empty.mp hempty
      omega
    · exact hunit
  by_cases hd : number / 1 % 10 = 0
  · rw [chinesePlace_zero hd]
    rw [Nat.div_one] at hd
    refine ⟨?_, h.plain, hunit⟩
    rw [← append_nil state.1, hreads]
    exact congrArg some (by omega)
  · obtain ⟨zero, digit, hplace, hzero, hwritten⟩ := @chinesePlace_digit number 1 [] state hd
    rw [Nat.div_one] at hd hwritten
    have hlt : number % 10 < 10 := Nat.mod_lt _ (by omega)
    obtain rfl : digit = [chineseDigit (number % 10)] :=
      hwritten.resolve_right fun hten => by simp at hten
    rw [hplace, append_nil]
    refine ⟨?_, ?_, fun hten => ?_⟩
    · rw [append_assoc, hreads, unitForm_skip hzero, unitForm_last hlt]
      exact congrArg some (by omega)
    · have hzeros : zero.map VolumeNumber.plain = zero := by rcases hzero with rfl | rfl <;> rfl
      rw [map_append, map_append, h.plain, hzeros, map_singleton, plain_chineseDigit hlt]
    · obtain ⟨c, hc, hmem⟩ := hunit hten
      exact ⟨c, mem_append_left _ (mem_append_left _ hc), hmem⟩

/-- **A numeral is read as the number it was written for.** -/
theorem numeral_chineseNumber (h : number ≤ 9999) :
    Numeral number (chineseNumber number) := by
  have hthousands : Reads number 1000 (chinesePlace number ([], false) (1000, ['千'])) :=
    (reads_start h).place (by omega) rfl rfl (by simp) rfl
  have hhundreds : Reads number 100 (chinesePlace number _ (100, ['百'])) :=
    hthousands.place (by omega) rfl rfl (by simp) rfl
  have htens : Reads number 10 (chinesePlace number _ (10, ['十'])) :=
    hhundreds.place (by omega) rfl rfl (by simp) rfl
  exact htens.last

/-! ### Which texts are numbers -/

/-- A Chinese numeral in canonical form, or a number from ten to nineteen with the one written. -/
def Canonical (text : Text) (n : ℕ) : Prop :=
  text.map plain = chineseNumber n ∨
    (10 ≤ n ∧ n < 20) ∧ text.map plain = '一' :: chineseNumber n

/-- Digits, perhaps behind a plus sign. -/
def Signed (text : Text) (n : ℕ) : Prop :=
  ∃ digits, (text = digits ∨ text = '+' :: digits) ∧ Positional digits n

lemma asciiText_plus {rest : Text} (h : asciiText text = '+' :: rest) :
    ∃ digits, text = '+' :: digits ∧ asciiText digits = rest := by
  rcases text with _ | ⟨c, text⟩
  · cases h
  · rw [asciiText_cons, cons.injEq] at h
    exact ⟨text, by rw [(asciified c).plus h.1], h.2⟩

lemma atoi_asciiText (hpos : 1 ≤ n) (hmax : n ≤ 9999) :
    atoi (asciiText text) = some (n : ℤ) ↔ Signed text n := by
  rw [atoi_eq_some hpos hmax]
  constructor
  · rintro ⟨digits, heq | heq, hdigits⟩
    · subst heq
      exact ⟨text, .inl rfl, positional_iff.mpr hdigits⟩
    · obtain ⟨body, rfl, rfl⟩ := asciiText_plus heq
      exact ⟨body, .inr rfl, positional_iff.mpr hdigits⟩
  · rintro ⟨digits, rfl | rfl, hdigits⟩
    · exact ⟨_, .inl rfl, positional_iff.mp hdigits⟩
    · exact ⟨_, .inr rfl, positional_iff.mp hdigits⟩

lemma sign_or_digit {value : ℤ} (h : atoi text = some value)
    (hc : c ∈ text) : c.isDigit ∨ c = '+' ∨ c = '-' := by
  have hall : ∀ d ∈ (signed text).2, d.isDigit := by
    unfold atoi at h
    split at h
    rename_i hs
    rw [hs]
    by_contra hbad
    rw [if_pos (by simpa [or_iff_not_imp_left] using fun _ => hbad)] at h
    cases h
  rcases signed_eq text with hs | ⟨digits, rfl, hs⟩ | ⟨digits, rfl, hs⟩
  · rw [hs] at hall
    exact .inl (hall c hc)
  · rw [hs] at hall
    exact (List.mem_cons.mp hc).elim (fun h => .inr (.inl h)) fun h => .inl (hall c h)
  · rw [hs] at hall
    exact (List.mem_cons.mp hc).elim (fun h => .inr (.inr h)) fun h => .inl (hall c h)

lemma atoi_of_unit (hc : c ∈ text) (hunit : c ∈ ['十', '百', '千']) :
    atoi (text.map asciiOf) = none := by
  rw [Option.eq_none_iff_forall_ne_some]
  intro value h
  have hascii := sign_or_digit h (mem_map_of_mem hc)
  simp only [mem_cons, not_mem_nil, or_false] at hunit
  rcases hunit with rfl | rfl | rfl <;> revert hascii <;> decide

lemma parse_of_numeral (hpos : 1 ≤ n) (hmax : n ≤ 9999)
    (htext : text.map plain = chineseNumber n) : parseVolumeNumber text = some n := by
  by_cases hten : 10 ≤ n
  · have hnumeral := numeral_chineseNumber hmax
    obtain ⟨c, hc, hunit⟩ := hnumeral.unit hten
    unfold parseVolumeNumber
    dsimp only
    rw [htext, atoi_of_unit hc hunit, hnumeral.reads]
    dsimp only
    rw [if_neg (by simp only [Bool.or_eq_true, decide_eq_true_eq]; omega), if_pos (by simp)]
  · unfold parseVolumeNumber
    dsimp only
    rw [htext]
    interval_cases n <;> decide

lemma parse_of_teen (hten : 10 ≤ n) (htwenty : n < 20)
    (htext : text.map plain = '一' :: chineseNumber n) : parseVolumeNumber text = some n := by
  unfold parseVolumeNumber
  dsimp only
  rw [htext]
  interval_cases n <;> decide

/-- **What is accepted as a volume's number.** -/
theorem parseVolumeNumber_iff : parseVolumeNumber text = some n ↔
    (1 ≤ n ∧ n ≤ 9999) ∧ (Signed text n ∨ Canonical text n) := by
  constructor
  · intro h
    unfold parseVolumeNumber at h
    dsimp only at h
    split at h
    · rename_i value hvalue
      split at h
      · rename_i hrange
        simp only [Bool.and_eq_true, decide_eq_true_eq] at hrange
        obtain rfl := Option.some.inj h
        have hcast : (value.toNat : ℤ) = value := Int.toNat_of_nonneg (by omega)
        have hsome : atoi (asciiText text) = some (value.toNat : ℤ) := hvalue.trans (by rw [hcast])
        exact ⟨by omega, .inl ((atoi_asciiText (by omega) (by omega)).mp hsome)⟩
      · cases h
    · split at h
      · cases h
      rename_i value _
      split at h
      · cases h
      rename_i hrange
      simp only [Bool.or_eq_true, decide_eq_true_eq] at hrange
      split at h
      · rename_i hcanonical
        obtain rfl := Option.some.inj h
        refine ⟨by omega, .inr ?_⟩
        simpa [Canonical] using hcanonical
      · cases h
  · rintro ⟨⟨hpos, hmax⟩, hsigned | hcanonical | ⟨hteen, hcanonical⟩⟩
    · have hsome := (atoi_asciiText hpos hmax).mpr hsigned
      unfold parseVolumeNumber
      dsimp only
      rw [← asciiText, hsome]
      dsimp only
      rw [if_pos (by simp only [Bool.and_eq_true, decide_eq_true_eq]; omega), Int.toNat_natCast]
    · exact parse_of_numeral hpos hmax hcanonical
    · exact parse_of_teen hteen.1 hteen.2 hcanonical

/-- **The reader undoes the writer.** -/
theorem parseVolumeNumber_chineseNumber (hpos : 1 ≤ n) (hmax : n ≤ 9999) :
    parseVolumeNumber (chineseNumber n) = some n :=
  parse_of_numeral hpos hmax (numeral_chineseNumber hmax).plain

end C1auncher.BookReader.VolumeNumber
