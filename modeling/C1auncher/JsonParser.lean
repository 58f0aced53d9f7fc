import C1auncher.Json

/-!
Reading a JSON text.

The parser takes the whole grammar: blanks, numbers with fraction and exponent, all the escapes of a
string, nested arrays and objects. Of a number it keeps the literal, of an object the members in
their order.
-/

namespace C1auncher.JsonParser

open CString Json List Option Nat

/-! ### Blanks -/

def isBlank (c : Char) : Bool := c == ' ' || c == '\t' || c == '\n' || c == '\r'

def blanks (text : Text) : Text := text.dropWhile isBlank

@[simp] lemma blanks_nil : blanks [] = [] := rfl

lemma blanks_cons {c : Char} (h : isBlank c = false) (text : Text) :
    blanks (c :: text) = c :: text := by
  simp [blanks, h]

/-! ### Numbers -/

def digits (text : Text) : Option (Text × Text) :=
  if text.takeWhile Char.isDigit = [] then none
  else some (text.takeWhile Char.isDigit, text.dropWhile Char.isDigit)

/-- No digit follows a leading zero. -/
def integerPart : Text → Option (Text × Text)
  | '0' :: text => some (['0'], text)
  | text => digits text

def fractionPart : Text → Option (Text × Text)
  | '.' :: text => (digits text).map fun (word, rest) => ('.' :: word, rest)
  | text => some ([], text)

def exponentPart : Text → Option (Text × Text)
  | c :: text =>
    if c = 'e' ∨ c = 'E' then
      match text with
      | s :: more =>
        if s = '+' ∨ s = '-' then (digits more).map fun (word, rest) => (c :: s :: word, rest)
        else (digits text).map fun (word, rest) => (c :: word, rest)
      | [] => none
    else some ([], c :: text)
  | [] => some ([], [])

def unsigned (text : Text) : Option (Text × Text) := do
  let (whole, text) ← integerPart text
  let (fraction, text) ← fractionPart text
  let (exponent, text) ← exponentPart text
  pure (whole ++ fraction ++ exponent, text)

def number : Text → Option (Text × Text)
  | '-' :: text => (unsigned text).map fun (word, rest) => ('-' :: word, rest)
  | text => unsigned text

/-! ### Strings -/

/-- A character of a string, or a code unit written as four hexadecimal digits. -/
inductive Piece
  | char (c : Char)
  | unit (n : ℕ)
  deriving DecidableEq

def hexDigit (c : Char) : Option ℕ :=
  if c.isDigit then some (c.toNat - 48)
  else if 'a' ≤ c ∧ c ≤ 'f' then some (c.toNat - 87)
  else if 'A' ≤ c ∧ c ≤ 'F' then some (c.toNat - 55)
  else none

def codeUnit (a b c d : Char) : Option ℕ := do
  let a ← hexDigit a
  let b ← hexDigit b
  let c ← hexDigit c
  let d ← hexDigit d
  pure (4096 * a + 256 * b + 16 * c + d)

def escaped (c : Char) : Option Char :=
  if c = '"' ∨ c = '\\' ∨ c = '/' then some c
  else if c = 'b' then some (Char.ofNat 8)
  else if c = 'f' then some (Char.ofNat 12)
  else if c = 'n' then some '\n'
  else if c = 'r' then some '\r'
  else if c = 't' then some '\t'
  else none

/-- The pieces up to the closing quote. A control character must be escaped. -/
def pieces : Text → Option (List Piece × Text)
  | [] => none
  | '"' :: text => some ([], text)
  | '\\' :: 'u' :: a :: b :: c :: d :: text => do
    let n ← codeUnit a b c d
    let (more, rest) ← pieces text
    pure (.unit n :: more, rest)
  | '\\' :: c :: text => do
    let c ← escaped c
    let (more, rest) ← pieces text
    pure (.char c :: more, rest)
  | c :: text =>
    if c.toNat < 32 ∨ c = '\\' then none
    else (pieces text).map fun (more, rest) => (.char c :: more, rest)

def isHigh (n : ℕ) : Bool := 0xd800 ≤ n && n < 0xdc00

def isLow (n : ℕ) : Bool := 0xdc00 ≤ n && n < 0xe000

/-- The characters of the pieces: two surrogates make one, and none stands alone. -/
def join : List Piece → Option Text
  | [] => some []
  | .char c :: more => (join more).map (c :: ·)
  | .unit n :: .unit m :: more =>
    if isHigh n && isLow m then
      (join more).map (Char.ofNat (0x10000 + 1024 * (n - 0xd800) + (m - 0xdc00)) :: ·)
    else if isHigh n || isLow n then none
    else (join (.unit m :: more)).map (Char.ofNat n :: ·)
  | .unit n :: more =>
    if isHigh n || isLow n then none else (join more).map (Char.ofNat n :: ·)

def string (text : Text) : Option (Text × Text) := do
  let (found, rest) ← pieces text
  let word ← join found
  pure (word, rest)

/-! ### Values -/

def word (expected : Text) (value : Json) (text : Text) : Option (Json × Text) :=
  if expected.isPrefixOf text then some (value, text.drop expected.length) else none

mutual

def value : ℕ → Text → Option (Json × Text)
  | 0, _ => none
  | _ + 1, [] => none
  | fuel + 1, c :: text =>
    if c = '\x7b' then
      match blanks text with
      | '\x7d' :: rest => some (.object [], rest)
      | text => (members fuel text).map fun (found, rest) => (.object found, rest)
    else if c = '[' then
      match blanks text with
      | ']' :: rest => some (.array [], rest)
      | text => (items fuel text).map fun (found, rest) => (.array found, rest)
    else if c = '"' then (string text).map fun (found, rest) => (.string found, rest)
    else if c = 't' then word "rue".toList (.bool true) text
    else if c = 'f' then word "alse".toList (.bool false) text
    else if c = 'n' then word "ull".toList .null text
    else (number (c :: text)).map fun (found, rest) => (.number found, rest)

/-- The items of an array from one of them on, with the closing bracket. -/
def items : ℕ → Text → Option (List Json × Text)
  | 0, _ => none
  | fuel + 1, text => do
    let (found, rest) ← value fuel text
    match blanks rest with
    | ']' :: rest => pure ([found], rest)
    | ',' :: rest =>
      let (more, rest) ← items fuel (blanks rest)
      pure (found :: more, rest)
    | _ => none

/-- The members of an object from one of them on, with the closing brace. -/
def members : ℕ → Text → Option (List (Text × Json) × Text)
  | 0, _ => none
  | fuel + 1, text => do
    let (key, rest) ← match text with
      | '"' :: text => string text
      | _ => none
    let rest ← match blanks rest with
      | ':' :: rest => some (blanks rest)
      | _ => none
    let (found, rest) ← value fuel rest
    match blanks rest with
    | '\x7d' :: rest => pure ([(key, found)], rest)
    | ',' :: rest =>
      let (more, rest) ← members fuel (blanks rest)
      pure ((key, found) :: more, rest)
    | _ => none

end

/-- **A JSON text**: one value, with blanks around it. -/
def parse (text : Text) : Option Json := do
  let (found, rest) ← value (text.length + 1) (blanks text)
  if blanks rest = [] then some found else none

/-! ### What a string reads -/

lemma pieces_plain {c : Char} (hc : 32 ≤ c.toNat) (hq : c ≠ '"') (hb : c ≠ '\\') (text : Text) :
    pieces (c :: text) = (pieces text).map fun (more, rest) => (.char c :: more, rest) := by
  rw [pieces, if_neg (by rintro (h | h) <;> [omega; exact hb h])]
  · exact fun h => hq h
  · exact fun _ _ _ _ _ h => absurd h hb
  · exact fun _ _ h => absurd h hb

lemma pieces_escaped {e c : Char} (he : escaped e = some c) (text : Text) :
    pieces ('\\' :: e :: text) = (pieces text).map fun (more, rest) => (.char c :: more, rest) := by
  have hu : e ≠ 'u' := by
    rintro rfl
    rw [show escaped 'u' = none by decide] at he
    exact absurd he (by simp)
  rw [pieces, he]
  · cases pieces text <;> rfl
  · exact fun _ _ _ _ _ h => absurd h hu

lemma pieces_unit {a b c d : Char} {n : ℕ} (h : codeUnit a b c d = some n) (text : Text) :
    pieces ('\\' :: 'u' :: a :: b :: c :: d :: text) =
      (pieces text).map fun (more, rest) => (.unit n :: more, rest) := by
  rw [pieces, h]
  cases pieces text <;> rfl

lemma join_unit {n : ℕ} (hh : isHigh n = false) (hl : isLow n = false) (more : List Piece) :
    join (.unit n :: more) = (join more).map (Char.ofNat n :: ·) := by
  rcases more with _ | ⟨_ | m, more⟩ <;> simp [join, hh, hl]

/-! ### What a number reads -/

def integerOf : Text → Option ℤ
  | '-' :: word => (digits word).bind fun (found, rest) =>
      if rest = [] then some (-(Nat.ofDigitChars 10 found 0 : ℤ)) else none
  | word => (digits word).bind fun (found, rest) =>
      if rest = [] then some (Nat.ofDigitChars 10 found 0 : ℤ) else none

lemma digits_toDigits (n : ℕ) {rest : Text} (h : ∀ c ∈ rest.head?, c.isDigit = false) :
    digits (toDigits 10 n ++ rest) = some (toDigits 10 n, rest) := by
  have hdigits : ∀ c ∈ toDigits 10 n, c.isDigit := fun c hc =>
    isDigit_of_mem_toDigits (by omega) (by omega) hc
  have hrest : rest.takeWhile Char.isDigit = [] ∧ rest.dropWhile Char.isDigit = rest := by
    cases rest with
    | nil => exact ⟨rfl, rfl⟩
    | cons c rest =>
      have hc : c.isDigit = false := h c rfl
      simp [hc]
  rw [digits, takeWhile_append_of_pos hdigits, dropWhile_append_of_pos hdigits, hrest.1,
    hrest.2, append_nil, if_neg toDigits_ne_nil]

lemma integerPart_toDigits (n : ℕ) {rest : Text} (h : ∀ c ∈ rest.head?, c.isDigit = false) :
    integerPart (toDigits 10 n ++ rest) = some (toDigits 10 n, rest) := by
  have hdigits := digits_toDigits n h
  rcases hn : toDigits 10 n with _ | ⟨c, word⟩
  · exact absurd hn toDigits_ne_nil
  rw [hn] at hdigits
  by_cases hc : c = '0'
  · -- the only number that begins with a zero is the zero
    subst hc
    cases word with
    | nil => rfl
    | cons d word => exact absurd hn (toDigits_head_ne_zero n d word)
  · rw [cons_append] at hdigits ⊢
    rw [integerPart]
    · exact hdigits
    · exact fun _ h => hc (cons.inj h).1

def Ends (c : Char) : Prop := c.isDigit = false ∧ c ≠ '.' ∧ c ≠ 'e' ∧ c ≠ 'E'

lemma unsigned_toDigits (n : ℕ) {c : Char} (h : Ends c) (rest : Text) :
    unsigned (toDigits 10 n ++ c :: rest) = some (toDigits 10 n, c :: rest) := by
  obtain ⟨hd, hp, he, hE⟩ := h
  have hfraction : fractionPart (c :: rest) = some ([], c :: rest) := by
    rw [fractionPart]
    exact fun _ h => hp (cons.inj h).1
  have hexponent : exponentPart (c :: rest) = some ([], c :: rest) := by
    simp [exponentPart, he, hE]
  rw [unsigned, integerPart_toDigits n (by simpa using hd)]
  simp [hfraction, hexponent]

def literal (n : ℤ) : Text :=
  if n < 0 then '-' :: Nat.toDigits 10 n.natAbs else Nat.toDigits 10 n.natAbs

lemma toDigits_eq_cons (n : ℕ) : ∃ c word, toDigits 10 n = c :: word ∧ c.isDigit := by
  obtain ⟨c, word, h⟩ := exists_cons_of_ne_nil (toDigits_ne_nil (b := 10) (n := n))
  exact ⟨c, word, h, isDigit_of_mem_toDigits (b := 10) (n := n) (by omega) (by omega)
    (by rw [h]; exact mem_cons_self)⟩

lemma number_literal (n : ℤ) {c : Char} (h : Ends c) (rest : Text) :
    number (literal n ++ c :: rest) = some (literal n, c :: rest) := by
  have hu := unsigned_toDigits n.natAbs h rest
  by_cases hn : n < 0
  · simp [literal, hn, number, hu]
  rw [literal, if_neg hn]
  obtain ⟨d, word, hd, hdigit⟩ := toDigits_eq_cons n.natAbs
  rw [hd, cons_append] at hu ⊢
  rw [number]
  · exact hu
  rintro _ h
  rw [(cons.inj h).1] at hdigit
  exact absurd hdigit (by decide)

lemma integerOf_literal (n : ℤ) : integerOf (literal n) = some n := by
  have hdigits : digits (toDigits 10 n.natAbs) = some (toDigits 10 n.natAbs, []) := by
    simpa using digits_toDigits n.natAbs (show ∀ c ∈ ([] : Text).head?, c.isDigit = false by simp)
  by_cases hn : n < 0
  · rw [literal, if_pos hn, integerOf, hdigits]
    simp only [bind_some, if_true, ofDigitChars_ten_toDigits, some_inj]
    omega
  rw [literal, if_neg hn]
  obtain ⟨d, word, hd, hdigit⟩ := toDigits_eq_cons n.natAbs
  rw [integerOf]
  · rw [hdigits]
    simp only [bind_some, if_true, ofDigitChars_ten_toDigits, some_inj]
    omega
  rintro word' h
  rw [hd] at h
  rw [(cons.inj h).1] at hdigit
  exact absurd hdigit (by decide)

/-! ### Objects -/

lemma value_object {fuel : ℕ} {text : Text} {found : List (Text × Json)} {rest : Text}
    (h : members fuel ('"' :: text) = some (found, rest)) :
    value (fuel + 1) ('\x7b' :: '"' :: text) = some (.object found, rest) := by
  rw [value, if_pos rfl, blanks_cons (by decide)]
  simp [h]

lemma parse_of_value {text : Text} {found : Json} {rest : Text} (hb : blanks text = text)
    (h : value (text.length + 1) text = some (found, rest)) (hr : blanks rest = []) :
    parse text = some found := by
  rw [parse, hb, h]
  simp [hr]

end C1auncher.JsonParser
