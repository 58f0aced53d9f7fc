import C1auncher.JsonParser
import C1auncher.Utf8Bytes

/-!
Structured log records, written as one line of JSON each.

The code works on bytes; a byte that is not ASCII passes through. What a reader makes of a line is
said of the characters that the bytes encode.
-/

namespace C1auncher.Records.Ndjson

open CString Json JsonParser Utf8Bytes List Nat

/-! ### Records -/

/-- A `const char *`: the bytes before the terminator. -/
structure CStr where
  bytes : Bytes
  nonzero : 0 ∉ bytes

def CStr.Encodes (s : CStr) (text : Text) : Prop := s.bytes = encode text

inductive FieldValue
  | text (value : CStr)
  | integer (value : Int64)
  | boolean (value : Bool)

structure Field where
  name : CStr
  value : FieldValue

/-- `C1_RECORD_FIELD_CAPACITY` -/
def fieldCapacity : ℕ := 12

/-- `c1_record` -/
structure Record where
  category : CStr
  event : CStr
  fields : List Field
  count_le : fields.length ≤ fieldCapacity

inductive Status
  | ok
  | ioError
  | invalidArgument
  deriving DecidableEq

/-- `c1_record_init` -/
def recordInit (category event : CStr) : Record := ⟨category, event, [], by simp⟩

/-- `add_field` -/
def addField (record : Record) (name : CStr) (value : FieldValue) : Status × Record :=
  if h : record.fields.length < fieldCapacity then
    (.ok, { record with fields := record.fields ++ [⟨name, value⟩], count_le := by simpa using h })
  else (.invalidArgument, record)

/-- `c1_record_add_text` -/
def recordAddText (record : Record) (name value : CStr) : Status × Record :=
  addField record name (.text value)

/-- `c1_record_add_integer` -/
def recordAddInteger (record : Record) (name : CStr) (value : Int64) : Status × Record :=
  addField record name (.integer value)

/-- `c1_record_add_boolean` -/
def recordAddBoolean (record : Record) (name : CStr) (value : Bool) : Status × Record :=
  addField record name (.boolean value)

/-! ### Writing -/

/-- A stream, and how the next calls on it end: well, or with an error after some of the bytes. A
call that is not listed ends well. -/
structure Output where
  written : Bytes
  outcomes : List (Option ℕ)
  deriving DecidableEq

/-- `fputc`, `fputs`, `fprintf` and `fflush`, which writes nothing here. -/
def put (bytes : Bytes) (stream : Output) : Bool × Output :=
  match stream.outcomes with
  | [] => (true, ⟨stream.written ++ bytes, []⟩)
  | none :: outcomes => (true, ⟨stream.written ++ bytes, outcomes⟩)
  | some n :: outcomes => (false, ⟨stream.written ++ bytes.take n, outcomes⟩)

/-- One after the other, until one fails. -/
def putAll : List Bytes → Output → Bool × Output
  | [], stream => (true, stream)
  | bytes :: more, stream =>
    match put bytes stream with
    | (true, stream) => putAll more stream
    | (false, stream) => (false, stream)

/-- What `%x` writes of a number below sixteen. -/
def hexByte (n : UInt8) : UInt8 := if n < 10 then 48 + n else 87 + n

/-- The `switch` of `write_json_text`. -/
def escape (byte : UInt8) : Bytes :=
  if byte = 0x22 then ascii "\\\""
  else if byte = 0x5c then ascii "\\\\"
  else if byte = 0x08 then ascii "\\b"
  else if byte = 0x0c then ascii "\\f"
  else if byte = 0x0a then ascii "\\n"
  else if byte = 0x0d then ascii "\\r"
  else if byte = 0x09 then ascii "\\t"
  else if byte < 0x20 then ascii "\\u00" ++ [hexByte (byte / 16), hexByte (byte % 16)]
  else [byte]

/-- `write_json_text`, call by call. -/
def writeJsonText (value : CStr) : List Bytes :=
  ascii "\"" :: value.bytes.map escape ++ [ascii "\""]

def own (s : String) (h : 0 ∉ encode s.toList := by decide) : CStr := ⟨encode s.toList, h⟩

/-- What `%lld` writes. -/
def integerText (n : Int64) : Text := literal n.toInt

def writeValue : FieldValue → List Bytes
  | .text value => writeJsonText value
  | .integer value => [encode (integerText value)]
  | .boolean value => [if value then ascii "true" else ascii "false"]

def writeField (field : Field) : List Bytes :=
  ascii "," :: writeJsonText field.name ++ ascii ":" :: writeValue field.value

def writeRecord (record : Record) : List Bytes :=
  ascii "\x7b" :: writeJsonText (own "category") ++ ascii ":" :: writeJsonText record.category ++
    ascii "," :: writeJsonText (own "event") ++ ascii ":" :: writeJsonText record.event ++
    record.fields.flatMap writeField ++ [ascii "\x7d\n", []]

/-- `ndjson_emit` -/
def ndjsonEmit (record : Record) (stream : Output) : Status × Output :=
  match putAll (writeRecord record) stream with
  | (true, stream) => (.ok, stream)
  | (false, stream) => (.ioError, stream)

/-! ### The characters of a line -/

def escapeChar (c : Char) : Text :=
  if c = '"' then ['\\', '"']
  else if c = '\\' then ['\\', '\\']
  else if c = Char.ofNat 8 then ['\\', 'b']
  else if c = Char.ofNat 12 then ['\\', 'f']
  else if c = '\n' then ['\\', 'n']
  else if c = '\r' then ['\\', 'r']
  else if c = '\t' then ['\\', 't']
  else if c.toNat < 32 then
    ['\\', 'u', '0', '0', Nat.digitChar (c.toNat / 16), Nat.digitChar (c.toNat % 16)]
  else [c]

def quote (text : Text) : Text := '"' :: text.flatMap escapeChar ++ ['"']

def valueText : Json → Text
  | .string text => quote text
  | .number literal => literal
  | .bool b => if b then "true".toList else "false".toList
  | _ => []

def memberText (m : Text × Json) : Text := quote m.1 ++ ':' :: valueText m.2

def lineText (first : Text × Json) (more : List (Text × Json)) : Text :=
  '\x7b' :: memberText first ++ more.flatMap (fun m => ',' :: memberText m) ++ ['\x7d', '\n']

lemma escape_ascii : ∀ n < 128, (String.utf8EncodeChar (Char.ofNat n)).flatMap escape =
    encode (escapeChar (Char.ofNat n)) := by
  decide

lemma escape_high {byte : UInt8} (h : 128 ≤ byte) : escape byte = [byte] := by
  have hne : ∀ b : UInt8, b < 128 → byte ≠ b := by
    rintro b hb rfl
    exact absurd h (UInt8.not_le.mpr hb)
  have h32 : ¬ byte < 0x20 := fun hlt =>
    absurd h (UInt8.not_le.mpr (UInt8.lt_trans hlt (by decide)))
  simp [escape, hne _ (show (0x22 : UInt8) < 128 by decide),
    hne _ (show (0x5c : UInt8) < 128 by decide),
    hne _ (show (0x08 : UInt8) < 128 by decide), hne _ (show (0x0c : UInt8) < 128 by decide),
    hne _ (show (0x0a : UInt8) < 128 by decide), hne _ (show (0x0d : UInt8) < 128 by decide),
    hne _ (show (0x09 : UInt8) < 128 by decide), h32]

lemma escapeChar_plain {c : Char} (hc : 32 ≤ c.toNat) (hq : c ≠ '"') (hb : c ≠ '\\') :
    escapeChar c = [c] := by
  have hne : ∀ d : Char, d.toNat < 32 → c ≠ d := by
    rintro d hd rfl
    omega
  simp [escapeChar, hq, hb, hne (Char.ofNat 8) (by decide), hne (Char.ofNat 12) (by decide),
    hne '\n' (by decide), hne '\r' (by decide), hne '\t' (by decide), show ¬ c.toNat < 32 by omega]

lemma ne_of_toNat {c d : Char} (h : d.toNat < c.toNat) : c ≠ d := by
  rintro rfl
  omega

lemma escape_utf8 (c : Char) :
    (String.utf8EncodeChar c).flatMap escape = encode (escapeChar c) := by
  by_cases hc : c.toNat < 128
  · have := escape_ascii c.toNat hc
    rwa [Char.ofNat_toNat] at this
  have hhigh : 128 ≤ c.toNat := by omega
  have hself : (String.utf8EncodeChar c).flatMap escape = String.utf8EncodeChar c := by
    calc (String.utf8EncodeChar c).flatMap escape
        = (String.utf8EncodeChar c).flatMap fun byte => [byte] :=
          flatMap_congr fun byte hb => escape_high (high_of_mem hhigh hb)
      _ = String.utf8EncodeChar c := by simp
  rw [hself, escapeChar_plain (by omega) (ne_of_toNat (lt_of_lt_of_le (by decide) hhigh))
    (ne_of_toNat (lt_of_lt_of_le (by decide) hhigh))]
  simp [encode]

lemma escape_encode (text : Text) :
    (encode text).flatMap escape = encode (text.flatMap escapeChar) := by
  induction text with
  | nil => rfl
  | cons c text ih =>
    rw [encode_cons, flatMap_append, escape_utf8, ih, flatMap_cons, encode_append]

lemma writeJsonText_flatten {value : CStr} {text : Text} (h : value.Encodes text) :
    (writeJsonText value).flatten = encode (quote text) := by
  have hmap : (value.bytes.map escape).flatten = encode (text.flatMap escapeChar) := by
    rw [← escape_encode, ← h, flatMap]
  simp only [writeJsonText, flatten_append, List.flatten_cons, hmap, flatten_nil,
    append_nil, quote, cons_append, encode_cons, encode_append, ascii]
  simp [encode]

inductive FieldValue.Reads : FieldValue → Json → Prop
  | text {value : CStr} {text : Text} (h : value.Encodes text) : Reads (.text value) (.string text)
  | integer {n : Int64} {literal : Text} (h : integerOf literal = some n.toInt) :
      Reads (.integer n) (.number literal)
  | boolean (b : Bool) : Reads (.boolean b) (.bool b)

def Field.Reads (field : Field) (m : Text × Json) : Prop :=
  field.name.Encodes m.1 ∧ field.value.Reads m.2

def FieldValue.Valid : FieldValue → Prop
  | .text value => ∃ text, value.Encodes text
  | _ => True

def Field.Valid (field : Field) : Prop := (∃ text, field.name.Encodes text) ∧ field.value.Valid

structure Record.Valid (record : Record) : Prop where
  category : ∃ text, record.category.Encodes text
  event : ∃ text, record.event.Encodes text
  fields : ∀ field ∈ record.fields, field.Valid

/-- A value that a field can have. -/
inductive Plain : Json → Prop
  | string (text : Text) : Plain (.string text)
  | number (n : ℤ) : Plain (.number (literal n))
  | bool (b : Bool) : Plain (.bool b)

lemma exists_value {value : FieldValue} (h : value.Valid) :
    ∃ json, Plain json ∧ value.Reads json ∧
      (writeValue value).flatten = encode (valueText json) := by
  cases value with
  | text value =>
    obtain ⟨text, ht⟩ := h
    exact ⟨.string text, .string text, .text ht, writeJsonText_flatten ht⟩
  | integer n =>
    refine ⟨.number (literal n.toInt), .number _, .integer (integerOf_literal _), ?_⟩
    simp [writeValue, valueText, integerText]
  | boolean b => exact ⟨.bool b, .bool b, .boolean b, by cases b <;> rfl⟩

lemma exists_field {field : Field} (h : field.Valid) :
    ∃ m : Text × Json, Plain m.2 ∧ field.Reads m ∧
      (writeField field).flatten = encode (',' :: memberText m) := by
  obtain ⟨⟨name, hname⟩, hvalue⟩ := h
  obtain ⟨json, hplain, hreads, hwrite⟩ := exists_value hvalue
  refine ⟨(name, json), hplain, ⟨hname, hreads⟩, ?_⟩
  simp only [writeField, flatten_append, List.flatten_cons, writeJsonText_flatten hname, hwrite,
    memberText, encode_cons, encode_append, ascii]
  simp [encode]

lemma exists_fields : ∀ {fields : List Field}, (∀ field ∈ fields, field.Valid) →
    ∃ ms : List (Text × Json), (∀ m ∈ ms, Plain m.2) ∧ Forall₂ Field.Reads fields ms ∧
      (fields.flatMap writeField).flatten = encode (ms.flatMap fun m => ',' :: memberText m)
  | [], _ => ⟨[], by simp, .nil, rfl⟩
  | field :: fields, h => by
    obtain ⟨m, hplain, hreads, hwrite⟩ := exists_field (h field (by simp))
    obtain ⟨ms, hplains, hall, hwrites⟩ := exists_fields fun f hf =>
      h f (mem_cons_of_mem _ hf)
    refine ⟨m :: ms, ?_, .cons hreads hall, ?_⟩
    · intro x hx
      rcases List.mem_cons.mp hx with rfl | hx
      · exact hplain
      · exact hplains x hx
    · rw [flatMap_cons, flatten_append, hwrite, hwrites, ← encode_append, flatMap_cons]

/-! ### Reading a line -/

lemma escapeChar_control : ∀ n < 32,
    (∃ e, escaped e = some (Char.ofNat n) ∧ escapeChar (Char.ofNat n) = ['\\', e]) ∨
    (∃ a b, codeUnit '0' '0' a b = some n ∧
      escapeChar (Char.ofNat n) = ['\\', 'u', '0', '0', a, b]) := by
  intro n hn
  interval_cases n
  case «8» => exact .inl ⟨'b', by decide⟩
  case «9» => exact .inl ⟨'t', by decide⟩
  case «10» => exact .inl ⟨'n', by decide⟩
  case «12» => exact .inl ⟨'f', by decide⟩
  case «13» => exact .inl ⟨'r', by decide⟩
  all_goals exact .inr ⟨_, _, by decide, rfl⟩

/-- **One character**: an escaped character is read as one piece, and the piece as the character. -/
lemma exists_piece (c : Char) : ∃ p : Piece,
    (∀ text, pieces (escapeChar c ++ text) =
      (pieces text).map fun (more, rest) => (p :: more, rest)) ∧
    ∀ more, join (p :: more) = (join more).map (c :: ·) := by
  by_cases hcontrol : c.toNat < 32
  · have hc := escapeChar_control c.toNat hcontrol
    rw [Char.ofNat_toNat] at hc
    rcases hc with ⟨e, he, hesc⟩ | ⟨a, b, hn, hesc⟩
    · exact ⟨.char c, fun text => by rw [hesc]; exact pieces_escaped he text, fun _ => rfl⟩
    · refine ⟨.unit c.toNat, fun text => by rw [hesc]; exact pieces_unit hn text, fun more => ?_⟩
      rw [join_unit (by simp [isHigh]; omega) (by simp [isLow]; omega), Char.ofNat_toNat]
  by_cases hq : c = '"'
  · subst hq
    exact ⟨.char '"', fun text => pieces_escaped (by decide) text, fun _ => rfl⟩
  by_cases hb : c = '\\'
  · subst hb
    exact ⟨.char '\\', fun text => pieces_escaped (by decide) text, fun _ => rfl⟩
  refine ⟨.char c, fun text => ?_, fun _ => rfl⟩
  rw [escapeChar_plain (by omega) hq hb]
  exact pieces_plain (by omega) hq hb text

lemma exists_pieces (text : Text) : ∃ found : List Piece, join found = some text ∧
    ∀ rest, pieces (text.flatMap escapeChar ++ '"' :: rest) = some (found, rest) := by
  induction text with
  | nil => exact ⟨[], rfl, fun rest => by simp [pieces]⟩
  | cons c text ih =>
    obtain ⟨found, hjoin, hfound⟩ := ih
    obtain ⟨p, hp, hj⟩ := exists_piece c
    refine ⟨p :: found, by rw [hj, hjoin]; rfl, fun rest => ?_⟩
    rw [flatMap_cons, append_assoc, hp, hfound]
    rfl

/-- **A string is read back**, whatever its characters are. -/
lemma string_quote (text rest : Text) :
    string (text.flatMap escapeChar ++ '"' :: rest) = some (text, rest) := by
  obtain ⟨found, hjoin, hfound⟩ := exists_pieces text
  simp [string, hfound, hjoin]

/-- What comes after a value in a line. -/
def Follows (c : Char) : Prop := c = ',' ∨ c = '\x7d'

lemma value_valueText {json : Json} (hp : Plain json) {c : Char} (hc : Follows c) (fuel : ℕ)
    (rest : Text) : value (fuel + 1) (valueText json ++ c :: rest) = some (json, c :: rest) := by
  cases hp with
  | string text =>
    have hread := string_quote text (c :: rest)
    simp only [valueText, quote, cons_append, append_assoc, nil_append]
    rw [value, if_neg (by decide), if_neg (by decide), if_pos rfl, hread]
    rfl
  | number n =>
    have hends : Ends c := by
      rcases hc with rfl | rfl <;> exact ⟨by decide, by decide, by decide, by decide⟩
    have hread := number_literal n hends rest
    have hhead : ∃ d word, literal n = d :: word ∧ (d = '-' ∨ d.isDigit) := by
      by_cases hn : n < 0
      · exact ⟨'-', _, by rw [literal, if_pos hn], .inl rfl⟩
      · obtain ⟨d, word, hd, hdigit⟩ := toDigits_eq_cons n.natAbs
        exact ⟨d, word, by rw [literal, if_neg hn, hd], .inr hdigit⟩
    obtain ⟨d, word, hd, hdigit⟩ := hhead
    have hne : ∀ x : Char, x ≠ '-' → x.isDigit = false → d ≠ x := by
      rintro x hx hxd rfl
      rcases hdigit with h | h
      · exact hx h
      · rw [hxd] at h
        exact absurd h (by simp)
    simp only [valueText]
    rw [hd, cons_append] at hread ⊢
    rw [value, if_neg (hne _ (by decide) (by decide)), if_neg (hne _ (by decide) (by decide)),
      if_neg (hne _ (by decide) (by decide)), if_neg (hne _ (by decide) (by decide)),
      if_neg (hne _ (by decide) (by decide)), if_neg (hne _ (by decide) (by decide)), hread]
    rfl
  | bool b => cases b <;> simp [valueText, value, word]

lemma blanks_valueText {json : Json} (hp : Plain json) (rest : Text) :
    blanks (valueText json ++ rest) = valueText json ++ rest := by
  cases hp with
  | string text => exact blanks_cons (by decide) _
  | number n =>
    by_cases hn : n < 0
    · simp only [valueText, literal, if_pos hn]
      exact blanks_cons (by decide) _
    obtain ⟨d, word, hd, hdigit⟩ := toDigits_eq_cons n.natAbs
    simp only [valueText, literal, if_neg hn, hd]
    refine blanks_cons ?_ _
    by_contra hblank
    simp only [isBlank, Bool.not_eq_false, Bool.or_eq_true, beq_iff_eq] at hblank
    rcases hblank with ((rfl | rfl) | rfl) | rfl <;> exact absurd hdigit (by decide)
  | bool b => cases b <;> exact blanks_cons (by decide) _

lemma members_text {m : Text × Json} (hp : Plain m.2) {ms : List (Text × Json)}
    (hps : ∀ x ∈ ms, Plain x.2) {fuel : ℕ} (hfuel : ms.length + 2 ≤ fuel) (rest : Text) :
    members fuel (memberText m ++ (ms.flatMap (fun x => ',' :: memberText x) ++ '\x7d' :: rest)) =
      some (m :: ms, rest) := by
  induction ms generalizing m fuel with
  | nil =>
    obtain ⟨fuel, rfl⟩ : ∃ n, fuel = n + 2 := ⟨fuel - 2, by simp at hfuel; omega⟩
    have hf : Follows '\x7d' := .inr rfl
    simp only [memberText, quote, cons_append, append_assoc, flatMap_nil, nil_append]
    rw [members]
    simp [string_quote, blanks_cons (show isBlank ':' = false by decide), blanks_valueText hp,
      value_valueText hp hf, blanks_cons (show isBlank '\x7d' = false by decide)]
  | cons x ms ih =>
    obtain ⟨fuel, rfl⟩ : ∃ n, fuel = n + 2 := ⟨fuel - 2, by simp at hfuel; omega⟩
    have hf : Follows ',' := .inl rfl
    have hlen : ms.length + 2 ≤ fuel + 1 := by
      simp at hfuel
      omega
    have hmore := ih (hps x (by simp)) (fun y hy => hps y (by simp [hy])) hlen
    have hquote : ∀ more, blanks (memberText x ++ more) = memberText x ++ more := fun more =>
      blanks_cons (by decide) _
    simp only [memberText, quote, cons_append, append_assoc, flatMap_cons,
      nil_append] at hmore hquote ⊢
    rw [members]
    simp [string_quote, blanks_cons (show isBlank ':' = false by decide), blanks_valueText hp,
      value_valueText hp hf, blanks_cons (show isBlank ',' = false by decide), hquote, hmore]

lemma length_flatMap_le (ms : List (Text × Json)) :
    ms.length ≤ (ms.flatMap fun m => ',' :: memberText m).length := by
  induction ms with
  | nil => simp
  | cons m ms ih =>
    rw [flatMap_cons, length_append, length_cons, length_cons]
    omega

lemma parse_lineText {m : Text × Json} (hp : Plain m.2) {ms : List (Text × Json)}
    (hps : ∀ x ∈ ms, Plain x.2) : parse (lineText m ms) = some (.object (m :: ms)) := by
  have hlen := length_flatMap_le ms
  have hfuel : ms.length + 2 ≤ (memberText m ++
      (ms.flatMap (fun x => ',' :: memberText x) ++ ['\x7d', '\n'])).length := by
    simp only [length_append, length_cons, length_nil]
    omega
  have hread := members_text hp hps (le_succ_of_le hfuel) ['\n']
  have hobject : memberText m ++ (ms.flatMap (fun x => ',' :: memberText x) ++ ['\x7d', '\n']) =
      '"' :: (m.1.flatMap escapeChar ++ '"' :: (':' :: valueText m.2 ++
        (ms.flatMap (fun x => ',' :: memberText x) ++ ['\x7d', '\n']))) := by
    simp [memberText, quote]
  have hread := members_text hp hps (le_succ_of_le hfuel) ['\n']
  rw [hobject] at hread
  rw [lineText, cons_append, cons_append, append_assoc, hobject]
  refine parse_of_value (blanks_cons (by decide) _) (value_object hread) rfl

/-! ### One line -/

lemma newline_not_mem_escapeChar (c : Char) : '\n' ∉ escapeChar c := by
  by_cases hc : c.toNat < 128
  · have hall : ∀ n < 128, '\n' ∉ escapeChar (Char.ofNat n) := by decide
    have := hall c.toNat hc
    rwa [Char.ofNat_toNat] at this
  have hhigh : 128 ≤ c.toNat := by omega
  rw [escapeChar_plain (by omega) (ne_of_toNat (lt_of_lt_of_le (by decide) hhigh))
    (ne_of_toNat (lt_of_lt_of_le (by decide) hhigh)), mem_singleton]
  rintro rfl
  exact hc (by decide)

lemma newline_not_mem_quote (text : Text) : '\n' ∉ quote text := by
  simp only [quote, cons_append, mem_cons, mem_append, mem_flatMap]
  rintro (h | ⟨c, -, h⟩ | h)
  · exact absurd h (by decide)
  · exact newline_not_mem_escapeChar c h
  · exact absurd h (by decide)

lemma newline_not_mem_memberText {m : Text × Json} (hp : Plain m.2) : '\n' ∉ memberText m := by
  rcases m with ⟨name, json⟩
  simp only [memberText, mem_append, mem_cons]
  rintro (h | h | h)
  · exact newline_not_mem_quote _ h
  · exact absurd h (by decide)
  cases hp with
  | string text => exact newline_not_mem_quote text h
  | number n =>
    have hdigits : '\n' ∉ toDigits 10 n.natAbs := fun hmem =>
      absurd (isDigit_of_mem_toDigits (by omega) (by omega) hmem) (by decide)
    simp only [valueText, literal] at h
    split_ifs at h
    · rcases List.mem_cons.mp h with h | h
      · exact absurd h (by decide)
      · exact hdigits h
    · exact hdigits h
  | bool b => cases b <;> exact absurd h (by decide)

lemma putAll_ok : ∀ {calls : List Bytes} {stream stream' : Output},
    putAll calls stream = (true, stream') → stream'.written = stream.written ++ calls.flatten
  | [], stream, stream', h => by
    obtain rfl : stream = stream' := congrArg Prod.snd h
    simp
  | bytes :: calls, ⟨written, outcomes⟩, stream', h => by
    rw [putAll] at h
    rcases outcomes with _ | ⟨_ | n, outcomes⟩
    all_goals simp only [put] at h
    · rw [putAll_ok h]
      simp
    · rw [putAll_ok h]
      simp
    · exact absurd (congrArg Prod.fst h) (by simp)

/-- A stream on which every call ends well. -/
def Output.Sound (stream : Output) : Prop := ∀ o ∈ stream.outcomes, o = none

lemma putAll_sound : ∀ {calls : List Bytes} {stream : Output}, stream.Sound →
    (putAll calls stream).1 = true
  | [], _, _ => rfl
  | bytes :: calls, ⟨written, outcomes⟩, h => by
    rw [putAll]
    rcases outcomes with _ | ⟨_ | n, outcomes⟩
    all_goals simp only [put]
    · exact putAll_sound h
    · have hs : Output.Sound ⟨written ++ bytes, outcomes⟩ := fun o ho =>
        h o (mem_cons_of_mem _ ho)
      exact putAll_sound hs
    · exact absurd (h (some n) mem_cons_self) (by simp)

/-- **The line of a record.** On a stream that takes it, a record is written as one line. Read as
JSON the line is one object: its members are the category, the event and the fields in their order,
with their names and values. -/
theorem ndjson_line (record : Record) (h : record.Valid) :
    ∃ (line : Text) (category event : Text) (members : List (Text × Json)),
      (∀ stream, (ndjsonEmit record stream).1 = .ok →
        (ndjsonEmit record stream).2.written = stream.written ++ encode line ++ [10]) ∧
      (∀ stream, stream.Sound → (ndjsonEmit record stream).1 = .ok) ∧ 10 ∉ encode line ∧
      parse (line ++ ['\n']) = some (.object (("category".toList, .string category) ::
        ("event".toList, .string event) :: members)) ∧
      record.category.Encodes category ∧ record.event.Encodes event ∧
      List.Forall₂ Field.Reads record.fields members := by
  obtain ⟨category, hcategory⟩ := h.category
  obtain ⟨event, hevent⟩ := h.event
  obtain ⟨ms, hplain, hreads, hwrite⟩ := exists_fields h.fields
  have hplains : ∀ x ∈ ("event".toList, Json.string event) :: ms, Plain x.2 := by
    intro x hx
    rcases List.mem_cons.mp hx with rfl | hx
    · exact .string event
    · exact hplain x hx
  set first : Text × Json := ("category".toList, .string category) with hfirst
  set second : Text × Json := ("event".toList, .string event) with hsecond
  set line : Text := '\x7b' :: memberText first ++
    (second :: ms).flatMap (fun m => ',' :: memberText m) ++ ['\x7d'] with hline
  have hbytes : (writeRecord record).flatten = encode line ++ [10] := by
    have hown : ∀ (s : String) (h : 0 ∉ encode s.toList),
        (writeJsonText (own s h)).flatten = encode (quote s.toList) := fun s h =>
      writeJsonText_flatten rfl
    simp only [writeRecord, flatten_append, List.flatten_cons, hown,
      writeJsonText_flatten hcategory, writeJsonText_flatten hevent, hwrite, hline, memberText,
      hfirst, hsecond, valueText, flatMap_cons, encode_cons, encode_append, cons_append, ascii]
    simp [encode, show String.utf8EncodeChar '\n' = [10] by decide]
  refine ⟨line, category, event, ms, fun stream hok => ?_, fun stream hs => ?_, ?_, ?_, hcategory,
    hevent, hreads⟩
  · rcases hput : putAll (writeRecord record) stream with ⟨_ | _, stream'⟩
    · simp [ndjsonEmit, hput] at hok
    · simp only [ndjsonEmit, hput]
      rw [putAll_ok hput, hbytes, append_assoc]
  · have hput : (putAll (writeRecord record) stream).1 = true := putAll_sound hs
    rw [ndjsonEmit]
    rcases hall : putAll (writeRecord record) stream with ⟨_ | _, stream'⟩
    · rw [hall] at hput
      exact absurd hput (by simp)
    · rfl
  · intro hmem
    have hline' : '\n' ∈ line := mem_of_ascii hmem (by decide)
    rw [hline] at hline'
    simp only [cons_append, mem_cons, mem_append, mem_flatMap, not_mem_nil, or_false] at hline'
    rcases hline' with h | (h | ⟨m, hm, h | h⟩) | h
    · exact absurd h (by decide)
    · exact newline_not_mem_memberText (.string category) h
    · exact absurd h (by decide)
    · exact newline_not_mem_memberText (hplains m (by simpa using hm)) h
    · exact absurd h (by decide)
  · have hparse := parse_lineText (m := first) (.string category) hplains
    rw [lineText] at hparse
    rw [hline, append_assoc]
    exact hparse

/-- A record whose text tries to close the object and the line. -/
def sample : Record where
  category := own "wifi"
  event := own "join"
  fields := [⟨own "ssid", .text (own "a\",\"b\":1\x7d\n")⟩, ⟨own "level", .integer (-60)⟩,
    ⟨own "open", .boolean true⟩]
  count_le := by decide

theorem ndjson_line_sample : ∃ members, List.Forall₂ Field.Reads sample.fields members ∧
    ∃ line, 10 ∉ encode line ∧ ∀ stream, (ndjsonEmit sample stream).1 = .ok →
      (ndjsonEmit sample stream).2.written = stream.written ++ encode line ++ [10] := by
  have hvalid : sample.Valid := by
    refine ⟨⟨_, rfl⟩, ⟨_, rfl⟩, ?_⟩
    intro field hf
    simp only [sample, mem_cons, not_mem_nil, or_false] at hf
    rcases hf with rfl | rfl | rfl
    · exact ⟨⟨_, rfl⟩, ⟨_, rfl⟩⟩
    · exact ⟨⟨_, rfl⟩, trivial⟩
    · exact ⟨⟨_, rfl⟩, trivial⟩
  obtain ⟨line, category, event, members, hok, -, hnl, -, -, -, hreads⟩ :=
    ndjson_line sample hvalid
  exact ⟨members, hreads, line, hnl, hok⟩

end C1auncher.Records.Ndjson
