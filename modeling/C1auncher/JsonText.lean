import C1auncher.JsonPrefix

/-!
The compact text of a JSON value, and that it is read back.

How the characters of a string are escaped is a parameter: any way that is read piece by piece.
-/

namespace C1auncher.JsonText

open CString Json JsonParser JsonPrefix List Option

/-- A value that is written: its strings are made of symbols, its numbers are integers. -/
inductive JsonTree (σ : Type)
  | null
  | bool (b : Bool)
  | number (n : ℤ)
  | string (symbols : List σ)
  | array (items : List (JsonTree σ))
  | object (fields : List (List σ × JsonTree σ))

/-- A way to write the symbols of a string: each of them is read as one piece, for one character. -/
structure Escape (σ : Type) where
  write : σ → Text
  char : σ → Char
  reads : ∀ x, ∃ p : Piece,
    (∀ text, pieces (write x ++ text) = (pieces text).map fun (more, rest) => (p :: more, rest)) ∧
    ∀ more, join (p :: more) = (join more).map (char x :: ·)

variable {σ : Type}

def Escape.string (e : Escape σ) (symbols : List σ) : Text :=
  '"' :: (symbols.flatMap e.write ++ ['"'])

mutual

def Escape.value (e : Escape σ) : JsonTree σ → Text
  | .null => ['n', 'u', 'l', 'l']
  | .bool b => if b then ['t', 'r', 'u', 'e'] else ['f', 'a', 'l', 's', 'e']
  | .number n => literal n
  | .string symbols => e.string symbols
  | .array items =>
    match items with
    | [] => ['[', ']']
    | item :: items => '[' :: (e.value item ++ (e.moreItems items ++ [']']))
  | .object fields =>
    match fields with
    | [] => ['\x7b', '\x7d']
    | field :: fields => '\x7b' :: (e.field field ++ (e.moreFields fields ++ ['\x7d']))

def Escape.moreItems (e : Escape σ) : List (JsonTree σ) → Text
  | [] => []
  | item :: items => ',' :: (e.value item ++ e.moreItems items)

def Escape.moreFields (e : Escape σ) : List (List σ × JsonTree σ) → Text
  | [] => []
  | field :: fields => ',' :: (e.field field ++ e.moreFields fields)

def Escape.field (e : Escape σ) : List σ × JsonTree σ → Text
  | (key, value) => e.string key ++ ':' :: e.value value

end

mutual

/-- What is read of a value. -/
def Escape.json (e : Escape σ) : JsonTree σ → Json
  | .null => .null
  | .bool b => .bool b
  | .number n => .number (literal n)
  | .string symbols => .string (symbols.map e.char)
  | .array items => .array (e.jsons items)
  | .object fields => .object (e.jsonFields fields)

def Escape.jsons (e : Escape σ) : List (JsonTree σ) → List Json
  | [] => []
  | item :: items => e.json item :: e.jsons items

def Escape.jsonFields (e : Escape σ) : List (List σ × JsonTree σ) → List (Text × Json)
  | [] => []
  | (key, value) :: fields => (key.map e.char, e.json value) :: e.jsonFields fields

end

variable {e : Escape σ} {rest : Text} {c : Char} {fuel : ℕ}

/-! ### Strings -/

/-- **A string is read back**, whatever its characters are. -/
theorem string_read (symbols : List σ) (rest : Text) :
    string (symbols.flatMap e.write ++ '"' :: rest) = some (symbols.map e.char, rest) := by
  have hpieces : ∃ found : List Piece, join found = some (symbols.map e.char) ∧
      ∀ rest, pieces (symbols.flatMap e.write ++ '"' :: rest) = some (found, rest) := by
    induction symbols with
    | nil => exact ⟨[], rfl, fun rest => by simp [pieces]⟩
    | cons x symbols ih =>
      obtain ⟨found, hjoin, hfound⟩ := ih
      obtain ⟨p, hp, hj⟩ := e.reads x
      refine ⟨p :: found, by rw [hj, hjoin]; rfl, fun rest => ?_⟩
      rw [flatMap_cons, append_assoc, hp, hfound]
      rfl
  obtain ⟨found, hjoin, hfound⟩ := hpieces
  simp [string, hfound, hjoin]

/-! ### Numbers -/

lemma literal_eq_cons (n : ℤ) : ∃ d word, literal n = d :: word ∧ (d = '-' ∨ d.isDigit) := by
  by_cases hn : n < 0
  · exact ⟨'-', _, by rw [literal, if_pos hn], .inl rfl⟩
  · obtain ⟨d, word, hd, hdigit⟩ := toDigits_eq_cons n.natAbs
    exact ⟨d, word, by rw [literal, if_neg hn, hd], .inr hdigit⟩

lemma ne_head {d : Char} (hd : d = '-' ∨ d.isDigit) {x : Char} (hx : x ≠ '-')
    (hdigit : x.isDigit = false) : d ≠ x := by
  rintro rfl
  rcases hd with h | h
  · exact hx h
  · rw [hdigit] at h
    cases h

lemma value_literal (n : ℤ) (hc : Ends c) (rest : Text) :
    value (fuel + 1) (literal n ++ c :: rest) = some (.number (literal n), c :: rest) := by
  have hread := number_literal n hc rest
  obtain ⟨d, word, hd, hdigit⟩ := literal_eq_cons n
  rw [hd, cons_append] at hread ⊢
  rw [value, if_neg (ne_head hdigit (by decide) (by decide)),
    if_neg (ne_head hdigit (by decide) (by decide)),
    if_neg (ne_head hdigit (by decide) (by decide)),
    if_neg (ne_head hdigit (by decide) (by decide)),
    if_neg (ne_head hdigit (by decide) (by decide)),
    if_neg (ne_head hdigit (by decide) (by decide)), hread]
  rfl

/-! ### Values -/

lemma value_eq_cons (tree : JsonTree σ) : ∃ d word, e.value tree = d :: word ∧
    isBlank d = false ∧ d ≠ ']' ∧ d ≠ '\x7d' := by
  cases tree with
  | null => exact ⟨_, _, rfl, by decide, by decide, by decide⟩
  | bool b => cases b <;> exact ⟨_, _, rfl, by decide, by decide, by decide⟩
  | number n =>
    obtain ⟨d, word, hd, hdigit⟩ := literal_eq_cons n
    refine ⟨d, word, by rw [Escape.value, hd], ?_, ne_head hdigit (by decide) (by decide),
      ne_head hdigit (by decide) (by decide)⟩
    have hne : ∀ x : Char, x ≠ '-' → x.isDigit = false → (d == x) = false := fun x hx hxd =>
      beq_eq_false_iff_ne.mpr (ne_head hdigit hx hxd)
    simp [isBlank, hne]
  | string symbols =>
    exact ⟨_, _, by rw [Escape.value, Escape.string], by decide, by decide, by decide⟩
  | array items =>
    cases items <;> exact ⟨_, _, by rw [Escape.value], by decide, by decide, by decide⟩
  | object fields =>
    cases fields <;> exact ⟨_, _, by rw [Escape.value], by decide, by decide, by decide⟩

lemma blanks_value (tree : JsonTree σ) (rest : Text) :
    blanks (e.value tree ++ rest) = e.value tree ++ rest := by
  obtain ⟨d, word, hd, hblank, -⟩ := value_eq_cons (e := e) tree
  rw [hd]
  exact blanks_cons hblank _

lemma length_value_pos (tree : JsonTree σ) : 0 < (e.value tree).length := by
  obtain ⟨d, word, hd, -⟩ := value_eq_cons (e := e) tree
  rw [hd]
  exact Nat.succ_pos _

lemma ends_comma : Ends ',' := ⟨by decide, by decide, by decide, by decide⟩

lemma ends_bracket : Ends ']' := ⟨by decide, by decide, by decide, by decide⟩

lemma ends_brace : Ends '\x7d' := ⟨by decide, by decide, by decide, by decide⟩

lemma value_array {item : JsonTree σ} {found : List Json} {text : Text}
    (h : items fuel (e.value item ++ text) = some (found, rest)) :
    value (fuel + 1) ('[' :: (e.value item ++ text)) = some (.array found, rest) := by
  obtain ⟨d, word, hd, hblank, hbracket, -⟩ := value_eq_cons (e := e) item
  rw [value, if_neg (by decide), if_pos rfl, blanks_value item]
  rw [hd, List.cons_append] at h ⊢
  split
  · rename_i hcons
    exact absurd (List.cons.inj hcons).1 hbracket
  · rw [h]
    rfl

/-- With so much fuel a value is read back, from any text that begins with it. -/
def ReadsValue (e : Escape σ) (fuel : ℕ) : Prop :=
  ∀ tree, (e.value tree).length ≤ fuel → ∀ {c : Char}, Ends c → ∀ rest,
    value fuel (e.value tree ++ c :: rest) = some (e.json tree, c :: rest)

def ReadsItems (e : Escape σ) (fuel : ℕ) : Prop :=
  ∀ item more, (e.value item).length + (e.moreItems more).length + 1 ≤ fuel → ∀ rest,
    items fuel (e.value item ++ (e.moreItems more ++ ']' :: rest)) =
      some (e.jsons (item :: more), rest)

def ReadsMembers (e : Escape σ) (fuel : ℕ) : Prop :=
  ∀ field more, (e.field field).length + (e.moreFields more).length + 1 ≤ fuel → ∀ rest,
    members fuel (e.field field ++ (e.moreFields more ++ '\x7d' :: rest)) =
      some (e.jsonFields (field :: more), rest)

lemma value_members {field : List σ × JsonTree σ} {text : Text} {found : List (Text × Json)}
    (h : members fuel (e.field field ++ text) = some (found, rest)) :
    value (fuel + 1) ('\x7b' :: (e.field field ++ text)) = some (.object found, rest) := by
  rw [Escape.field, Escape.string, cons_append, cons_append] at h ⊢
  exact value_object h

lemma readsValue (hitems : ReadsItems e fuel) (hmembers : ReadsMembers e fuel) :
    ReadsValue e (fuel + 1) := by
  intro tree hfuel c hc rest
  match tree with
  | .null => simp [Escape.value, Escape.json, value, word]
  | .bool b => cases b <;> simp [Escape.value, Escape.json, value, word]
  | .number n => exact value_literal n hc rest
  | .string symbols =>
    have hread := string_read (e := e) symbols (c :: rest)
    rw [Escape.value, Escape.string, cons_append, append_assoc, value,
      if_neg (by decide), if_neg (by decide), if_pos rfl]
    exact hread ▸ rfl
  | .array [] => simp [Escape.value, Escape.json, Escape.jsons, value, blanks, isBlank]
  | .array (item :: more) =>
    simp only [Escape.value, length_cons, length_append, length_nil] at hfuel
    have hread := hitems item more (by omega) (c :: rest)
    rw [Escape.value, cons_append, append_assoc, append_assoc]
    exact value_array hread
  | .object [] => simp [Escape.value, Escape.json, Escape.jsonFields, value, blanks, isBlank]
  | .object (field :: more) =>
    simp only [Escape.value, length_cons, length_append, length_nil] at hfuel
    have hread := hmembers field more (by omega) (c :: rest)
    rw [Escape.value, cons_append, append_assoc, append_assoc]
    exact value_members hread

lemma readsItems (hvalue : ReadsValue e fuel) (hitems : ReadsItems e fuel) :
    ReadsItems e (fuel + 1) := by
  intro item more hfuel rest
  match more with
  | [] =>
    have hread := hvalue item (by omega) ends_bracket rest
    rw [items, Escape.moreItems, nil_append, hread]
    simp [blanks, isBlank, Escape.jsons]
  | next :: more =>
    have hlen : (e.moreItems (next :: more)).length =
        (e.value next).length + (e.moreItems more).length + 1 := by
      rw [Escape.moreItems, length_cons, length_append]
    have hread := hvalue item (by omega) ends_comma
      (e.value next ++ (e.moreItems more ++ ']' :: rest))
    have hmore := hitems next more (by omega) rest
    rw [items, Escape.moreItems, cons_append, append_assoc, hread]
    simp [blanks_cons (show isBlank ',' = false by decide), blanks_value next, hmore,
      Escape.jsons]

lemma readsMembers (hvalue : ReadsValue e fuel) (hmembers : ReadsMembers e fuel) :
    ReadsMembers e (fuel + 1) := by
  intro field more hfuel rest
  obtain ⟨key, tree⟩ := field
  have hlen : (e.field (key, tree)).length =
      (e.string key).length + (e.value tree).length + 1 := by
    rw [Escape.field, length_append, length_cons]
    omega
  have hstring := string_read (e := e) key
  match more with
  | [] =>
    have hread := hvalue tree (by omega) ends_brace rest
    rw [Escape.moreFields, nil_append, Escape.field, Escape.string, cons_append,
      cons_append, members]
    simp [hstring, blanks_cons (show isBlank ':' = false by decide), blanks_value tree, hread,
      blanks_cons (show isBlank '\x7d' = false by decide), Escape.jsonFields]
  | next :: more =>
    have hnext : (e.moreFields (next :: more)).length =
        (e.field next).length + (e.moreFields more).length + 1 := by
      rw [Escape.moreFields, length_cons, length_append]
    have hread := hvalue tree (by omega) ends_comma
      (e.field next ++ (e.moreFields more ++ '\x7d' :: rest))
    have hmore := hmembers next more (by omega) rest
    have hquote : ∀ text, blanks (e.field next ++ text) = e.field next ++ text := fun text => by
      rw [Escape.field, Escape.string]
      exact blanks_cons (by decide) _
    rw [Escape.moreFields, Escape.field, Escape.string, cons_append, cons_append, members]
    simp [hstring, blanks_cons (show isBlank ':' = false by decide), blanks_value tree, hread,
      blanks_cons (show isBlank ',' = false by decide), hquote, hmore, Escape.jsonFields]

/-- What is written is read back, whatever the fuel is that its length asks for. -/
theorem reads (e : Escape σ) (fuel : ℕ) :
    ReadsValue e fuel ∧ ReadsItems e fuel ∧ ReadsMembers e fuel := by
  induction fuel with
  | zero =>
    refine ⟨?_, ?_, ?_⟩
    · intro tree hfuel
      have := length_value_pos (e := e) tree
      omega
    · intro item more hfuel
      omega
    · intro field more hfuel
      omega
  | succ fuel ih =>
    obtain ⟨hvalue, hitems, hmembers⟩ := ih
    exact ⟨readsValue hitems hmembers, readsItems hvalue hitems, readsMembers hvalue hmembers⟩

/-- **The text of an object is the text of nothing else.** -/
theorem parse_object (field : List σ × JsonTree σ) (more : List (List σ × JsonTree σ)) :
    parse (e.value (.object (field :: more))) = some (e.json (.object (field :: more))) := by
  have hlen : (e.value (.object (field :: more))).length =
      (e.field field).length + (e.moreFields more).length + 2 := by
    simp [Escape.value]
    omega
  have hread := (reads e (e.value (.object (field :: more))).length).2.2 field more (by omega) []
  rw [Escape.value] at hread ⊢
  exact parse_of_value (blanks_cons (by decide) _) (value_members hread) rfl

/-! ### A text that is cut off -/

/-- A mark that stands for bytes that could not be read: no value begins or ends with it. -/
structure Junk (x : Char) : Prop where
  blank : isBlank x = false
  brace : x ≠ '\x7d'
  value : ∀ fuel rest, value fuel (x :: rest) = none

lemma blanks_eq_nil {text : Text} (h : blanks text = []) : ∀ c ∈ text, isBlank c = true :=
  List.dropWhile_eq_nil_iff.mp h

/-- **The text of an object that is cut off is no text of a value**, with marks behind it or not. -/
theorem parse_cut {field : List σ × JsonTree σ} {more : List (List σ × JsonTree σ)} {whole rest : Text}
    (h : e.value (.object (field :: more)) = whole ++ rest) (hrest : rest ≠ []) {x : Char}
    (hx : Junk x) (k : ℕ) : parse (whole ++ List.replicate k x) = none := by
  rcases whole with _ | ⟨c, whole⟩
  · rcases k with _ | k
    · simp [parse, value]
    · rw [nil_append, replicate_succ, parse, blanks_cons hx.blank, hx.value]
      rfl
  have hbrace : c = '\x7b' ∧ e.field field ++ (e.moreFields more ++ ['\x7d']) = whole ++ rest := by
    rw [Escape.value, cons_append] at h
    exact ⟨(cons.inj h).1.symm, (cons.inj h).2⟩
  obtain ⟨rfl, hwhole⟩ := hbrace
  by_contra hparse
  obtain ⟨found, hfound⟩ := Option.ne_none_iff_exists'.mp hparse
  rw [parse, cons_append, blanks_cons (by decide)] at hfound
  obtain ⟨⟨found, left⟩, hvalue, hleft⟩ := bind_eq_some_iff.mp hfound
  have hblank : ∀ c ∈ left, isBlank c = true := by
    dsimp only at hleft
    split at hleft
    · exact blanks_eq_nil ‹_›
    · cases hleft
  obtain ⟨hsuffix, hkept⟩ := object_kept hvalue
  rcases k with _ | k
  · -- the whole text is read the same way, and to its end
    rw [replicate_zero, append_nil] at hkept
    obtain ⟨larger, hlarger⟩ : ∃ n, n = ('\x7b' :: whole ++ []).length +
        ((e.field field).length + (e.moreFields more).length + 1) := ⟨_, rfl⟩
    have hall := value_members ((reads e larger).2.2 field more (by omega) [])
    have hmore := hkept larger (by simp at hlarger ⊢; omega) rest
    rw [← hwhole, hall] at hmore
    exact hrest (append_eq_nil_iff.mp (Prod.mk.inj (some_inj.mp hmore)).2.symm).2
  · -- the last character is a mark
    have hlast : (whole ++ replicate (k + 1) x).getLast? = some x := by
      rw [replicate_succ', ← append_assoc, getLast?_concat]
    obtain ⟨front, hfront⟩ := hsuffix
    rw [← hfront] at hlast
    rcases eq_nil_or_concat' left with rfl | ⟨init, last, rfl⟩
    · rw [getLast?_concat] at hlast
      exact hx.brace (some_inj.mp hlast).symm
    have hsame : front ++ '\x7d' :: (init ++ [last]) = front ++ '\x7d' :: init ++ [last] := by simp
    rw [hsame, getLast?_concat] at hlast
    have hmem := hblank last (mem_append_right _ mem_cons_self)
    rw [some_inj.mp hlast, hx.blank] at hmem
    cases hmem

end C1auncher.JsonText
