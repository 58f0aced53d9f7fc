import C1auncher.JsonParser

/-!
What is read of a JSON text does not depend on what comes behind it: a text that is cut off inside
an object is none.
-/

namespace C1auncher.JsonPrefix

open CString Json JsonParser List Option

variable {text rest last : Text} {fuel : ℕ}

/-! ### Readers -/

/-- What a reader takes of a text ends with some characters, and where it ends it is read in
front of more text by a second reader. -/
def Kept {α : Type} (last : Text) (ends : α → Text → Prop) (read larger : Text → Option (α × Text))
    (text : Text) : Prop :=
  ∀ found rest, read text = some (found, rest) → last ++ rest <:+ text ∧
    (ends found rest → ∀ more, larger (text ++ more) = some (found, rest ++ more))

/-- More may belong to what was read only where nothing is left. -/
def Open {α : Type} (_ : α) (rest : Text) : Prop := rest ≠ []

def Always {α : Type} (_ : α) (_ : Text) : Prop := True

variable {α β : Type} {ends : α → Text → Prop} {ends' : β → Text → Prop}
  {read larger : Text → Option (α × Text)} {read' larger' : Text → Option (β × Text)}

lemma kept_none (h : read text = none) : Kept last ends read larger text := fun _ _ hread => by
  rw [h] at hread
  cases hread

lemma kept_some (front : Text) {a : α} (h : read (front ++ text) = some (a, text))
    (hlarger : ends a text → ∀ more, larger (front ++ text ++ more) = some (a, text ++ more)) :
    Kept [] ends read larger (front ++ text) := fun found rest hread => by
  rw [h] at hread
  cases hread
  exact ⟨suffix_append _ _, hlarger⟩

lemma Kept.after {read' larger' : Text → Option (α × Text)} (h : Kept last ends read larger text)
    (front : Text) (hread : read' (front ++ text) = read text)
    (hlarger : ∀ more, larger' (front ++ (text ++ more)) = larger (text ++ more)) :
    Kept [] ends read' larger' (front ++ text) := fun found rest hfound => by
  obtain ⟨hsuffix, hmore⟩ := h found rest (hread ▸ hfound)
  refine ⟨((suffix_append _ _).trans hsuffix).trans (suffix_append _ _),
    fun hends more => ?_⟩
  rw [append_assoc, hlarger, hmore hends]

lemma Kept.map (h : Kept last ends read larger text) (front : Text) (f : α → β)
    (hover : ∀ a rest, ends' (f a) rest → ends a rest)
    (hread : read' (front ++ text) = (read text).map (Prod.map f id))
    (hlarger : ∀ more, larger' (front ++ (text ++ more)) =
      (larger (text ++ more)).map (Prod.map f id)) :
    Kept last ends' read' larger' (front ++ text) := fun found rest hfound => by
  rw [hread] at hfound
  obtain ⟨⟨a, left⟩, ha, heq⟩ := map_eq_some_iff.mp hfound
  cases heq
  obtain ⟨hsuffix, hmore⟩ := h a left ha
  refine ⟨hsuffix.trans (suffix_append _ _), fun hclosed more => ?_⟩
  rw [append_assoc, hlarger, hmore (hover _ _ hclosed)]
  rfl

lemma Kept.bind {next next' : α → Text → Option (β × Text)} (h : Kept [] ends read larger text)
    (hnext : ∀ a left, Kept last ends' (next a) (next' a) left)
    (hover : ∀ a left b rest, next a left = some (b, rest) → ends' b rest → ends a left) :
    Kept last ends' (fun text => (read text).bind fun r => next r.1 r.2)
      (fun text => (larger text).bind fun r => next' r.1 r.2) text := fun found rest hfound => by
  obtain ⟨⟨a, left⟩, ha, hb⟩ := bind_eq_some_iff.mp hfound
  obtain ⟨hsuffix, hmore⟩ := h a left ha
  obtain ⟨hsuffix', hmore'⟩ := hnext a left found rest hb
  refine ⟨hsuffix'.trans hsuffix, fun hclosed more => ?_⟩
  dsimp only
  rw [hmore (hover _ _ _ _ hb hclosed) more]
  exact hmore' hclosed more

lemma open_of_suffix {a : α} {b : β} {left : Text} (h : rest <:+ left) (hopen : Open b rest) :
    Open a left := by
  rintro rfl
  exact hopen (List.suffix_nil.mp h)

/-! ### Blanks -/

lemma blanks_suffix (text : Text) : blanks text <:+ text := dropWhile_suffix _

lemma blanks_append (h : blanks text ≠ []) (more : Text) :
    blanks (text ++ more) = blanks text ++ more := by
  unfold blanks at h ⊢
  rw [dropWhile_append, if_neg (by simpa using h)]

lemma blanks_rest {d : Char} {left : Text} (h : blanks rest = d :: left) :
    rest ≠ [] ∧ d :: left <:+ rest ∧ ∀ more, blanks (rest ++ more) = d :: (left ++ more) := by
  have hne : blanks rest ≠ [] := by simp [h]
  refine ⟨?_, h ▸ blanks_suffix rest, fun more => ?_⟩
  · rintro rfl
    cases h
  · rw [blanks_append hne, h, cons_append]

/-! ### Numbers -/

lemma kept_digits : Kept [] Open digits digits text := by
  intro word rest h
  unfold digits at h ⊢
  split at h
  · cases h
  rename_i hword
  cases h
  refine ⟨dropWhile_suffix _, fun hne more => ?_⟩
  have hlen : (text.takeWhile Char.isDigit).length ≠ text.length := fun hlen => by
    have hsplit := congrArg List.length
      (takeWhile_append_dropWhile (p := Char.isDigit) (l := text))
    rw [length_append, hlen] at hsplit
    exact hne (length_eq_zero_iff.mp (by omega))
  have hleft : (text.dropWhile Char.isDigit).isEmpty = false := isEmpty_eq_false_iff.mpr hne
  rw [takeWhile_append, if_neg hlen, if_neg hword, dropWhile_append, hleft]
  rfl

lemma kept_integerPart : Kept [] Open integerPart integerPart text := by
  rcases text with _ | ⟨c, text⟩
  · exact kept_none rfl
  by_cases hc : c = '0'
  · subst hc
    exact kept_some ['0'] rfl fun _ _ => rfl
  have hdigits : ∀ text, integerPart (c :: text) = digits (c :: text) := fun text => by
    rw [integerPart]
    exact fun _ h => hc (cons.inj h).1
  exact kept_digits.after [] (hdigits _) fun _ => hdigits _

lemma kept_fractionPart : Kept [] Open fractionPart fractionPart text := by
  rcases text with _ | ⟨c, text⟩
  · exact kept_some [] rfl fun hne => absurd rfl hne
  by_cases hc : c = '.'
  · subst hc
    exact kept_digits.map ['.'] ('.' :: ·) (fun _ _ h => h) rfl fun _ => rfl
  have hnone : ∀ text, fractionPart (c :: text) = some ([], c :: text) := fun text => by
    rw [fractionPart]
    exact fun _ h => hc (cons.inj h).1
  exact kept_some [] (hnone _) fun _ _ => hnone _

lemma kept_exponentPart : Kept [] Open exponentPart exponentPart text := by
  rcases text with _ | ⟨c, text⟩
  · exact kept_some [] rfl fun hne => absurd rfl hne
  by_cases hc : c = 'e' ∨ c = 'E'
  · rcases text with _ | ⟨s, text⟩
    · exact kept_none (by rw [exponentPart, if_pos hc])
    by_cases hs : s = '+' ∨ s = '-'
    · have hsigned : ∀ text, exponentPart (c :: s :: text) =
          (digits text).map (Prod.map (c :: s :: ·) id) := fun text => by
        simp only [exponentPart, if_pos hc, if_pos hs]
        rfl
      exact kept_digits.map [c, s] (c :: s :: ·) (fun _ _ h => h) (hsigned _) fun _ => hsigned _
    · have hplain : ∀ text, exponentPart (c :: s :: text) =
          (digits (s :: text)).map (Prod.map (c :: ·) id) := fun text => by
        simp only [exponentPart, if_pos hc, if_neg hs]
        rfl
      exact kept_digits.map [c] (c :: ·) (fun _ _ h => h) (hplain _) fun _ => hplain _
  · have hnone : ∀ text, exponentPart (c :: text) = some ([], c :: text) := fun text => by
      simp [exponentPart, hc]
    exact kept_some [] (hnone _) fun _ _ => hnone _

lemma kept_unsigned : Kept [] Open unsigned unsigned text := by
  have hexponent (whole fraction left : Text) : Kept [] Open
      (fun text => (exponentPart text).map (Prod.map (whole ++ fraction ++ ·) id))
      (fun text => (exponentPart text).map (Prod.map (whole ++ fraction ++ ·) id)) left :=
    kept_exponentPart.map [] (whole ++ fraction ++ ·) (fun _ _ h => h) rfl fun _ => rfl
  have hfraction (whole left : Text) := (@kept_fractionPart left).bind (hexponent whole)
    fun a left b rest h => open_of_suffix (hexponent whole a left b rest h).1
  refine ((@kept_integerPart text).bind hfraction
    fun a left b rest h => open_of_suffix (hfraction a left b rest h).1).after [] ?_ fun more => ?_
  all_goals
    unfold unsigned
    simp only [map_eq_bind]
    rfl

lemma kept_number : Kept [] Open number number text := by
  rcases text with _ | ⟨c, text⟩
  · exact kept_none rfl
  by_cases hc : c = '-'
  · subst hc
    exact kept_unsigned.map ['-'] ('-' :: ·) (fun _ _ h => h) rfl fun _ => rfl
  have hplain : ∀ text, number (c :: text) = unsigned (c :: text) := fun text => by
    rw [number]
    exact fun _ h => hc (cons.inj h).1
  exact kept_unsigned.after [] (hplain _) fun _ => hplain _

/-! ### Strings -/

lemma kept_pieces : Kept [] Always pieces pieces text := by
  fun_induction pieces text with
  | case1 => exact kept_none rfl
  | case2 text => exact kept_some ['"'] (a := []) (by simp [pieces]) fun _ _ => by simp [pieces]
  | case3 a b c d text ih =>
    rcases hunit : codeUnit a b c d with _ | n
    · exact kept_none (by rw [pieces, hunit]; rfl)
    · exact ih.map ['\\', 'u', a, b, c, d] (.unit n :: ·) (fun _ _ h => h) (pieces_unit hunit _)
        fun _ => pieces_unit hunit _
  | case4 c text hu ih =>
    rcases hchar : escaped c with _ | d
    · exact kept_none (by rw [pieces, hchar]; exacts [rfl, hu])
    · exact ih.map ['\\', c] (.char d :: ·) (fun _ _ h => h) (pieces_escaped hchar _)
        fun _ => pieces_escaped hchar _
  | case5 c text hquote hunit hescape hplain =>
    exact kept_none (by rw [pieces, if_pos hplain] <;> assumption)
  | case6 c text hquote hunit hescape hplain ih =>
    obtain ⟨hlow, hslash⟩ := not_or.mp hplain
    exact ih.map [c] (.char c :: ·) (fun _ _ h => h)
      (pieces_plain (by omega) (fun hc => hquote hc) hslash _)
      fun _ => pieces_plain (by omega) (fun hc => hquote hc) hslash _

lemma kept_string : Kept [] Always string string text := by
  have hjoin (found : List Piece) (left : Text) : Kept [] Always
      (fun text => (join found).map (·, text)) (fun text => (join found).map (·, text)) left := by
    rcases join found with _ | word
    · exact kept_none rfl
    · exact kept_some [] rfl fun _ _ => rfl
  refine (kept_pieces.bind hjoin fun _ _ _ _ _ h => h).after [] ?_ fun more => ?_
  all_goals
    unfold string
    simp only [map_eq_bind]
    rfl

/-! ### Values -/

lemma kept_word {expected : Text} {json : Json} {ends : Json → Text → Prop} :
    Kept [] ends (word expected json) (word expected json) text := by
  intro found rest h
  unfold word at h ⊢
  split at h
  · rename_i hword
    cases h
    obtain ⟨left, rfl⟩ := isPrefixOf_iff_prefix.mp hword
    rw [drop_left]
    refine ⟨suffix_append _ _, fun _ more => ?_⟩
    rw [append_assoc, if_pos ( isPrefixOf_iff_prefix.mpr (prefix_append _ _)),
      drop_left]
  · cases h

/-- What comes after an opening bracket: the closing one, or what is between them. -/
def opening (close : Char) (empty : β) (f : α → β) (read : Text → Option (α × Text))
    (text : Text) : Option (β × Text) :=
  match blanks text with
  | c :: rest => if c = close then some (empty, rest) else (read (c :: rest)).map (Prod.map f id)
  | [] => none

/-- What comes after an element: the closing bracket, or a comma and more elements. -/
def closing (close : Char) (one : α) (f : α → α) (read : Text → Option (α × Text)) (text : Text) :
    Option (α × Text) :=
  match blanks text with
  | c :: rest =>
    if c = close then some (one, rest)
    else if c = ',' then (read (blanks rest)).map (Prod.map f id)
    else none
  | [] => none

variable {close : Char}

lemma kept_opening {empty : β} {f : α → β} (h : ∀ text, Kept [close] Always read larger text) :
    Kept [close] ends' (opening close empty f read) (opening close empty f larger) text := by
  intro found rest hfound
  unfold opening at hfound ⊢
  rcases hblanks : blanks text with _ | ⟨c, left⟩
  · rw [hblanks] at hfound
    cases hfound
  obtain ⟨-, hleft, hmore⟩ := blanks_rest hblanks
  simp only [hblanks] at hfound
  simp only [hmore]
  split_ifs at hfound ⊢ with hc
  · cases hfound
    exact ⟨hc ▸ hleft, fun _ _ => rfl⟩
  obtain ⟨⟨a, rest'⟩, ha, heq⟩ := map_eq_some_iff.mp hfound
  cases heq
  obtain ⟨hsuffix, hkept⟩ := h _ _ _ ha
  refine ⟨hsuffix.trans hleft, fun _ more => ?_⟩
  rw [← cons_append, hkept trivial]
  rfl

lemma kept_closing (one : α) (f : α → α) (h : ∀ text, Kept [close] Always read larger text)
    (hnil : read [] = none) :
    Kept [close] Always (closing close one f read) (closing close one f larger) text := by
  intro found rest hfound
  unfold closing at hfound ⊢
  rcases hblanks : blanks text with _ | ⟨c, left⟩
  · rw [hblanks] at hfound
    cases hfound
  obtain ⟨-, hleft, hmore⟩ := blanks_rest hblanks
  simp only [hblanks] at hfound
  simp only [hmore]
  split_ifs at hfound ⊢ with hc hcomma
  · cases hfound
    exact ⟨hc ▸ hleft, fun _ _ => rfl⟩
  obtain ⟨⟨a, rest'⟩, ha, heq⟩ := map_eq_some_iff.mp hfound
  cases heq
  obtain ⟨hsuffix, hkept⟩ := h _ _ _ ha
  refine ⟨(hsuffix.trans (blanks_suffix left)).trans ((suffix_cons _ _).trans hleft),
    fun _ more => ?_⟩
  have hne : blanks left ≠ [] := fun hempty => by
    rw [hempty, hnil] at ha
    cases ha
  rw [blanks_append hne, hkept trivial]
  rfl

lemma open_of_closing {one : α} {f : α → α} {found : α}
    (h : closing close one f read text = some (found, rest)) : text ≠ [] := by
  rintro rfl
  cases h

lemma value_nil : ∀ fuel, value fuel [] = none
  | 0 => by rw [value]
  | fuel + 1 => by rw [value]

lemma items_nil : ∀ fuel, items fuel [] = none
  | 0 => by rw [items]
  | fuel + 1 => by rw [items, value_nil]; rfl

lemma members_nil : ∀ fuel, members fuel [] = none
  | 0 => by rw [members]
  | fuel + 1 => by simp [members]

lemma items_succ (fuel : ℕ) (text : Text) : items (fuel + 1) text = (value fuel text).bind
    fun r => closing ']' [r.1] (r.1 :: ·) (items fuel) r.2 := by
  rw [items]
  rcases value fuel text with _ | ⟨found, rest⟩
  · rfl
  simp only [Option.bind_eq_bind, Option.bind_some, closing]
  rcases blanks rest with _ | ⟨c, left⟩
  · rfl
  by_cases hclose : c = ']'
  · subst hclose
    rfl
  by_cases hcomma : c = ','
  · subst hcomma
    simp only [Option.map_eq_bind]
    rfl
  · simp [hclose, hcomma]

/-- A key and the colon after it. -/
def keyed (text : Text) : Option (Text × Text) :=
  match text with
  | [] => none
  | c :: text =>
    if c = '"' then (string text).bind fun r =>
      match blanks r.2 with
      | [] => none
      | d :: rest => if d = ':' then some (r.1, blanks rest) else none
    else none

lemma members_succ (fuel : ℕ) (text : Text) : members (fuel + 1) text = (keyed text).bind fun k =>
    (value fuel k.2).bind fun r =>
      closing '\x7d' [(k.1, r.1)] ((k.1, r.1) :: ·) (members fuel) r.2 := by
  rcases text with _ | ⟨c, text⟩
  · rw [members_nil]
    rfl
  by_cases hquote : c = '"'
  swap
  · simp [members, keyed, hquote]
  subst hquote
  rw [members, keyed, if_pos rfl]
  rcases string text with _ | ⟨key, rest⟩
  · rfl
  simp only [bind_eq_bind, bind_some]
  rcases blanks rest with _ | ⟨d, left⟩
  · rfl
  by_cases hcolon : d = ':'
  swap
  · simp [hcolon]
  subst hcolon
  simp only [if_true, bind_some]
  rcases value fuel (blanks left) with _ | ⟨json, rest⟩
  · rfl
  simp only [bind_some, closing]
  rcases blanks rest with _ | ⟨c, left⟩
  · rfl
  by_cases hclose : c = '\x7d'
  · subst hclose
    rfl
  by_cases hcomma : c = ','
  · subst hcomma
    simp only [map_eq_bind]
    rfl
  · simp [hclose, hcomma]

lemma kept_keyed : Kept [] Open keyed keyed text := by
  rcases text with _ | ⟨c, text⟩
  · exact kept_none rfl
  by_cases hquote : c = '"'
  swap
  · exact kept_none (if_neg hquote)
  subst hquote
  have hcolon (key left : Text) : Kept [] Open (fun text => match blanks text with
      | [] => none
      | d :: rest => if d = ':' then some (key, blanks rest) else none) (fun text =>
      match blanks text with
      | [] => none
      | d :: rest => if d = ':' then some (key, blanks rest) else none) left := by
    intro found rest h
    dsimp only at h ⊢
    rcases hblanks : blanks left with _ | ⟨d, left'⟩
    · rw [hblanks] at h
      cases h
    obtain ⟨-, hleft, hmore⟩ := blanks_rest hblanks
    simp only [hblanks] at h
    simp only [hmore]
    split_ifs at h ⊢
    cases h
    exact ⟨(blanks_suffix left').trans ((suffix_cons _ _).trans hleft),
      fun hopen more => by rw [blanks_append hopen]⟩
  exact ((@kept_string text).bind hcolon fun _ _ _ _ _ _ => trivial).after ['"'] rfl fun _ => rfl

/-- Only of a number it can be open where it ends. -/
def Closed : Json → Text → Prop
  | .number _, rest => rest ≠ []
  | _, _ => True

lemma value_brace (fuel : ℕ) (text : Text) : value (fuel + 1) ('\x7b' :: text) =
    opening '\x7d' (.object []) .object (members fuel) text := by
  rw [value, if_pos rfl, opening]
  rcases blanks text with _ | ⟨c, left⟩
  · simp [members_nil]
  by_cases hclose : c = '\x7d'
  · subst hclose
    rfl
  · simp [hclose]
    rfl

lemma value_bracket (fuel : ℕ) (text : Text) : value (fuel + 1) ('[' :: text) =
    opening ']' (.array []) .array (items fuel) text := by
  rw [value, if_neg (by decide), if_pos rfl, opening]
  rcases blanks text with _ | ⟨c, left⟩
  · simp [items_nil]
  by_cases hclose : c = ']'
  · subst hclose
    rfl
  · simp [hclose]
    rfl

lemma value_number {c : Char} (hbrace : c ≠ '\x7b') (hbracket : c ≠ '[') (hquote : c ≠ '"')
    (htrue : c ≠ 't') (hfalse : c ≠ 'f') (hnull : c ≠ 'n') (fuel : ℕ) (text : Text) :
    value (fuel + 1) (c :: text) = (number (c :: text)).map (Prod.map .number id) := by
  rw [value, if_neg hbrace, if_neg hbracket, if_neg hquote, if_neg htrue, if_neg hfalse,
    if_neg hnull]
  rfl

/-- With so much fuel, what is read of a text stays the same in front of more text. -/
structure AllKept (fuel larger : ℕ) : Prop where
  value : ∀ text, Kept [] Closed (value fuel) (value larger) text
  items : ∀ text, Kept [']'] Always (items fuel) (items larger) text
  members : ∀ text, Kept ['\x7d'] Always (members fuel) (members larger) text

variable {more : ℕ}

lemma AllKept.value_succ (h : AllKept fuel more) :
    Kept [] Closed (JsonParser.value (fuel + 1)) (JsonParser.value (more + 1)) text := by
  rcases text with _ | ⟨c, text⟩
  · exact kept_none (value_nil _)
  by_cases hbrace : c = '\x7b'
  · subst hbrace
    exact (kept_opening (h.members)).after ['\x7b'] (value_brace _ _)
      fun _ => value_brace _ _
  by_cases hbracket : c = '['
  · subst hbracket
    exact (kept_opening (h.items)).after ['['] (value_bracket _ _)
      fun _ => value_bracket _ _
  by_cases hquote : c = '"'
  · subst hquote
    exact kept_string.map ['"'] .string (fun _ _ _ => trivial) rfl fun _ => rfl
  by_cases htrue : c = 't'
  · subst htrue
    exact kept_word.after ['t'] rfl fun _ => rfl
  by_cases hfalse : c = 'f'
  · subst hfalse
    exact kept_word.after ['f'] rfl fun _ => rfl
  by_cases hnull : c = 'n'
  · subst hnull
    exact kept_word.after ['n'] rfl fun _ => rfl
  have hnumber := value_number hbrace hbracket hquote htrue hfalse hnull
  exact kept_number.map [] .number (fun _ _ h => h) (hnumber _ _) fun _ => hnumber _ _

lemma AllKept.items_succ (h : AllKept fuel more) :
    Kept [']'] Always (JsonParser.items (fuel + 1)) (JsonParser.items (more + 1)) text := by
  intro found rest hread
  rw [JsonPrefix.items_succ] at hread
  simp only [JsonPrefix.items_succ]
  refine (h.value text).bind (fun r left => kept_closing [r] (r :: ·) h.items (items_nil fuel)) ?_
    found rest hread
  intro r left found rest hclosing _
  have hne := open_of_closing hclosing
  cases r <;> simp [Closed, hne]

lemma AllKept.members_succ (h : AllKept fuel more) :
    Kept ['\x7d'] Always (JsonParser.members (fuel + 1)) (JsonParser.members (more + 1)) text := by
  intro found rest hread
  rw [JsonPrefix.members_succ] at hread
  simp only [JsonPrefix.members_succ]
  refine (@kept_keyed text).bind (fun k left => (h.value left).bind
    (fun r left => kept_closing [(k, r)] ((k, r) :: ·) h.members (members_nil fuel)) ?_) ?_ found
    rest hread
  · intro r left found rest hclosing _
    have hne := open_of_closing hclosing
    cases r <;> simp [Closed, hne]
  rintro k left found rest hvalue - rfl
  rw [value_nil] at hvalue
  cases hvalue

/-- What is read of a text is read of it in front of more text, with any more fuel. -/
theorem allKept {fuel more : ℕ} (h : fuel ≤ more) : AllKept fuel more := by
  induction fuel generalizing more with
  | zero =>
    exact ⟨fun _ => kept_none (by rw [value]), fun _ => kept_none (by rw [items]),
      fun _ => kept_none (by rw [members])⟩
  | succ fuel ih =>
    obtain ⟨more, rfl⟩ : ∃ n, more = n + 1 := ⟨more - 1, by omega⟩
    have hall := ih (Nat.le_of_succ_le_succ h)
    exact ⟨fun _ => hall.value_succ, fun _ => hall.items_succ, fun _ => hall.members_succ⟩

/-- A text that begins with an object ends with its brace, and is read so in front of more. -/
theorem object_kept {found : Json} (h : value (fuel + 1) ('\x7b' :: text) = some (found, rest)) :
    '\x7d' :: rest <:+ text ∧ ∀ larger, fuel ≤ larger → ∀ more,
      value (larger + 1) ('\x7b' :: (text ++ more)) = some (found, rest ++ more) := by
  rw [value_brace] at h
  have hkept (larger : ℕ) (hlarger : fuel ≤ larger) : Kept ['\x7d'] Always
      (opening '\x7d' (Json.object []) Json.object (members fuel))
      (opening '\x7d' (Json.object []) Json.object (members larger)) text :=
    kept_opening (allKept hlarger).members
  refine ⟨(hkept fuel le_rfl found rest h).1, fun larger hlarger more => ?_⟩
  rw [value_brace]
  exact (hkept larger hlarger found rest h).2 trivial more

end C1auncher.JsonPrefix
