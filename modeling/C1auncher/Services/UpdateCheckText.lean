import C1auncher.CString

/-!
What the updater prints about a checked release, and what the desktop reads of it: two programs
with a grammar of numbers and of tokens each.
-/

namespace C1auncher.Services.UpdateCheckText

open CString List

/-- The first line, and the tag of the second one. -/
def checkPrefix : Text := "C1UPDATE-CHECK 1\nS\t".toList

/-- `"\nV\t"` -/
def versionTag : Text := ['\n', 'V', '\t']

/-- `"\nA\t"` -/
def availableTag : Text := ['\n', 'A', '\t']

/-- The text of `check_configured`. -/
def checkConfigured (sequence : UInt64) (version : Text) (available : Bool) : Text :=
  checkPrefix ++ decimal sequence ++ versionTag ++ version ++ availableTag ++
    [if available then '1' else '0', '\n']

/-- `C1_DESKTOP_JOB_OUTPUT_CAPACITY` -/
def outputCapacity : ℕ := 256

/-- The loop over the digits of the sequence, which stops at what is no digit. -/
def sequenceLoop : UInt64 → Text → Option (UInt64 × Text)
  | parsed, [] => some (parsed, [])
  | parsed, c :: cursor =>
    if '0' ≤ c && c ≤ '9' then
      if parsed > (0xffffffffffffffff - digitValue c) / 10 then none
      else sequenceLoop (parsed * 10 + digitValue c) cursor
    else some (parsed, c :: cursor)

/-- The loop over the characters of the version, which stops at the end of the line. -/
def versionLoop : Text → Option (Text × Text)
  | [] => some ([], [])
  | c :: cursor =>
    if c = '\n' then some ([], c :: cursor)
    else if !alphanumeric c && c != '.' && c != '+' && c != '_' && c != '-' then none
    else (versionLoop cursor).map fun (version, rest) => (c :: version, rest)

/-- What follows the digits of the sequence. -/
def parseVersion (cursor : Text) : Option Bool :=
  if cursor.length < 3 || cursor.take 3 != versionTag then none
  else
    match versionLoop (cursor.drop 3) with
    | none => none
    | some (version, rest) =>
      if version.length == 0 || version.length > tokenMax || !version.head?.all alphanumeric ||
          !version.getLast?.all alphanumeric || rest.length != 5 ||
          rest.take 3 != availableTag || (rest.getD 3 ' ' != '0' && rest.getD 3 ' ' != '1') ||
          rest.getD 4 ' ' != '\n' then none
      else some (rest.getD 3 ' ' == '1')

/-- The numbers `c1_desktop_update_parse` stores, if it accepts the text. -/
def parseCheck (text : Text) : Option (UInt64 × Bool) :=
  if text.length < checkPrefix.length + 1 || outputCapacity ≤ text.length ||
      text.contains '\x00' || !checkPrefix.isPrefixOf text then none
  else
    let cursor := text.drop checkPrefix.length
    if cursor.headD ' ' < '1' || '9' < cursor.headD ' ' then none
    else
      match sequenceLoop 0 cursor with
      | none => none
      | some (parsed, cursor) => (parseVersion cursor).map fun available => (parsed, available)

/-- `c1_desktop_update_parse` with its outputs, as they were and as they are. -/
def updateParse (text : Text) (outputs : UInt64 × Bool) : Bool × (UInt64 × Bool) :=
  match parseCheck text with
  | none => (false, outputs)
  | some parsed => (true, parsed)

/-! ### Versions -/

variable {version rest cursor : Text} {n : UInt64}

lemma versionLoop_append (h : ∀ c ∈ version, alphanumeric c || punctuation c) :
    versionLoop (version ++ '\n' :: rest) = some (version, '\n' :: rest) := by
  induction version with
  | nil => rfl
  | cons c version ih =>
    have hc := h c mem_cons_self
    have hline : c ≠ '\n' := by
      rintro rfl
      exact absurd hc (by decide)
    have htoken : ¬(!alphanumeric c && c != '.' && c != '+' && c != '_' && c != '-') = true := by
      simp only [punctuation, Bool.or_eq_true, beq_iff_eq] at hc
      rcases hc with hc | ((rfl | rfl) | rfl) | rfl
      · simp [hc]
      all_goals decide
    rw [cons_append, versionLoop, if_neg hline, if_neg htoken,
      ih fun c' hc' => h c' (mem_cons_of_mem _ hc')]
    rfl

lemma versionLoop_spec (h : versionLoop cursor = some (version, rest)) :
    cursor = version ++ rest ∧ (∀ c ∈ version, alphanumeric c || punctuation c) := by
  induction cursor generalizing version with
  | nil =>
    cases h
    exact ⟨rfl, nofun⟩
  | cons c cursor ih =>
    rw [versionLoop] at h
    split_ifs at h with hline htoken
    · cases h
      exact ⟨rfl, nofun⟩
    obtain ⟨⟨version', rest'⟩, hloop, hmap⟩ := Option.map_eq_some_iff.mp h
    cases hmap
    obtain ⟨hcursor, hall⟩ := ih hloop
    refine ⟨by rw [hcursor]; rfl, fun c' hc' => ?_⟩
    rcases List.mem_cons.mp hc' with rfl | hc'
    · simp only [Bool.and_eq_true, Bool.not_eq_true', bne_iff_ne, ne_eq] at htoken
      simp only [punctuation, Bool.or_eq_true, beq_iff_eq]
      grind
    · exact hall c' hc'

/-! ### Numbers -/

lemma sequenceLoop_spec {parsed : UInt64}
    (h : sequenceLoop parsed cursor = some (n, rest)) :
    ∃ digits, cursor = digits ++ rest ∧ parseDigits parsed digits = some n ∧
      ∀ c, rest.head? = some c → ¬c.isDigit := by
  induction cursor generalizing parsed with
  | nil =>
    cases h
    exact ⟨[], rfl, rfl, nofun⟩
  | cons c cursor ih =>
    rw [sequenceLoop] at h
    split_ifs at h with hdigit hfits
    · obtain ⟨digits, hcursor, hparse, hrest⟩ := ih h
      refine ⟨c :: digits, by rw [hcursor]; rfl, ?_, hrest⟩
      have hin : ¬(c < '0' || c > '9') = true := by
        simp only [Bool.and_eq_true, decide_eq_true_eq] at hdigit
        simp only [Bool.or_eq_true, decide_eq_true_eq, not_or, not_lt]
        exact hdigit
      rw [parseDigits, if_neg hin, if_neg hfits]
      exact hparse
    · cases h
      refine ⟨[], rfl, rfl, fun c' hc' hd => hdigit ?_⟩
      cases hc'
      simp only [Char.isDigit, Bool.and_eq_true, decide_eq_true_eq] at hd ⊢
      exact hd

lemma sequenceLoop_append {digits : Text} {parsed : UInt64}
    (h : parseDigits parsed digits = some n) (hrest : ∀ c, rest.head? = some c → ¬c.isDigit) :
    sequenceLoop parsed (digits ++ rest) = some (n, rest) := by
  induction digits generalizing parsed with
  | nil =>
    cases h
    rcases rest with _ | ⟨c, rest⟩
    · rfl
    have hc := hrest c rfl
    simp only [Char.isDigit, Bool.and_eq_true, decide_eq_true_eq] at hc
    have hstop : ¬('0' ≤ c && c ≤ '9') = true := by
      simp only [Bool.and_eq_true, decide_eq_true_eq]
      exact hc
    exact if_neg hstop
  | cons c digits ih =>
    rw [parseDigits] at h
    split_ifs at h with hdigit hfits
    have hin : ('0' ≤ c && c ≤ '9') = true := by
      simp only [Bool.or_eq_true, decide_eq_true_eq, not_or, not_lt] at hdigit
      simp only [Bool.and_eq_true, decide_eq_true_eq]
      exact hdigit
    rw [cons_append, sequenceLoop, if_pos hin, if_neg hfits]
    exact ih h

lemma parseCheck_sequence (hfirst : ¬(cursor.headD ' ' < '1' || '9' < cursor.headD ' ') = true)
    (h : sequenceLoop 0 cursor = some (n, rest)) : cursor = decimal n ++ rest ∧ n ≠ 0 := by
  obtain ⟨digits, rfl, hparse, hrest⟩ := sequenceLoop_spec h
  -- the first digit is there and is not a zero
  have hne : digits ≠ [] := by
    rintro rfl
    rcases rest with _ | ⟨c, rest⟩
    · exact hfirst (by decide)
    refine hrest c rfl ?_
    simp at hfirst
    simp only [Char.isDigit, Bool.and_eq_true, decide_eq_true_eq]
    exact ⟨le_trans (by decide : '0' ≤ '1') hfirst.1, hfirst.2⟩
  have hzero : ∀ rest', digits ≠ '0' :: rest' := by
    rintro rest' rfl
    exact hfirst (by simp)
  have hu64 : parseU64 digits false = some n := by
    unfold parseU64
    split
    · exact absurd rfl hne
    · exact absurd rfl (hzero _)
    · rw [hparse]
      rfl
  have hdigits := (parseU64_iff.mp hu64).1
  refine ⟨by rw [hdigits], ?_⟩
  rintro rfl
  exact hzero [] hdigits

lemma decimal_head (hn : n ≠ 0) (rest : Text) :
    ¬((decimal n ++ rest).headD ' ' < '1' || '9' < (decimal n ++ rest).headD ' ') = true := by
  rcases hd : decimal n with _ | ⟨c, digits⟩
  · exact absurd hd (decimal_ne_nil n)
  have hc : c.isDigit := decimal_isDigit (hd ▸ mem_cons_self)
  have hzero : c ≠ '0' := by
    rintro rfl
    rcases digits with _ | ⟨c, digits⟩
    · exact hn (decimal_injective (hd.trans rfl))
    · exact toDigits_head_ne_zero n.toNat c digits hd
  simp only [Char.isDigit, Bool.and_eq_true, decide_eq_true_eq] at hc
  have hone : ∀ d : Char, '0' ≤ d → d ≠ '0' → '1' ≤ d := by
    intro d hd hne
    by_contra hlt
    exact hne (Char.le_antisymm (Char.not_lt.mp fun h => hlt h) hd)
  have hlow : '1' ≤ c := hone c hc.1 hzero
  have hhigh : c ≤ '9' := hc.2
  simp [hlow, hhigh]

/-! ### What follows the number -/

lemma safeToken_iff : safeToken version ↔
    (¬(version.length == 0 || version.length > tokenMax || !version.head?.all alphanumeric ||
        !version.getLast?.all alphanumeric) = true) ∧
      ∀ c ∈ version, alphanumeric c || punctuation c := by
  simp only [safeToken, Bool.and_eq_true, all_eq_true, bne_iff_ne, decide_eq_true_eq,
    Bool.or_eq_true, beq_iff_eq, Bool.not_eq_true', not_or, Bool.not_eq_false]
  grind

/-- What stands behind the number, if the text is accepted. -/
def tail (version : Text) (available : Bool) : Text :=
  versionTag ++ version ++ availableTag ++ [if available then '1' else '0', '\n']

lemma parseVersion_tail (h : safeToken version) (available : Bool) :
    parseVersion (tail version available) = some available := by
  obtain ⟨hok, hall⟩ := safeToken_iff.mp h
  have hrest : (tail version available).drop 3 = version ++ '\n' ::
      ['A', '\t', if available then '1' else '0', '\n'] := by
    simp [tail, versionTag, availableTag]
  have hhead : ((tail version available).length < 3 ||
      (tail version available).take 3 != versionTag) = false := by
    simp [tail, versionTag]
  unfold parseVersion
  rw [hhead, hrest, versionLoop_append hall]
  simp only [Bool.not_eq_true] at hok
  simp only [Bool.false_eq_true, if_false, hok, Bool.false_or]
  cases available <;> rfl

lemma eq_of_take_drop {text tag : Text} (h : text.take 3 = tag) : text = tag ++ text.drop 3 := by
  rw [← h, take_append_drop]

lemma parseVersion_spec {available : Bool}
    (h : parseVersion cursor = some available) :
    ∃ version, safeToken version ∧ cursor = tail version available := by
  unfold parseVersion at h
  split_ifs at h with htag
  rcases hloop : versionLoop (cursor.drop 3) with _ | ⟨version, rest⟩
  · rw [hloop] at h
    cases h
  rw [hloop] at h
  dsimp only at h
  split_ifs at h with hbad
  obtain ⟨hcursor, hall⟩ := versionLoop_spec hloop
  simp only [Bool.or_eq_true, bne_iff_ne, ne_eq, not_or, Decidable.not_not] at htag hbad
  obtain ⟨⟨⟨⟨⟨⟨⟨hempty, hlong⟩, hfirst⟩, hlast⟩, hlen⟩, havailable⟩, hdigit⟩, hend⟩ := hbad
  refine ⟨version, safeToken_iff.mpr ⟨by simp [hempty, hlong, hfirst, hlast], hall⟩, ?_⟩
  -- five characters are left: the tag, the digit and the end of the line
  match rest, hlen with
  | [a, b, c, d, e], _ =>
    have hc : [a, b, c] = availableTag := havailable
    have he : e = '\n' := hend
    have hd : d = if available then '1' else '0' := by
      have ha : (d == '1') = available := Option.some.inj h
      have hd : d = '0' ∨ d = '1' := by
        by_contra hnone
        rw [not_or] at hnone
        exact hdigit (by simp [hnone.1, hnone.2])
      rcases hd with rfl | rfl
      · rw [← ha]
        rfl
      · rw [← ha]
        rfl
    rw [eq_of_take_drop htag.2, hcursor, hd, he, tail, ← hc]
    simp

/-! ### The whole text -/

lemma parseCheck_checkConfigured {sequence : UInt64} (hsequence : sequence ≠ 0)
    (hversion : safeToken version) (available : Bool) :
    parseCheck (checkConfigured sequence version available) = some (sequence, available) := by
  have htext : checkConfigured sequence version available =
      checkPrefix ++ (decimal sequence ++ tail version available) := by
    simp [checkConfigured, tail]
  have hprefix : checkPrefix.length = 19 := by decide
  have hlen : (checkConfigured sequence version available).length < outputCapacity := by
    have h1 := decimal_length_le sequence
    have h2 := length_of_safeToken hversion
    simp only [htext, tail, versionTag, availableTag, length_append, length_cons,
      length_nil, hprefix, outputCapacity]
    omega
  have hshort : ¬(checkConfigured sequence version available).length < checkPrefix.length + 1 := by
    have := List.length_pos_iff.mpr (decimal_ne_nil sequence)
    rw [htext, length_append, length_append]
    omega
  have hzero : '\x00' ∉ checkConfigured sequence version available := by
    have hplain : ¬Plain '\x00' := fun h => absurd h.1 (by decide)
    have h1 : '\x00' ∉ decimal sequence := fun h => hplain (plain_decimal sequence _ h)
    have h2 : '\x00' ∉ version := fun h => hplain (plain_of_safeToken hversion _ h)
    have h3 : '\x00' ∉ checkPrefix := by decide
    cases available <;> simp [checkConfigured, h1, h2, h3, versionTag, availableTag]
  have hhead : checkPrefix.isPrefixOf (checkConfigured sequence version available) = true := by
    rw [htext]
    simp
  unfold parseCheck
  rw [if_neg (by simp [hlen, hshort, hzero, hhead])]
  rw [htext, drop_left]
  dsimp only
  rw [if_neg (decimal_head hsequence _), sequenceLoop_append (parseDigits_decimal sequence)
    fun c hc => by cases hc; decide]
  dsimp only
  rw [parseVersion_tail hversion]
  rfl

lemma parseCheck_spec {text : Text} {sequence : UInt64} {available : Bool}
    (h : parseCheck text = some (sequence, available)) :
    ∃ version, sequence ≠ 0 ∧ safeToken version ∧
      text = checkConfigured sequence version available := by
  unfold parseCheck at h
  split_ifs at h with hbad
  dsimp only at h
  split_ifs at h with hfirst
  rcases hloop : sequenceLoop 0 (text.drop checkPrefix.length) with _ | ⟨n, rest⟩
  · rw [hloop] at h
    cases h
  rw [hloop] at h
  obtain ⟨available', hversion, hpair⟩ := Option.map_eq_some_iff.mp h
  cases hpair
  obtain ⟨hcursor, hsequence⟩ := parseCheck_sequence hfirst hloop
  obtain ⟨version, htoken, rfl⟩ := parseVersion_spec hversion
  refine ⟨version, hsequence, htoken, ?_⟩
  simp only [Bool.or_eq_true, Bool.not_eq_true', not_or, Bool.not_eq_false] at hbad
  obtain ⟨rest, rfl⟩ := List.isPrefixOf_iff_prefix.mp hbad.2
  rw [drop_left] at hcursor
  rw [hcursor]
  simp [checkConfigured, tail]

/-- **Exactly what is printed is accepted**, for a sequence that is not zero and a version that is
a token, and it is read as it was meant; nothing is stored of another text. -/
theorem updateParse_iff (text : Text) (outputs : UInt64 × Bool) (sequence : UInt64)
    (available : Bool) :
    (updateParse text outputs = (true, sequence, available) ↔
      ∃ version, sequence ≠ 0 ∧ safeToken version ∧
        text = checkConfigured sequence version available) ∧
    ((updateParse text outputs).1 = false → (updateParse text outputs).2 = outputs) := by
  unfold updateParse
  rcases hparse : parseCheck text with _ | ⟨sequence', available'⟩
  · refine ⟨⟨nofun, fun ⟨version, hsequence, hversion, htext⟩ => ?_⟩, fun _ => rfl⟩
    rw [htext, parseCheck_checkConfigured hsequence hversion] at hparse
    cases hparse
  refine ⟨⟨fun h => ?_, fun ⟨version, hsequence, hversion, htext⟩ => ?_⟩, nofun⟩
  · cases h
    exact parseCheck_spec hparse
  rw [htext, parseCheck_checkConfigured hsequence hversion] at hparse
  cases hparse
  rfl

end C1auncher.Services.UpdateCheckText
