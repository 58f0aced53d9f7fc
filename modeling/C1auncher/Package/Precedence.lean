import C1auncher.Package.Version

/-!
What the comparison of versions compares: numbers, and the precedence of SemVer.
-/

namespace C1auncher.Package.Precedence

open CString Package.Version List Option Nat Bool
open Std (TransCmp OrientedCmp TransOrd OrientedOrd)

/-! ### The precedence of SemVer -/

inductive Identifier
  | number (n : ℕ)
  | word (text : Text)
  deriving DecidableEq

/-- Numbers are compared as numbers and come before words, words are compared in ASCII order. -/
def Identifier.order : Identifier → Identifier → Ordering
  | .number n, .number m => compare n m
  | .number _, .word _ => .lt
  | .word _, .number _ => .gt
  | .word v, .word w => List.compareLex compare v w

instance : TransCmp Identifier.order where
  eq_swap {a b} := by
    cases a <;> cases b
    · exact OrientedOrd.eq_swap
    · rfl
    · rfl
    · exact @OrientedCmp.eq_swap _ (List.compareLex compare) _ _ _
  isLE_trans {a b c} hab hbc := by
    cases a <;> cases b <;> cases c
    · exact TransOrd.isLE_trans hab hbc
    · rfl
    · cases hbc
    · rfl
    · cases hab
    · cases hab
    · cases hbc
    · exact @TransCmp.isLE_trans _ (List.compareLex compare) _ _ _ _ hab hbc

structure Rank where
  major : ℕ
  minor : ℕ
  patch : ℕ
  prerelease : List Identifier
  deriving DecidableEq

/-- A version with a pre-release comes before the one without; a longer list of identifiers comes
after one that it begins with. -/
def releaseOrder : List Identifier → List Identifier → Ordering :=
  compareLex (compareOn List.isEmpty) (List.compareLex Identifier.order)

def Rank.order : Rank → Rank → Ordering :=
  compareLex (compareOn Rank.major) (compareLex (compareOn Rank.minor)
    (compareLex (compareOn Rank.patch) fun a b => releaseOrder a.prerelease b.prerelease))

lemma transCmp_on {α β : Type*} (order : β → β → Ordering) [TransCmp order] (f : α → β) :
    TransCmp fun a b => order (f a) (f b) where
  eq_swap := OrientedCmp.eq_swap
  isLE_trans := TransCmp.isLE_trans

instance : TransCmp releaseOrder :=
  have := transCmp_on compare (List.isEmpty (α := Identifier))
  inferInstanceAs (TransCmp (compareLex (compareOn _) _))

instance : TransCmp Rank.order :=
  have := transCmp_on compare Rank.major
  have := transCmp_on compare Rank.minor
  have := transCmp_on compare Rank.patch
  have := transCmp_on releaseOrder Rank.prerelease
  inferInstanceAs (TransCmp (compareLex (compareOn _) (compareLex (compareOn _)
    (compareLex (compareOn _) _))))

/-! ### Numbers -/

def value (text : Text) : ℕ := Nat.ofDigitChars 10 text 0

variable {text left right part rest : Text} {view : SemverView} {parts : List Text}

lemma component_canonical (h : numericComponent text) :
    text ≠ [] ∧ ∀ c rest, text ≠ '0' :: c :: rest := by
  unfold numericComponent at h
  refine ⟨fun h0 => by simp [h0] at h, ?_⟩
  rintro c rest rfl
  simp at h

lemma compare_add_digit {n m d e : ℕ} (hd : d < 10) (he : e < 10) :
    compare (10 * n + d) (10 * m + e) = (compare n m).then (compare d e) := by
  simp only [compare_eq_ite_lt]
  split_ifs <;> first | rfl | omega

lemma compare_digit {c c' : Char} (hc : c.isDigit) (hc' : c'.isDigit) :
    compare c c' = compare (c.toNat - 48) (c'.toNat - 48) := by
  have hlow : ∀ {x : Char}, x.isDigit → 48 ≤ x.toNat := by
    intro x hx
    simp only [Char.isDigit, and_eq_true, decide_eq_true_eq] at hx
    exact hx.1
  have hl := hlow hc
  have hl' := hlow hc'
  rcases lt_trichotomy c c' with h | rfl | h
  · have hnat : c.toNat < c'.toNat := h
    rw [compare_lt_iff_lt.mpr h, compare_lt_iff_lt.mpr (show c.toNat - 48 < c'.toNat - 48 by omega)]
  · rw [compare_eq_iff_eq.mpr rfl, compare_eq_iff_eq.mpr rfl]
  · have hnat : c'.toNat < c.toNat := h
    rw [compare_gt_iff_gt.mpr h, compare_gt_iff_gt.mpr (show c'.toNat - 48 < c.toNat - 48 by omega)]

lemma memcmp_digits (left right : Text) (hlength : left.length = right.length)
    (hl : ∀ c ∈ left, c.isDigit) (hr : ∀ c ∈ right, c.isDigit) (n m : ℕ) :
    (compare n m).then (memcmp left right) =
      compare (ofDigitChars 10 left n) (ofDigitChars 10 right m) := by
  induction left generalizing right n m with
  | nil =>
    obtain rfl := length_eq_zero_iff.mp hlength.symm
    exact Ordering.then_eq
  | cons c left ih =>
    obtain ⟨c', right, rfl⟩ := exists_cons_of_length_eq_add_one hlength.symm
    have hc := hl c mem_cons_self
    have hc' := hr c' mem_cons_self
    have hchar := compare_digit hc hc'
    calc (compare n m).then ((compare c c').then (memcmp left right))
        = (compare (10 * n + (c.toNat - 48)) (10 * m + (c'.toNat - 48))).then
            (memcmp left right) := by
          rw [hchar, compare_add_digit (digitValue_toNat hc).2 (digitValue_toNat hc').2,
            Ordering.then_assoc]
      _ = _ := ih right (succ.inj hlength) (fun x hx => hl x (mem_cons_of_mem _ hx))
          (fun x hx => hr x (mem_cons_of_mem _ hx)) _ _

/-- A component: digits without a leading zero. -/
structure Component (text : Text) : Prop where
  canonical : numericComponent text
  digits : ∀ c ∈ text, c.isDigit

lemma toDigits_value (h : Component text) : toDigits 10 (value text) = text :=
  have hcanonical := component_canonical h.canonical
  toDigits_ofDigitChars h.digits hcanonical.1 hcanonical.2

lemma length_le_of_value_le (hl : Component left) (hr : Component right)
    (h : value left ≤ value right) : left.length ≤ right.length := by
  have hpos : 0 < right.length := length_pos_of_ne_nil (component_canonical hr.canonical).1
  rw [← toDigits_value hl, length_toDigits_le_iff (by decide) hpos]
  refine lt_of_le_of_lt h ?_
  rw [← length_toDigits_le_iff (by decide) hpos, toDigits_value hr]

/-- **Components of any length are compared as numbers.** -/
theorem compareTextNumber_eq (hl : Component left) (hr : Component right) :
    compareTextNumber left right = compare (value left) (value right) := by
  unfold compareTextNumber
  rcases lt_trichotomy left.length right.length with h | h | h
  · have hvalue : value left < value right := by
      by_contra hge
      exact absurd (length_le_of_value_le hr hl (not_lt.mp hge)) (not_le.mpr h)
    rw [compare_lt_iff_lt.mpr h, compare_lt_iff_lt.mpr hvalue]
    rfl
  · rw [compare_eq_iff_eq.mpr h]
    exact memcmp_digits left right h hl.digits hr.digits 0 0
  · have hvalue : value right < value left := by
      by_contra hge
      exact absurd (length_le_of_value_le hl hr (not_lt.mp hge)) (not_le.mpr h)
    rw [compare_gt_iff_gt.mpr h, compare_gt_iff_gt.mpr hvalue]
    rfl

lemma compareParts_eq {lefts rights : List Text} (hlength : lefts.length = rights.length)
    (hl : ∀ part ∈ lefts, Component part) (hr : ∀ part ∈ rights, Component part) :
    compareParts lefts rights = List.compareLex compare (lefts.map value) (rights.map value) := by
  induction lefts generalizing rights with
  | nil =>
    obtain rfl := length_eq_zero_iff.mp hlength.symm
    rfl
  | cons left lefts ih =>
    obtain ⟨right, rights, rfl⟩ := exists_cons_of_length_eq_add_one hlength.symm
    rw [compareParts, map_cons, map_cons, List.compareLex_cons_cons,
      compareTextNumber_eq (hl _ mem_cons_self) (hr _ mem_cons_self),
      ih (succ.inj hlength) (fun x hx => hl x (mem_cons_of_mem _ hx))
        fun x hx => hr x (mem_cons_of_mem _ hx)]

/-! ### Identifiers -/

/-- An identifier that a pre-release may have. -/
structure Identifies (text : Text) : Prop where
  ne_nil : text ≠ []
  number : identifierIsNumeric text → Component text

def identifier (text : Text) : Identifier :=
  if identifierIsNumeric text then .number (value text) else .word text

lemma memcmp_then_length (left right : Text) :
    (memcmp left right).then (compare left.length right.length) =
      List.compareLex compare left right := by
  induction left generalizing right with
  | nil => cases right <;> rfl
  | cons c left ih =>
    cases right with
    | nil => rfl
    | cons c' right =>
      rw [List.compareLex_cons_cons, ← ih, memcmp, Ordering.then_assoc]
      congr 2
      simp only [length_cons, compare_eq_ite_lt, Nat.add_lt_add_iff_right]

lemma compareIdentifier_eq (hl : Identifies left) (hr : Identifies right) :
    compareIdentifier left right = (identifier left).order (identifier right) := by
  unfold compareIdentifier identifier
  cases hnl : identifierIsNumeric left <;> cases hnr : identifierIsNumeric right
  · exact memcmp_then_length left right
  · rfl
  · rfl
  · exact compareTextNumber_eq (hl.number hnl) (hr.number hnr)

lemma compareIdentifiers_eq {lefts rights : List Text} (hl : ∀ text ∈ lefts, Identifies text)
    (hr : ∀ text ∈ rights, Identifies text) : compareIdentifiers lefts rights =
      List.compareLex Identifier.order (lefts.map identifier) (rights.map identifier) := by
  induction lefts generalizing rights with
  | nil => cases rights <;> rfl
  | cons left lefts ih =>
    cases rights with
    | nil => rfl
    | cons right rights =>
      rw [compareIdentifiers, map_cons, map_cons, List.compareLex_cons_cons,
        compareIdentifier_eq (hl _ mem_cons_self) (hr _ mem_cons_self),
        ih (fun x hx => hl x (mem_cons_of_mem _ hx))
          fun x hx => hr x (mem_cons_of_mem _ hx)]

/-- The identifiers of a pre-release; there are none where there is no pre-release. -/
def identifiers (prerelease : Text) : List Identifier :=
  if prerelease = [] then [] else (prerelease.splitOn '.').map identifier

/-- A pre-release that a version may have. -/
def Prerelease (text : Text) : Prop := text = [] ∨ ∀ word ∈ text.splitOn '.', Identifies word

lemma comparePrerelease_eq (hl : Prerelease left) (hr : Prerelease right) :
    comparePrerelease left right = releaseOrder (identifiers left) (identifiers right) := by
  have hfull : ∀ {text : Text}, text ≠ [] → (identifiers text).isEmpty = false := by
    intro text hne
    rw [identifiers, if_neg hne, isEmpty_eq_false_iff, Ne, map_eq_nil_iff]
    exact splitOn_ne_nil '.' text
  unfold releaseOrder compareLex compareOn
  rcases left with _ | ⟨c, left⟩ <;> rcases right with _ | ⟨c', right⟩
  · rfl
  · rw [hfull (cons_ne_nil c' right)]
    rfl
  · rw [hfull (cons_ne_nil c left)]
    rfl
  rw [hfull (cons_ne_nil c' right), hfull (cons_ne_nil c left)]
  exact compareIdentifiers_eq (hl.resolve_left (cons_ne_nil _ _))
    (hr.resolve_left (cons_ne_nil _ _))

/-! ### What the grammars read -/

lemma component_takeWhile (h : numericComponent (text.takeWhile Char.isDigit)) :
    Component (text.takeWhile Char.isDigit) :=
  ⟨h, fun _ hc => mem_takeWhile_imp hc⟩

lemma parseNumericComponent_spec {terminator : Option Char}
    (h : parseNumericComponent text terminator = some (part, rest)) :
    Component part ∧ part = text.takeWhile Char.isDigit ∧
      text.dropWhile Char.isDigit = terminator.toList ++ rest := by
  unfold parseNumericComponent at h
  dsimp only at h
  split_ifs at h with hnot
  have hcomponent := component_takeWhile (by simpa using hnot)
  cases terminator with
  | none =>
    cases h
    exact ⟨hcomponent, rfl, rfl⟩
  | some c =>
    dsimp only at h
    split_ifs at h with hhead
    cases h
    exact ⟨hcomponent, rfl, (cons_head?_tail hhead).symm⟩

lemma identifies_of_validate (h : validateIdentifiers text true = true) :
    ∀ word ∈ text.splitOn '.', Identifies word := by
  intro word hword
  have hall := List.all_eq_true.mp h word hword
  simp only [and_eq_true, bne_iff_ne, ne_eq, not_eq_true', Bool.true_and] at hall
  obtain ⟨⟨hne, -⟩, hzero⟩ := hall
  refine ⟨hne, fun hnumeric => ⟨?_, List.all_eq_true.mp hnumeric⟩⟩
  rw [hnumeric, Bool.true_and] at hzero
  simp [numericComponent, hne, hzero]

structure Reads (text : Text) (view : SemverView) : Prop where
  major : Component view.major
  minor : Component view.minor
  patch : Component view.patch
  prerelease : Prerelease view.prerelease
  /-- The text begins with the numbers; there is a suffix if there is a pre-release. -/
  text : ∃ suffix, text = view.major ++ '.' :: (view.minor ++ '.' :: (view.patch ++ suffix)) ∧
    (suffix = [] → view.prerelease = []) ∧ ∀ c ∈ suffix.head?, c = '-' ∨ c = '+'

lemma parseSemver_reads (h : parseSemver text = some view) :
    Reads text view := by
  unfold parseSemver at h
  simp only [bind_eq_bind, bind_eq_some_iff, Prod.exists] at h
  obtain ⟨major, text₁, h₁, minor, text₂, h₂, patch, suffix, h₃, h⟩ := h
  obtain ⟨hmajor, rfl, hdrop₁⟩ := parseNumericComponent_spec h₁
  obtain ⟨hminor, rfl, hdrop₂⟩ := parseNumericComponent_spec h₂
  obtain ⟨hpatch, rfl, hdrop₃⟩ := parseNumericComponent_spec h₃
  have htext : text = text.takeWhile Char.isDigit ++ '.' :: (text₁.takeWhile Char.isDigit ++
      '.' :: (text₂.takeWhile Char.isDigit ++ suffix)) := by
    calc text = text.takeWhile Char.isDigit ++ text.dropWhile Char.isDigit :=
          List.takeWhile_append_dropWhile.symm
      _ = text.takeWhile Char.isDigit ++ '.' :: text₁ := by rw [hdrop₁]; rfl
      _ = text.takeWhile Char.isDigit ++ '.' :: (text₁.takeWhile Char.isDigit ++
            text₁.dropWhile Char.isDigit) := by rw [takeWhile_append_dropWhile]
      _ = text.takeWhile Char.isDigit ++ '.' :: (text₁.takeWhile Char.isDigit ++ '.' :: text₂) := by
          rw [hdrop₂]; rfl
      _ = text.takeWhile Char.isDigit ++ '.' :: (text₁.takeWhile Char.isDigit ++
            '.' :: (text₂.takeWhile Char.isDigit ++ text₂.dropWhile Char.isDigit)) := by
          rw [takeWhile_append_dropWhile]
      _ = _ := by rw [hdrop₃]; rfl
  have hguard : ∀ {ok : Bool} {found : SemverView},
      (do guard ok; return found : Option SemverView) = some view → ok = true ∧ found = view := by
    intro ok found h
    cases ok
    · cases h
    · exact ⟨rfl, some.inj h⟩
  split at h
  · next rest =>
    obtain ⟨hok, rfl⟩ := hguard h
    rw [and_eq_true] at hok
    exact ⟨hmajor, hminor, hpatch, .inr (identifies_of_validate hok.1), _, htext,
      fun hnil => (by cases hnil), fun c hc => .inl (some.inj hc).symm⟩
  · obtain ⟨hok, rfl⟩ := hguard h
    refine ⟨hmajor, hminor, hpatch, .inl rfl, _, htext, fun _ => rfl, fun c hc => .inr ?_⟩
    cases suffix with
    | nil => cases hc
    | cons c' rest =>
      cases hc
      unfold validBuild at hok
      split at hok
      · next heq => cases heq
      · next heq => exact (cons.inj heq).1
      · cases hok

lemma repositoryComponents_spec {count : ℕ}
    (h : repositoryComponents count text = some parts) :
    parts.length ≤ count ∧ ∀ part ∈ parts, Component part := by
  induction count generalizing text parts with
  | zero =>
    unfold repositoryComponents at h
    split_ifs at h
    cases h
    exact ⟨Nat.le_refl 0, fun part hp => (by cases hp)⟩
  | succ count ih =>
    unfold repositoryComponents at h
    dsimp only at h
    split_ifs at h with hnot
    have hcomponent := component_takeWhile (show numericComponent (text.takeWhile Char.isDigit) by
      simpa using hnot)
    split at h
    · cases h
      refine ⟨by simp, fun part hp => ?_⟩
      rw [mem_singleton.mp hp]
      exact hcomponent
    · obtain ⟨rest, hrest, rfl⟩ := map_eq_some_iff.mp h
      obtain ⟨hlength, hall⟩ := ih hrest
      refine ⟨by simpa using hlength, fun part hp => ?_⟩
      rcases mem_cons.mp hp with rfl | hp
      · exact hcomponent
      · exact hall part hp
    · cases h

lemma component_zero : Component ['0'] :=
  ⟨by decide, fun c hc => by rw [mem_singleton.mp hc]; decide⟩

lemma parseRepositoryVersion_spec (h : parseRepositoryVersion text = some parts) :
    parts.length = 4 ∧ ∀ part ∈ parts, Component part := by
  unfold parseRepositoryVersion at h
  split_ifs at h
  split at h
  · next found hfound =>
    split_ifs at h
    cases h
    obtain ⟨hlength, hall⟩ := repositoryComponents_spec hfound
    refine ⟨by simp; omega, fun part hp => ?_⟩
    rcases mem_append.mp hp with hp | hp
    · exact hall part hp
    · rw [eq_of_mem_replicate hp]
      exact component_zero
  · cases h

lemma takeWhile_digits (h : Component part)
    (hrest : ∀ c ∈ rest.head?, c.isDigit = false) :
    (part ++ rest).takeWhile Char.isDigit = part ∧
      (part ++ rest).dropWhile Char.isDigit = rest := by
  rw [takeWhile_append_of_pos h.digits, dropWhile_append_of_pos h.digits]
  cases rest with
  | nil => simp
  | cons c rest => simp [hrest c rfl]

lemma repositoryComponents_append {count : ℕ} {parts : Option (List Text)}
    (h : Component part) (hparts : (match rest with
      | [] => some [part]
      | '.' :: c :: more => (repositoryComponents count (c :: more)).map (part :: ·)
      | _ => none) = parts) (hrest : ∀ c ∈ rest.head?, c.isDigit = false) :
    repositoryComponents (count + 1) (part ++ rest) = parts := by
  obtain ⟨htake, hdrop⟩ := takeWhile_digits h hrest
  rw [← hparts, repositoryComponents, htake, hdrop, h.canonical]
  rfl

lemma repositoryComponents_last (count : ℕ) (h : Component part) :
    repositoryComponents (count + 1) part = some [part] := by
  have hlast : repositoryComponents (count + 1) (part ++ []) = some [part] :=
    repositoryComponents_append h rfl fun c hc => (by cases hc)
  rwa [append_nil] at hlast

lemma repositoryComponents_dot (count : ℕ) (h : Component part)
    (hne : rest ≠ []) : repositoryComponents (count + 1) (part ++ '.' :: rest) =
      (repositoryComponents count rest).map (part :: ·) := by
  obtain ⟨c, more, rfl⟩ := exists_cons_of_ne_nil hne
  exact repositoryComponents_append h rfl fun x hx => by cases hx; rfl

lemma repositoryComponents_stop (count : ℕ) {c : Char} (h : Component part)
    (hc : c = '-' ∨ c = '+') : repositoryComponents (count + 1) (part ++ c :: rest) = none := by
  rcases hc with rfl | rfl
  · exact repositoryComponents_append h rfl fun x hx => by cases hx; rfl
  · exact repositoryComponents_append h rfl fun x hx => by cases hx; rfl

/-! ### Ranks -/

def rank (view : SemverView) : Rank :=
  ⟨value view.major, value view.minor, value view.patch, identifiers view.prerelease⟩

lemma Reads.ne_nil (h : Reads text view) :
    view.minor ≠ [] ∧ view.patch ≠ [] :=
  ⟨(component_canonical h.minor.canonical).1, (component_canonical h.patch.canonical).1⟩

lemma both_grammars (h : Reads text view)
    (hparts : parseRepositoryVersion text = some parts) :
    parts = [view.major, view.minor, view.patch, ['0']] ∧ view.prerelease = [] := by
  obtain ⟨hminor, hpatch⟩ := h.ne_nil
  obtain ⟨suffix, rfl, hnone, hhead⟩ := h.text
  unfold parseRepositoryVersion at hparts
  split_ifs at hparts
  rw [repositoryComponents_dot 3 h.major (by simp [hminor]),
    repositoryComponents_dot 2 h.minor (by simp [hpatch])] at hparts
  cases suffix with
  | nil =>
    rw [append_nil, repositoryComponents_last 1 h.patch] at hparts
    exact ⟨(some.inj hparts).symm, hnone rfl⟩
  | cons c rest =>
    rw [repositoryComponents_stop 1 h.patch (hhead c rfl)] at hparts
    cases hparts

lemma compareParts_semver {l r : SemverView} {text' : Text} (hl : Reads text l)
    (hr : Reads text' r) :
    (compareParts [l.major, l.minor, l.patch] [r.major, r.minor, r.patch]).then
      (comparePrerelease l.prerelease r.prerelease) = (rank l).order (rank r) := by
  rw [comparePrerelease_eq hl.prerelease hr.prerelease]
  unfold Rank.order compareLex compareOn rank
  simp only [compareParts, compareTextNumber_eq hl.major hr.major,
    compareTextNumber_eq hl.minor hr.minor, compareTextNumber_eq hl.patch hr.patch,
    Ordering.then_assoc, Ordering.then_eq]

/-- **Repository versions are compared component by component.** -/
theorem versionCompare_repository {l r : List Text}
    (hl : parseRepositoryVersion left = some l) (hr : parseRepositoryVersion right = some r) :
    versionCompare left right = some (List.compareLex compare (l.map value) (r.map value)) := by
  obtain ⟨hlength, hcomponents⟩ := parseRepositoryVersion_spec hl
  obtain ⟨hlength', hcomponents'⟩ := parseRepositoryVersion_spec hr
  unfold versionCompare
  rw [hl, hr]
  exact congrArg some (compareParts_eq (hlength.trans hlength'.symm) hcomponents hcomponents')

/-- **SemVers are compared by their rank**, whichever grammar reads them. -/
theorem versionCompare_semver {l r : SemverView}
    (hl : parseSemver left = some l) (hr : parseSemver right = some r) :
    versionCompare left right = some ((rank l).order (rank r)) := by
  have hreads := parseSemver_reads hl
  have hreads' := parseSemver_reads hr
  have hboth : ∀ parts parts', parseRepositoryVersion left = some parts →
      parseRepositoryVersion right = some parts' →
      compareParts parts parts' = (rank l).order (rank r) := by
    intro parts parts' h h'
    obtain ⟨rfl, hnone⟩ := both_grammars hreads h
    obtain ⟨rfl, hnone'⟩ := both_grammars hreads' h'
    rw [← compareParts_semver hreads hreads', hnone, hnone']
    simp only [compareParts, comparePrerelease, Ordering.then_assoc]
    rfl
  unfold versionCompare
  rw [hl, hr]
  cases h : parseRepositoryVersion left <;> cases h' : parseRepositoryVersion right
  all_goals first
    | exact congrArg some (compareParts_semver hreads hreads')
    | exact congrArg some (hboth _ _ h h')

end C1auncher.Package.Precedence
