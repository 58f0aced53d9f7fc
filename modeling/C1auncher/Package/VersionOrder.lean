import C1auncher.Package.Precedence

/-!
Versions are ordered: by the numbers of their components, SemVers by precedence.
-/

namespace C1auncher.Package.VersionOrder

open CString Package.Version Package.Precedence List
open Std (TransCmp OrientedCmp TransOrd OrientedOrd)

/-! ### Transitivity -/

/-- Three comparisons that an order can make: of `a` and `b`, of `b` and `c`, of `a` and `c`. -/
structure Transitive (ab bc ac : Ordering) : Prop where
  le : ab.isLE → bc.isLE → ac.isLE
  lt : ab = .lt → bc.isLE → ac = .lt
  lt' : ab.isLE → bc = .lt → ac = .lt
  eq : ab = .eq → bc = .eq → ac = .eq

lemma transitive_of_transCmp {α : Type*} (order : α → α → Ordering) [TransCmp order] (a b c : α) :
    Transitive (order a b) (order b c) (order a c) :=
  ⟨TransCmp.isLE_trans, TransCmp.lt_of_lt_of_isLE, TransCmp.lt_of_isLE_of_lt, TransCmp.eq_trans⟩

lemma versionCompare_cases {left right : Text} {o : Ordering}
    (h : versionCompare left right = some o) :
    (∃ l r, parseRepositoryVersion left = some l ∧ parseRepositoryVersion right = some r) ∨
      ∃ l r, parseSemver left = some l ∧ parseSemver right = some r := by
  unfold versionCompare at h
  split at h
  · next l r hl hr => exact .inl ⟨l, r, hl, hr⟩
  split at h
  · next l r hl hr => exact .inr ⟨l, r, hl, hr⟩
  · cases h

/-- **The comparison is transitive** wherever it is defined: a version that only one of the
grammars reads has its two neighbours read by the same one. -/
theorem versionCompare_transitive {a b c : Text} {ab bc ac : Ordering}
    (hab : versionCompare a b = some ab) (hbc : versionCompare b c = some bc)
    (hac : versionCompare a c = some ac) : Transitive ab bc ac := by
  have hsemver : ∀ {x y z : SemverView}, parseSemver a = some x → parseSemver b = some y →
      parseSemver c = some z → Transitive ab bc ac := by
    intro x y z hx hy hz
    rw [versionCompare_semver hx hy] at hab
    rw [versionCompare_semver hy hz] at hbc
    rw [versionCompare_semver hx hz] at hac
    cases hab
    cases hbc
    cases hac
    exact transitive_of_transCmp Rank.order _ _ _
  have hrepository : ∀ {x y z : List Text}, parseRepositoryVersion a = some x →
      parseRepositoryVersion b = some y → parseRepositoryVersion c = some z →
      Transitive ab bc ac := by
    intro x y z hx hy hz
    rw [versionCompare_repository hx hy] at hab
    rw [versionCompare_repository hy hz] at hbc
    rw [versionCompare_repository hx hz] at hac
    cases hab
    cases hbc
    cases hac
    exact transitive_of_transCmp (List.compareLex compare) _ _ _
  rcases versionCompare_cases hab with ⟨x, y, hx, hy⟩ | ⟨x, y, hx, hy⟩
  · rcases versionCompare_cases hbc with ⟨-, z, -, hz⟩ | ⟨y', z, hy', hz⟩
    · exact hrepository hx hy hz
    rcases versionCompare_cases hac with ⟨-, z', -, hz'⟩ | ⟨x', -, hx', -⟩
    · exact hrepository hx hy hz'
    · exact hsemver hx' hy' hz
  · rcases versionCompare_cases hbc with ⟨y', z, hy', hz⟩ | ⟨-, z, -, hz⟩
    · rcases versionCompare_cases hac with ⟨x', -, hx', -⟩ | ⟨-, z', -, hz'⟩
      · exact hrepository hx' hy' hz
      · exact hsemver hx hy hz'
    · exact hsemver hx hy hz

lemma versionCompare_of_install {installed available : Text}
    (h : installDecision installed available = 1) :
    available ≠ [] ∧ (installed = [] ∨ versionCompare available installed = some .gt) := by
  unfold installDecision at h
  split_ifs at h with havailable hinstalled hsame
  · exact ⟨havailable, .inl hinstalled⟩
  · cases h
  refine ⟨havailable, .inr ?_⟩
  split at h
  · cases h
  · next hgt => exact hgt
  · cases h
  · cases h

/-- **No update goes both ways.** -/
theorem installDecision_oneWay (a b : Text) :
    ¬(installDecision a b = 1 ∧ installDecision b a = 1) := by
  rintro ⟨hab, hba⟩
  obtain ⟨hb, ha | hgt⟩ := versionCompare_of_install hab
  · exact (versionCompare_of_install hba).1 ha
  obtain ⟨-, hb' | hgt'⟩ := versionCompare_of_install hba
  · exact hb hb'
  have hswap := versionCompare_swap b a
  rw [hgt, hgt'] at hswap
  cases hswap

/-! ### Dotted numbers -/

def digits (n : ℕ) : Text := Nat.toDigits 10 n

lemma component_digits (n : ℕ) : Component (digits n) := by
  refine ⟨?_, fun c hc => Nat.isDigit_of_mem_toDigits (by decide) (by decide) hc⟩
  unfold numericComponent digits
  rcases h : Nat.toDigits 10 n with _ | ⟨c, _ | ⟨c', text⟩⟩
  · exact absurd h Nat.toDigits_ne_nil
  · rfl
  have hzero : c ≠ '0' := by
    rintro rfl
    exact toDigits_head_ne_zero n c' text h
  simp [hzero]

@[simp] lemma value_digits (n : ℕ) : value (digits n) = n :=
  Nat.ofDigitChars_toDigits (by decide) (by decide)

/-- Texts with dots between them. -/
def joined (parts : List Text) : Text := List.intercalate ['.'] parts

lemma joined_cons (part : Text) {rest : List Text} (h : rest ≠ []) :
    joined (part :: rest) = part ++ '.' :: joined rest := by
  obtain ⟨next, rest, rfl⟩ := exists_cons_of_ne_nil h
  simp [joined, intercalate]

lemma joined_ne_nil {parts : List Text} (hne : parts ≠ []) (h : ∀ part ∈ parts, part ≠ []) :
    joined parts ≠ [] := by
  obtain ⟨part, rest, rfl⟩ := exists_cons_of_ne_nil hne
  have hpart := h part mem_cons_self
  rcases rest with _ | ⟨next, rest⟩
  · simpa [joined, intercalate] using hpart
  · rw [joined_cons part (cons_ne_nil _ _)]
    simp

/-- The numbers with dots between them. -/
def dotted (numbers : List ℕ) : Text := joined (numbers.map digits)

/-- Missing components are zero. -/
def padded (numbers : List ℕ) : List ℕ := numbers ++ List.replicate (4 - numbers.length) 0

lemma repositoryComponents_dotted (numbers : List ℕ) (hne : numbers ≠ []) (count : ℕ)
    (hcount : numbers.length ≤ count) :
    repositoryComponents count (dotted numbers) = some (numbers.map digits) := by
  induction numbers generalizing count with
  | nil => exact absurd rfl hne
  | cons n numbers ih =>
    obtain ⟨count, rfl⟩ := Nat.exists_eq_add_one_of_ne_zero (show count ≠ 0 by
      simp only [length_cons] at hcount
      omega)
    unfold dotted
    rw [map_cons]
    rcases numbers with _ | ⟨m, numbers⟩
    · simpa [joined, intercalate] using repositoryComponents_last count (component_digits n)
    have hmore : (m :: numbers).map digits ≠ [] := cons_ne_nil _ _
    have hrest : joined ((m :: numbers).map digits) ≠ [] := by
      refine joined_ne_nil hmore fun part hpart => ?_
      obtain ⟨k, -, rfl⟩ := List.mem_map.mp hpart
      exact Nat.toDigits_ne_nil
    rw [joined_cons _ hmore, repositoryComponents_dot count (component_digits n) hrest]
    have := ih (cons_ne_nil _ _) count (Nat.le_of_succ_le_succ hcount)
    unfold dotted at this
    rw [this]
    rfl

lemma parseRepositoryVersion_dotted {numbers : List ℕ} (hmin : 2 ≤ numbers.length)
    (hmax : numbers.length ≤ 4) (hlength : (dotted numbers).length ≤ versionMax) :
    ∃ parts, parseRepositoryVersion (dotted numbers) = some parts ∧
      parts.map value = padded numbers := by
  have hne : numbers ≠ [] := by
    rintro rfl
    exact absurd hmin (by decide)
  refine ⟨numbers.map digits ++ replicate (4 - numbers.length) ['0'], ?_, ?_⟩
  · unfold parseRepositoryVersion
    rw [if_neg (not_lt.mpr hlength), repositoryComponents_dotted numbers hne 4 hmax]
    simp [hmin]
  unfold padded
  rw [map_append, map_map, map_replicate]
  congr 1
  exact (map_congr_left fun n _ => value_digits n).trans (map_id _)

/-! ### SemVers -/

/-- A word that can be an identifier: letters, digits and hyphens. -/
def wordText (text : Text) : Bool :=
  text != [] && text.all fun c => alphanumeric c || c == '-'

def Identifier.text : Identifier → Text
  | .number n => digits n
  | .word word => word

/-- Words with a letter or a hyphen. -/
def Identifier.Proper : Identifier → Prop
  | .number _ => True
  | .word word => wordText word = true ∧ identifierIsNumeric word = false

structure SemVer where
  major : ℕ
  minor : ℕ
  patch : ℕ
  prerelease : List Identifier
  build : List Text
  proper : ∀ i ∈ prerelease, Identifier.Proper i
  words : ∀ word ∈ build, wordText word = true

namespace SemVer

variable (v : SemVer)

def suffix (sign : Char) : List Text → Text
  | [] => []
  | parts => sign :: joined parts

def text : Text :=
  digits v.major ++ '.' :: (digits v.minor ++ '.' :: (digits v.patch ++
    (suffix '-' (v.prerelease.map Identifier.text) ++ suffix '+' v.build)))

/-- Build metadata does not count. -/
def rank : Rank := { v with }

end SemVer

lemma numericComponent_of_number {i : Identifier} (h : Identifier.Proper i) :
    wordText (Identifier.text i) = true ∧ identifier (Identifier.text i) = i ∧
      (identifierIsNumeric (Identifier.text i) = true →
        numericComponent (Identifier.text i) = true) := by
  cases i with
  | number n =>
    have hcomponent := component_digits n
    have hall : (digits n).all Char.isDigit = true := List.all_eq_true.mpr hcomponent.digits
    refine ⟨?_, ?_, fun _ => hcomponent.canonical⟩
    · unfold wordText
      rw [Bool.and_eq_true, bne_iff_ne, all_eq_true]
      refine ⟨Nat.toDigits_ne_nil, fun c hc => ?_⟩
      have hdigit := hcomponent.digits c hc
      simp only [Char.isDigit, Bool.and_eq_true, decide_eq_true_eq] at hdigit
      simp only [alphanumeric, Bool.or_eq_true, Bool.and_eq_true, decide_eq_true_eq]
      exact .inl (.inr hdigit)
    · show identifier (digits n) = .number n
      unfold identifier identifierIsNumeric
      rw [if_pos hall, value_digits]
  | word word =>
    have hword : identifierIsNumeric (Identifier.text (.word word)) = false := h.2
    refine ⟨h.1, ?_, fun hnumeric => ?_⟩
    · exact if_neg (by rw [hword]; decide)
    · rw [hword] at hnumeric
      cases hnumeric

lemma notMem_word {text : Text} (h : wordText text = true) : '.' ∉ text ∧ '+' ∉ text := by
  unfold wordText at h
  rw [Bool.and_eq_true, all_eq_true] at h
  exact ⟨fun hc => absurd (h.2 _ hc) (by decide), fun hc => absurd (h.2 _ hc) (by decide)⟩

lemma splitOn_joined {parts : List Text} (hne : parts ≠ [])
    (h : ∀ part ∈ parts, wordText part = true) : (joined parts).splitOn '.' = parts :=
  splitOn_intercalate '.' (fun part hp => (notMem_word (h part hp)).1) hne

lemma validateIdentifiers_joined {parts : List Text} {prerelease : Bool} (hne : parts ≠ [])
    (h : ∀ part ∈ parts, wordText part = true) (hnumber : prerelease = true → ∀ part ∈ parts,
      identifierIsNumeric part = true → numericComponent part = true) :
    validateIdentifiers (joined parts) prerelease = true := by
  unfold validateIdentifiers
  rw [splitOn_joined hne h, all_eq_true]
  intro part hp
  have hword := h part hp
  unfold wordText at hword
  rw [Bool.and_eq_true] at hword ⊢
  refine ⟨?_, ?_⟩
  · rw [Bool.and_eq_true]
    exact hword
  by_contra hbad
  simp only [Bool.not_eq_true, Bool.not_eq_false', Bool.and_eq_true] at hbad
  have hcomponent := hnumber hbad.1.1.1 part hp hbad.1.1.2
  unfold numericComponent at hcomponent
  rw [hbad.1.2, hbad.2] at hcomponent
  simp at hcomponent

lemma notMem_joined {parts : List Text} (h : ∀ part ∈ parts, wordText part = true) :
    '+' ∉ joined parts := by
  intro hmem
  induction parts with
  | nil => cases hmem
  | cons part rest ih =>
    have hpart := (notMem_word (h part mem_cons_self)).2
    rcases rest with _ | ⟨next, rest⟩
    · exact hpart (by simpa [joined, intercalate] using hmem)
    rw [joined_cons part (cons_ne_nil _ _)] at hmem
    rcases List.mem_append.mp hmem with hmem | hmem
    · exact hpart hmem
    rcases List.mem_cons.mp hmem with hmem | hmem
    · cases hmem
    · exact ih (fun x hx => h x (mem_cons_of_mem _ hx)) hmem

namespace SemVer

variable {v : SemVer}

lemma validBuild_suffix : validBuild (suffix '+' v.build) = true := by
  unfold suffix
  rcases hb : v.build with _ | ⟨word, rest⟩
  · rfl
  have hwords := v.words
  rw [hb] at hwords
  exact validateIdentifiers_joined (cons_ne_nil _ _) hwords fun hfalse =>
    (Bool.false_ne_true hfalse).elim

lemma head_suffix {sign : Char} {parts : List Text} :
    ∀ c ∈ (suffix sign parts).head?, c = sign := by
  intro c hc
  cases parts with
  | nil => cases hc
  | cons part rest => exact (Option.some.inj hc).symm

lemma parseNumericComponent_dot {part : Text} (h : Component part) (rest : Text) :
    parseNumericComponent (part ++ '.' :: rest) (some '.') = some (part, rest) := by
  have hdot : ∀ c ∈ ('.' :: rest).head?, c.isDigit = false := fun c hc => by cases hc; rfl
  obtain ⟨htake, hdrop⟩ := takeWhile_digits h hdot
  unfold parseNumericComponent
  rw [htake, hdrop]
  dsimp only
  rw [h.canonical]
  rfl

lemma parseNumericComponent_last {part rest : Text} (h : Component part)
    (hrest : ∀ c ∈ rest.head?, c.isDigit = false) :
    parseNumericComponent (part ++ rest) none = some (part, rest) := by
  obtain ⟨htake, hdrop⟩ := takeWhile_digits h hrest
  unfold parseNumericComponent
  rw [htake, hdrop]
  dsimp only
  rw [h.canonical]
  rfl

lemma parseSemver_release {major minor patch suffix : Text} (hmajor : Component major)
    (hminor : Component minor) (hpatch : Component patch) (hhead : ∀ c ∈ suffix.head?, c = '+')
    (hbuild : validBuild suffix = true) :
    parseSemver (major ++ '.' :: (minor ++ '.' :: (patch ++ suffix))) =
      some ⟨major, minor, patch, []⟩ := by
  have hdigit : ∀ c ∈ suffix.head?, c.isDigit = false := fun c hc => by rw [hhead c hc]; rfl
  unfold parseSemver
  simp only [parseNumericComponent_dot hmajor, parseNumericComponent_dot hminor,
    parseNumericComponent_last hpatch hdigit, Option.bind_eq_bind, Option.bind_some, hbuild]
  rcases suffix with _ | ⟨c, rest⟩
  · rfl
  · rw [hhead c rfl]
    rfl

lemma parseSemver_prerelease {major minor patch prerelease build : Text}
    (hmajor : Component major) (hminor : Component minor) (hpatch : Component patch)
    (hplus : '+' ∉ prerelease) (hprerelease : validateIdentifiers prerelease true = true)
    (hhead : ∀ c ∈ build.head?, c = '+') (hbuild : validBuild build = true) :
    parseSemver (major ++ '.' :: (minor ++ '.' :: (patch ++ '-' :: (prerelease ++ build)))) =
      some ⟨major, minor, patch, prerelease⟩ := by
  have hdigit : ∀ c ∈ ('-' :: (prerelease ++ build)).head?, c.isDigit = false := fun c hc => by
    cases hc
    rfl
  have hpart : ∀ c ∈ prerelease, (c != '+') = true := by
    intro c hc
    rw [bne_iff_ne]
    rintro rfl
    exact hplus hc
  have hcut : (prerelease ++ build).takeWhile (· != '+') = prerelease ∧
      (prerelease ++ build).dropWhile (· != '+') = build := by
    rw [takeWhile_append_of_pos hpart, dropWhile_append_of_pos hpart]
    rcases build with _ | ⟨c, rest⟩
    · simp
    · rw [hhead c rfl]
      simp
  unfold parseSemver
  simp only [parseNumericComponent_dot hmajor, parseNumericComponent_dot hminor,
    parseNumericComponent_last hpatch hdigit, Option.bind_eq_bind, Option.bind_some, hcut.1,
    hcut.2, hprerelease, hbuild]
  rfl

/-- **A SemVer is read as what it is.** -/
theorem parseSemver_text (v : SemVer) :
    ∃ view, parseSemver v.text = some view ∧ Precedence.rank view = v.rank := by
  unfold text
  have hproper := v.proper
  rcases hids : v.prerelease with _ | ⟨i, ids⟩
  · refine ⟨_, parseSemver_release (component_digits _) (component_digits _) (component_digits _)
      head_suffix validBuild_suffix, ?_⟩
    simp [Precedence.rank, rank, hids, identifiers]
  rw [hids] at hproper
  have hword : ∀ part ∈ (i :: ids).map Identifier.text, wordText part = true ∧
      (identifierIsNumeric part = true → numericComponent part = true) := by
    intro part hp
    obtain ⟨j, hj, rfl⟩ := List.mem_map.mp hp
    have hnumber := numericComponent_of_number (hproper j hj)
    exact ⟨hnumber.1, hnumber.2.2⟩
  have hne : (i :: ids).map Identifier.text ≠ [] := cons_ne_nil _ _
  have hwords := fun part hp => (hword part hp).1
  refine ⟨_, parseSemver_prerelease (component_digits _) (component_digits _) (component_digits _)
    (notMem_joined hwords) (validateIdentifiers_joined hne hwords fun _ part hp =>
      (hword part hp).2) head_suffix validBuild_suffix, ?_⟩
  have hnil : joined ((i :: ids).map Identifier.text) ≠ [] := by
    refine joined_ne_nil hne fun part hp => ?_
    have hpart := hwords part hp
    rintro rfl
    cases hpart
  have hidentifiers : ((i :: ids).map Identifier.text).map identifier = i :: ids := by
    rw [map_map]
    exact (map_congr_left fun j hj => (numericComponent_of_number (hproper j hj)).2.1).trans
      (map_id _)
  unfold Precedence.rank rank identifiers
  rw [if_neg hnil, splitOn_joined hne hwords, hidentifiers, hids]
  simp only [value_digits]

end SemVer

/-! ### The order -/

lemma compareText_dotted {a b : List ℕ} (ha : 2 ≤ a.length ∧ a.length ≤ 4)
    (hb : 2 ≤ b.length ∧ b.length ≤ 4) (hfits : (dotted a).length ≤ versionMax ∧
      (dotted b).length ≤ versionMax) :
    versionCompare (dotted a) (dotted b) =
      some (List.compareLex compare (padded a) (padded b)) := by
  obtain ⟨l, hl, hvalue⟩ := parseRepositoryVersion_dotted ha.1 ha.2 hfits.1
  obtain ⟨r, hr, hvalue'⟩ := parseRepositoryVersion_dotted hb.1 hb.2 hfits.2
  rw [versionCompare_repository hl hr, hvalue, hvalue']

def release (x y z : ℕ) : SemVer :=
  ⟨x, y, z, [], [], fun _ hi => (by cases hi), fun _ hw => (by cases hw)⟩

lemma text_release (x y z : ℕ) : (release x y z).text = dotted [x, y, z] := by
  simp [release, SemVer.text, SemVer.suffix, dotted, joined, intercalate]

lemma semver_order (a b : SemVer) :
    versionCompare a.text b.text = some (a.rank.order b.rank) := by
  obtain ⟨l, hl, hrank⟩ := SemVer.parseSemver_text a
  obtain ⟨r, hr, hrank'⟩ := SemVer.parseSemver_text b
  rw [versionCompare_semver hl hr, hrank, hrank']

lemma release_order (x y z x' y' z' : ℕ) : versionCompare (dotted [x, y, z]) (dotted [x', y', z']) =
    some (List.compareLex compare (padded [x, y, z]) (padded [x', y', z'])) := by
  rw [← text_release, ← text_release, semver_order]
  have hpadded : ∀ x y z : ℕ, padded [x, y, z] = [x, y, z, 0] := fun _ _ _ => rfl
  rw [hpadded, hpadded]
  simp only [List.compareLex_cons_cons]
  rfl

/-- **Versions are ordered.** The comparison changes its sign with its arguments and is transitive
wherever it is defined; dotted numbers are compared as numbers, missing ones as zero, and SemVers
by precedence; so no update goes both ways. -/
theorem version_order :
    (∀ a b, versionCompare b a = (versionCompare a b).map Ordering.swap) ∧
      (∀ a b c ab bc ac, versionCompare a b = some ab → versionCompare b c = some bc →
        versionCompare a c = some ac → Transitive ab bc ac) ∧
      (∀ a b : List ℕ, 2 ≤ a.length ∧ a.length ≤ 4 → 2 ≤ b.length ∧ b.length ≤ 4 →
        ((dotted a).length ≤ versionMax ∧ (dotted b).length ≤ versionMax) ∨
          (a.length = 3 ∧ b.length = 3) →
        versionCompare (dotted a) (dotted b) =
          some (List.compareLex compare (padded a) (padded b))) ∧
      (∀ a b : SemVer, versionCompare a.text b.text = some (a.rank.order b.rank)) ∧
      ∀ a b, ¬(installDecision a b = 1 ∧ installDecision b a = 1) := by
  refine ⟨fun a b => (versionCompare_swap a b).symm,
    fun a b c ab bc ac => versionCompare_transitive, fun a b ha hb hfits => ?_, semver_order,
    installDecision_oneWay⟩
  rcases hfits with hfits | ⟨hthree, hthree'⟩
  · exact compareText_dotted ha hb hfits
  · obtain ⟨x, y, z, rfl⟩ := List.length_eq_three.mp hthree
    obtain ⟨x', y', z', rfl⟩ := List.length_eq_three.mp hthree'
    exact release_order x y z x' y' z'

/-- Two components of more than `C1PKG_VERSION_MAX` characters are not compared. -/
theorem version_order_fails : ¬∀ a b : List ℕ, 2 ≤ a.length ∧ a.length ≤ 4 →
    2 ≤ b.length ∧ b.length ≤ 4 → versionCompare (dotted a) (dotted b) =
      some (List.compareLex compare (padded a) (padded b)) := by
  intro h
  have hlong := h [10 ^ 48, 1] [1, 0] (by decide) (by decide)
  have hnone : versionCompare (dotted [10 ^ 48, 1]) (dotted [1, 0]) = none := by decide +kernel
  rw [hnone] at hlong
  cases hlong

end C1auncher.Package.VersionOrder
