import C1auncher.CString

/-!
Names, paths and versions of packages.

A repository version has two to four numeric components. Three components with a
pre-release or build suffix are SemVer. Which of the two grammars a comparison uses
depends on both arguments.
-/

namespace C1auncher.Package.Version

open CString

/-! ### Names and paths -/

/-- `C1PKG_ID_MAX` -/
def idMax : ℕ := 32

/-- `C1PKG_VERSION_MAX` -/
def versionMax : ℕ := 48

/-- `C1PKG_ENTRY_MAX` -/
def entryMax : ℕ := 192

def noDoubleDot : Text → Bool
  | '.' :: '.' :: _ => false
  | _ :: text => noDoubleDot text
  | [] => true

/-- One path component, which no path separator can hide in. -/
def safeToken (value : Text) (maximum : ℕ) (version : Bool) : Bool :=
  value.length != 0 && value.length ≤ maximum && value.head? != some '.' &&
    value.getLast? != some '.' &&
    value.all (fun c => alphanumeric c || c == '.' || c == '_' || c == '-' ||
      (version && c == '+')) &&
    noDoubleDot value

def safeId (value : Text) : Bool := safeToken value idMax false

def safeVersion (value : Text) : Bool := safeToken value versionMax true

/-- A relative path without empty, `.` and `..` components and without patterns. -/
def safeRelpath (value : Text) : Bool :=
  value.length != 0 && value.length ≤ entryMax && value.head? != some '/' &&
    value.getLast? != some '/' &&
    (value.splitOn '/').all (fun component =>
      component != [] && component != ['.'] && component != ['.', '.']) &&
    value.all fun c => c == '/' || ('!' ≤ c && c ≤ '~' && c != '\\' && c != ':' && c != '*' &&
      c != '?' && c != '[')

lemma ne_nil_of_safeVersion {value : Text} (h : safeVersion value) : value ≠ [] := by
  rintro rfl
  simp [safeVersion, safeToken] at h

/-! ### Comparing identifiers -/

/-- `memcmp` over the length the two texts have in common. -/
def memcmp : Text → Text → Ordering
  | c :: left, c' :: right => (compare c c').then (memcmp left right)
  | _, _ => .eq

/-- Numbers without leading zeros, of any length. -/
def compareTextNumber (left right : Text) : Ordering :=
  (compare left.length right.length).then (memcmp left right)

def identifierIsNumeric (value : Text) : Bool := value.all Char.isDigit

/-- Numbers come before words. -/
def compareIdentifier (left right : Text) : Ordering :=
  match identifierIsNumeric left, identifierIsNumeric right with
  | true, true => compareTextNumber left right
  | true, false => .lt
  | false, true => .gt
  | false, false => (memcmp left right).then (compare left.length right.length)

/-- The loop of `compare_prerelease`, identifier by identifier. -/
def compareIdentifiers : List Text → List Text → Ordering
  | [], [] => .eq
  | [], _ :: _ => .lt
  | _ :: _, [] => .gt
  | left :: lefts, right :: rights =>
    (compareIdentifier left right).then (compareIdentifiers lefts rights)

/-- A version without pre-release comes after those with one. -/
def comparePrerelease (left right : Text) : Ordering :=
  match left, right with
  | [], [] => .eq
  | [], _ :: _ => .gt
  | _ :: _, [] => .lt
  | _, _ => compareIdentifiers (left.splitOn '.') (right.splitOn '.')

/-! ### The two grammars -/

/-- Digits without a leading zero. -/
def numericComponent (value : Text) : Bool :=
  value != [] && !(1 < value.length && value.head? == some '0')

def parseNumericComponent (text : Text) (terminator : Option Char) : Option (Text × Text) :=
  let value := text.takeWhile Char.isDigit
  let rest := text.dropWhile Char.isDigit
  if !numericComponent value then none
  else
    match terminator with
    | none => some (value, rest)
    | some c => if rest.head? = some c then some (value, rest.tail) else none

/-- Dot-separated identifiers; a numeric one of a pre-release has no leading zero. -/
def validateIdentifiers (value : Text) (prerelease : Bool) : Bool :=
  (value.splitOn '.').all fun identifier =>
    identifier != [] && identifier.all (fun c => alphanumeric c || c == '-') &&
      !(prerelease && identifierIsNumeric identifier && 1 < identifier.length &&
        identifier.head? == some '0')

/-- `struct semver_view` -/
structure SemverView where
  major : Text
  minor : Text
  patch : Text
  prerelease : Text
  deriving DecidableEq

def validBuild : Text → Bool
  | [] => true
  | '+' :: build => validateIdentifiers build false
  | _ => false

def parseSemver (value : Text) : Option SemverView := do
  let (major, text) ← parseNumericComponent value (some '.')
  let (minor, text) ← parseNumericComponent text (some '.')
  let (patch, text) ← parseNumericComponent text none
  match text with
  | '-' :: suffix =>
    let prerelease := suffix.takeWhile (· != '+')
    guard (validateIdentifiers prerelease true && validBuild (suffix.dropWhile (· != '+')))
    return ⟨major, minor, patch, prerelease⟩
  | _ =>
    guard (validBuild text)
    return ⟨major, minor, patch, []⟩

/-- The components that are left to read, at most so many. -/
def repositoryComponents : ℕ → Text → Option (List Text)
  | 0, text => if text = [] then some [] else none
  | count + 1, text =>
    let value := text.takeWhile Char.isDigit
    if !numericComponent value then none
    else
      match text.dropWhile Char.isDigit with
      | [] => some [value]
      | '.' :: c :: rest => (repositoryComponents count (c :: rest)).map (value :: ·)
      | _ => none

/-- Two to four components, filled up with zeros. -/
def parseRepositoryVersion (value : Text) : Option (List Text) :=
  if versionMax < value.length then none
  else
    match repositoryComponents 4 value with
    | some parts =>
      if 2 ≤ parts.length then some (parts ++ List.replicate (4 - parts.length) ['0']) else none
    | none => none

/-- The components in order, up to the first difference. -/
def compareParts : List Text → List Text → Ordering
  | left :: lefts, right :: rights =>
    (compareTextNumber left right).then (compareParts lefts rights)
  | _, _ => .eq

def versionCompare (left right : Text) : Option Ordering :=
  match parseRepositoryVersion left, parseRepositoryVersion right with
  | some l, some r => some (compareParts l r)
  | _, _ =>
    match parseSemver left, parseSemver right with
    | some l, some r =>
      some ((compareParts [l.major, l.minor, l.patch] [r.major, r.minor, r.patch]).then
        (comparePrerelease l.prerelease r.prerelease))
    | _, _ => none

/-- `1` to install, `0` for the same version, `-1` to refuse. -/
def installDecision (installed available : Text) : Int :=
  if available = [] then -1
  else if installed = [] then 1
  else if installed = available then 0
  else
    match versionCompare available installed with
    | none => -1
    | some .gt => 1
    | some .eq => 0
    | some .lt => -1

/-! ### The order is antisymmetric -/

lemma memcmp_swap (left right : Text) : (memcmp left right).swap = memcmp right left := by
  induction left generalizing right with
  | nil => cases right <;> rfl
  | cons c left ih =>
    cases right with
    | nil => rfl
    | cons c' right =>
      simp only [memcmp, Ordering.swap_then, ih]
      rw [← Std.OrientedCmp.eq_swap]

lemma compareTextNumber_swap (left right : Text) :
    (compareTextNumber left right).swap = compareTextNumber right left := by
  simp only [compareTextNumber, Ordering.swap_then, memcmp_swap]
  rw [← Std.OrientedCmp.eq_swap]

lemma compareIdentifier_swap (left right : Text) :
    (compareIdentifier left right).swap = compareIdentifier right left := by
  unfold compareIdentifier
  cases identifierIsNumeric left <;> cases identifierIsNumeric right
  · simp only [Ordering.swap_then, memcmp_swap]
    rw [← Std.OrientedCmp.eq_swap]
  · rfl
  · rfl
  · exact compareTextNumber_swap left right

lemma compareIdentifiers_swap (lefts rights : List Text) :
    (compareIdentifiers lefts rights).swap = compareIdentifiers rights lefts := by
  induction lefts generalizing rights with
  | nil => cases rights <;> rfl
  | cons left lefts ih =>
    cases rights with
    | nil => rfl
    | cons right rights =>
      simp only [compareIdentifiers, Ordering.swap_then, ih, compareIdentifier_swap]

lemma comparePrerelease_swap (left right : Text) :
    (comparePrerelease left right).swap = comparePrerelease right left := by
  cases left <;> cases right
  · rfl
  · rfl
  · rfl
  · exact compareIdentifiers_swap _ _

lemma compareParts_swap (lefts rights : List Text) :
    (compareParts lefts rights).swap = compareParts rights lefts := by
  induction lefts generalizing rights with
  | nil => cases rights <;> rfl
  | cons left lefts ih =>
    cases rights with
    | nil => rfl
    | cons right rights =>
      simp only [compareParts, Ordering.swap_then, ih, compareTextNumber_swap]

/-- **The comparison is antisymmetric.** Swapping the two versions swaps the result, and one
order is defined exactly when the other is. -/
theorem versionCompare_swap (left right : Text) :
    (versionCompare left right).map Ordering.swap = versionCompare right left := by
  unfold versionCompare
  cases parseRepositoryVersion left <;> cases parseRepositoryVersion right <;>
    cases parseSemver left <;> cases parseSemver right <;>
    simp only [Option.map_none, Option.map_some, Ordering.swap_then, compareParts_swap,
      comparePrerelease_swap]

/-- Nothing is installed over itself. -/
theorem ne_of_installDecision {installed available : Text}
    (h : 0 < installDecision installed available) : installed ≠ available := by
  rintro rfl
  unfold installDecision at h
  split_ifs at h
  all_goals simp_all

end C1auncher.Package.Version
