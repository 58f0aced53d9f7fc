import C1auncher.Update.StateStore

/-!
Releases: what a signed manifest says, which releases a host can run, and how the directory
and the links of a release are named.
-/

namespace C1auncher.Update.Protocol

open CString Update.StateStore List

/-! ### Manifests -/

/-- A release whose signature was checked and whose manifest was parsed; `digest` is the
SHA-256 of the manifest. The parser sees to the well-formed fields. -/
structure Release where
  sequence : UInt64
  version : Text
  securityEpoch : UInt64
  minBootstrap : Text
  minUpdater : Text
  digest : Text
  signature : Text
  sequence_ne_zero : sequence ≠ 0
  securityEpoch_ne_zero : securityEpoch ≠ 0
  version_token : safeToken version
  digest_valid : validDigest digest

/-! ### Compatibility -/

/-- The digits of a version part; a part that grew past a million is refused. -/
def versionDigits (value : ℕ) : Text → Option (ℕ × Text)
  | [] => some (value, [])
  | c :: text =>
    if c.isDigit then
      if value > 1000000 then none else versionDigits (value * 10 + (c.toNat - 48)) text
    else some (value, c :: text)

/-- A canonical number at the front of a text, and the rest. -/
def versionPart (text : Text) : Option (ℕ × Text) := do
  guard (text.head?.any Char.isDigit)
  let (value, rest) ← versionDigits 0 text
  guard ¬(text.length - rest.length > 1 ∧ text.head? = some '0')
  some (value, rest)

def versionParts (text : Text) : Option (ℕ × ℕ × ℕ) := do
  let (major, text) ← versionPart text
  guard (text.head? = some '.')
  let (minor, text) ← versionPart text.tail
  guard (text.head? = some '.')
  let (patch, text) ← versionPart text.tail
  guard (text = [])
  some (major, minor, patch)

/-- The first part that differs decides. -/
def versionSatisfies (local_ minimum : Text) : Bool :=
  match versionParts local_, versionParts minimum with
  | some (a0, a1, a2), some (b0, b1, b2) =>
    if a0 ≠ b0 then a0 > b0 else if a1 ≠ b1 then a1 > b1 else if a2 ≠ b2 then a2 > b2 else true
  | _, _ => false

/-- `C1_UPDATER_VERSION` -/
def updaterVersion : Text := ['1', '.', '1', '.', '0']

/-- The bootstrap of a host without a capability record. -/
def legacyBootstrap : Text := ['1', '.', '0', '.', '0']

/-- `/etc/c1updater/bootstrap.version`: absent, rejected, or the version it vouches for. -/
inductive BootstrapRecord
  | missing
  | rejected
  | version (text : Text)

def checkCompatibilityVersions (release : Release) (bootstrap updater : Text) : Bool :=
  versionSatisfies bootstrap release.minBootstrap && versionSatisfies updater release.minUpdater

/-- A damaged record never prevents a release that needs the legacy bootstrap only. -/
def checkCompatibility (host : BootstrapRecord) (release : Release) : Bool :=
  checkCompatibilityVersions release legacyBootstrap updaterVersion ||
    match host with
    | .missing => checkCompatibilityVersions release legacyBootstrap updaterVersion
    | .rejected => false
    | .version text => checkCompatibilityVersions release text updaterVersion

/-! ### Names -/

def releaseName (sequence : UInt64) (version : Text) : Text := decimal sequence ++ '-' :: version

def releasesPrefix : Text := ['r', 'e', 'l', 'e', 'a', 's', 'e', 's', '/']

def candidateTarget (state : State) : Text :=
  releasesPrefix ++ releaseName state.sequence state.release

def safeReleaseName (name : Text) : Bool :=
  name != [] && name.length ≤ 2 * tokenMax + 24 &&
    name.all (fun c => alphanumeric c || punctuation c) && name.head? != some '.' &&
    name.getLast? != some '.'

/-- The name of the release a link selects. -/
def parseTarget (target : Text) : Option Text :=
  if releasesPrefix.isPrefixOf target then
    let name := target.drop releasesPrefix.length
    if name.contains '/' || !safeReleaseName name then none else some name
  else none

/-- The state is in a transaction for this very release, or was. -/
def stateIdentity (state : State) (release : Release) : Bool :=
  state.sequence == release.sequence && state.securityEpoch == release.securityEpoch &&
    state.release == release.version && state.digest == release.digest

lemma stateIdentity_iff {state : State} {release : Release} : stateIdentity state release ↔
    state.sequence = release.sequence ∧ state.securityEpoch = release.securityEpoch ∧
      state.release = release.version ∧ state.digest = release.digest := by
  simp [stateIdentity, and_assoc]

lemma releaseName_injective {n m : UInt64} {v w : Text}
    (h : releaseName n v = releaseName m w) : n = m ∧ v = w := by
  have htake : ∀ (n : UInt64) (v : Text),
      (releaseName n v).takeWhile Char.isDigit = decimal n := by
    intro n v
    rw [releaseName, takeWhile_append_of_pos fun c hc => decimal_isDigit hc]
    simp [show Char.isDigit '-' = false by decide]
  have hn : n = m := decimal_injective (by rw [← htake n v, ← htake m w, h])
  subst hn
  simpa [releaseName] using h

lemma safeReleaseName_releaseName (sequence : UInt64) {version : Text}
    (h : safeToken version) : safeReleaseName (releaseName sequence version) := by
  have hlen := decimal_length_le sequence
  have hlen' := length_of_safeToken h
  have hnil := ne_nil_of_safeToken h
  obtain ⟨c, rest, hc⟩ := exists_cons_of_ne_nil (decimal_ne_nil sequence)
  have hdigit : c.isDigit := decimal_isDigit (by rw [hc]; exact mem_cons_self)
  have hdigits : ∀ c ∈ decimal sequence, alphanumeric c := by
    intro c hc
    have := decimal_isDigit hc
    simp only [Char.isDigit, Bool.and_eq_true, decide_eq_true_eq] at this
    simp only [alphanumeric, Bool.or_eq_true, Bool.and_eq_true, decide_eq_true_eq]
    exact .inr this
  simp only [safeToken, Bool.and_eq_true, all_eq_true] at h
  simp only [safeReleaseName, Bool.and_eq_true, bne_iff_ne, decide_eq_true_eq, all_eq_true]
  refine ⟨⟨⟨⟨?_, ?_⟩, ?_⟩, ?_⟩, ?_⟩
  · simp [releaseName]
  · simp only [releaseName, tokenMax, length_append, length_cons]
    omega
  · intro x hx
    rcases List.mem_append.mp hx with hx | hx
    · simp [hdigits x hx]
    rcases List.mem_cons.mp hx with rfl | hx
    · decide
    · exact h.1.1.2 x hx
  · rw [releaseName, hc]
    simp only [cons_append, head?_cons, ne_eq, Option.some.injEq]
    rintro rfl
    exact absurd hdigit (by decide)
  · -- the last character is the one of the version
    obtain ⟨last, hlast⟩ : ∃ c, version.getLast? = some c := by
      simpa [getLast?_eq_some_iff, Option.isSome_iff_exists] using
        List.getLast?_isSome.mpr hnil
    have hal : alphanumeric last := by simpa [hlast] using h.2
    have hname : (releaseName sequence version).getLast? = some last := by
      rw [releaseName, getLast?_append, getLast?_cons, hlast]
      simp
    rw [hname]
    intro hdot
    rw [Option.some.inj hdot] at hal
    exact absurd hal (by decide)

lemma parseTarget_candidateTarget {state : State} (h : safeToken state.release) :
    parseTarget (candidateTarget state) = some (releaseName state.sequence state.release) := by
  have hsafe := safeReleaseName_releaseName state.sequence h
  have hslash : '/' ∉ releaseName state.sequence state.release := by
    intro hc
    simp only [safeReleaseName, Bool.and_eq_true, all_eq_true] at hsafe
    exact absurd (hsafe.1.1.2 _ hc) (by decide)
  have hpre : releasesPrefix.isPrefixOf (candidateTarget state) := by simp [candidateTarget]
  have hdrop : (candidateTarget state).drop releasesPrefix.length
      = releaseName state.sequence state.release := by simp [candidateTarget]
  simp [parseTarget, hpre, hdrop, hslash, hsafe]

lemma eq_of_parseTarget {target name : Text} (h : parseTarget target = some name) :
    target = releasesPrefix ++ name := by
  unfold parseTarget at h
  split_ifs at h with hpre
  dsimp only at h
  split_ifs at h
  obtain ⟨rest, hrest⟩ := List.isPrefixOf_iff_prefix.mp hpre
  rw [← Option.some.inj h, ← hrest]
  simp

end C1auncher.Update.Protocol
