import C1auncher.Update.Moves

/-!
Checking for an update, against preparing it.

`c1_update_check` orders the release by its sequence number alone and does not look at the
phase; `process_release` admits a release by the phase as well. What either says about a
state the other can be told from.
-/

namespace C1auncher.Update.Check

open Durable Durable.Prog CString
open Update.StateStore Update.StateCommit Update.CommitProgress
open Update.Protocol Update.Transaction Update.Boot
open Update.AntiRollback Update.Preparation Update.Moves

/-! ### The check -/

/-- The contract field of a manifest that the check accepts. -/
def coreContract : Text := ['c', '1', '-', 'c', 'o', 'r', 'e', '-', 'v', '1']

structure CheckResult where
  sequence : UInt64
  version : Text
  available : Bool
  deriving DecidableEq

inductive CheckError
  | incompatible
  /-- "release compatibility contract rejected" -/
  | contract
  /-- "release rollback rejected" -/
  | rollback
  /-- "release identity conflict rejected" -/
  | identityConflict
  deriving DecidableEq

/-- `c1_update_check`, once the manifest is verified: `before` is the state that was loaded
before the manifest was fetched, `state` the one loaded after, and `contract` the manifest's
contract field. -/
def updateCheck (host : BootstrapRecord) (before state : State) (contract : Text)
    (release : Release) : Except CheckError CheckResult :=
  if !checkCompatibility host release then .error .incompatible
  else if contract ≠ coreContract then .error .contract
  else if state.sequence < before.sequence ∨ state.securityEpoch < before.securityEpoch ∨
      release.sequence < state.sequence ∨ release.securityEpoch < state.securityEpoch then
    .error .rollback
  else if state.generation ≠ 0 ∧ release.sequence = state.sequence ∧
      (release.securityEpoch ≠ state.securityEpoch ∨ release.version ≠ state.release ∨
        release.digest ≠ state.digest) then
    .error .identityConflict
  else .ok ⟨release.sequence, release.version, release.sequence > state.sequence⟩

/-! ### The admission tests of a preparation -/

inductive Refusal
  /-- "release rollback rejected" -/
  | rollback
  /-- "release identity conflict rejected" -/
  | identityConflict
  /-- "another update transaction is active" -/
  | activeTransaction
  /-- "update phase cannot prepare a release" -/
  | phase
  deriving DecidableEq

/-- The test of `process_release` that turns a release away, of those that look at the state
and the release only. -/
def refusal (state : State) (release : Release) : Option Refusal :=
  if state.generation ≠ 0 ∧
      (state.sequence > release.sequence ∨ state.securityEpoch > release.securityEpoch) then
    some .rollback
  else if state.generation ≠ 0 ∧ state.sequence = release.sequence ∧
      ¬stateIdentity state release then
    some .identityConflict
  else if state.phase = .confirmed ∧ stateIdentity state release then none
  else if state.phase ≠ .idle ∧ state.phase ≠ .confirmed ∧ ¬stateIdentity state release then
    some .activeTransaction
  else if state.phase = .pendingBoot then some .phase
  else none

variable {host : BootstrapRecord} {d : Device} {s : State} {release : Release}

lemma admits_iff_refusal : admits s release ↔
    refusal s release ≠ some .rollback ∧ refusal s release ≠ some .identityConflict := by
  rw [admits_iff]
  unfold refusal
  split_ifs with h1 h2
  · refine iff_of_false (fun h => ?_) (by simp)
    obtain ⟨hseq, hepoch, -⟩ := h h1.1
    rcases h1.2 with hlt | hlt
    · exact UInt64.not_lt.mpr hseq hlt
    · exact UInt64.not_lt.mpr hepoch hlt
  · exact iff_of_false (fun h => h2.2.2 ((h h2.1).2.2 h2.2.1)) (by simp)
  all_goals
    refine iff_of_true (fun hg => ?_) (by simp)
    have hle : ¬(s.sequence > release.sequence ∨ s.securityEpoch > release.securityEpoch) :=
      fun h => h1 ⟨hg, h⟩
    exact ⟨UInt64.not_lt.mp fun h => hle (.inl h), UInt64.not_lt.mp fun h => hle (.inr h),
      fun heq => not_not.mp fun hid => h2 ⟨hg, heq, hid⟩⟩

lemma prepare_of_refusal (hs : d.state = some s) (h : refusal s release ≠ none) :
    wp (prepare host release) (fun _ _ => False) (· = d) (· = d) d := by
  refine wp_bind (wp_tick (wp_bind (wp_tick (wp_bind ?_) rfl rfl)) rfl rfl)
  refine wp_bind (wp_require (fun _ => ?_) fun _ => rfl)
  refine wp_bind (wp_stateLoad hs ?_ rfl rfl)
  refine wp_bind (wp_require (fun hadmits => ?_) fun _ => rfl)
  obtain ⟨hroll, hconflict⟩ := admits_iff_refusal.mp hadmits
  unfold refusal at h hroll hconflict
  split_ifs at h hroll hconflict with h1 h2 h3 h4 h5
  · exact absurd rfl hroll
  · exact absurd rfl hconflict
  · exact absurd rfl h
  · rw [if_neg h3]
    refine wp_bind (wp_require (fun hactive => ?_) fun _ => rfl)
    rcases hactive with hp | hp | hp
    · exact absurd hp h4.1
    · exact absurd hp h4.2.1
    · exact absurd hp h4.2.2
  · rw [if_neg h3]
    refine wp_bind (wp_require (fun _ => ?_) fun _ => rfl)
    refine wp_bind (wp_tick (wp_bind (wp_look ?_ rfl rfl)) rfl rfl)
    refine wp_bind (wp_require (fun _ => ?_) fun _ => rfl)
    simp only [h5]
    exact wp_fail rfl
  · exact absurd rfl h

/-! ### A preparation that is let in -/

lemma identityValid_of_admits (hs : d.state = some s) (h : admits s release) :
    identityValid (some s) release.sequence release.securityEpoch release.version
      release.digest := by
  have hwell : ¬(release.sequence == 0 || release.securityEpoch == 0 ||
      !safeToken release.version || !validDigest release.digest) = true := by
    simp [release.sequence_ne_zero, release.securityEpoch_ne_zero, release.version_token,
      release.digest_valid]
  rw [identityValid, if_neg hwell]
  rcases generation_ne_zero_of_readState hs with rfl | hg
  · rfl
  obtain ⟨hseq, hepoch, hid⟩ := admits_iff.mp h hg
  have hold : ¬(decide (release.sequence < s.sequence) ||
      decide (release.securityEpoch < s.securityEpoch)) = true := by
    simpa using ⟨hseq, hepoch⟩
  rw [if_neg hold]
  split_ifs
  · rfl
  by_cases heq : release.sequence = s.sequence
  · obtain ⟨-, -, h3, h4⟩ := stateIdentity_iff.mp (hid heq.symm)
    simp [h3, h4]
  · simp [heq]

/-- What a calm preparation of a release needs where none is in progress: a release directory
that is absent or the right one, and numbers for its commits that no other state occupies. -/
structure CanStart (d : Device) (s : State) (release : Release) : Prop where
  directory : (d.releases (releaseName release.sequence release.version)).all
    (releaseMatches · release)
  fits : s.generation.toNat + 3 < 2 ^ 64
  opened : Free (openState s release) d.store
  verified : Free (inPhase (openState s release) 1 .verified) d.store
  prepared : Free (inPhase (openState s release) 2 .prepared) d.store

lemma prepare_starts (hs : d.state = some s) (hphase : s.phase = .idle ∨ s.phase = .confirmed)
    (hadmits : admits s release) (hnew : ¬(s.phase = .confirmed ∧ stateIdentity s release))
    (hhost : checkCompatibility host release) (hstart : CanStart d s release) :
    ∃ d' s', Returns (prepare host release) d () d' ∧ d'.state = some s' ∧
      s'.phase = .prepared ∧ stateIdentity s' release := by
  have hmax := ne_max_of_fits hstart.fits (by omega)
  have hgen : (openState s release).generation.toNat = s.generation.toNat + 1 :=
    succ_toNat hmax
  have ht : updateTransition (some s) .downloading release.sequence release.securityEpoch
      release.version release.digest false = some (openState s release) :=
    transition_step hmax (by rcases hphase with h | h <;> simp [h, phaseAllowed, Phase.index])
      (identityValid_of_admits hs hadmits)
  obtain ⟨st, hret, hsel, hst⟩ := returns_advanceState hs ht hstart.opened
  have hid : stateIdentity (openState s release) release := by simp [stateIdentity, openState]
  have hlater : ∀ (n : UInt64) (phase : Phase), n ≠ 0 →
      (inPhase (openState s release) n phase).generation ≠ (openState s release).generation := by
    intro n phase hn hc
    exact hn (by simpa [inPhase] using hc)
  have hfin : CanFinish (d.setStore st) (openState s release) release :=
    { directory := hstart.directory
      fits := by have := hstart.fits; omega
      verified := fun _ => hstart.verified.of_selected hsel (hlater 1 _ (by decide))
      prepared := fun _ => hstart.prepared.of_selected hsel (hlater 2 _ (by decide))
      next := fun h => by simp [openState] at h }
  obtain ⟨d', n, hacq, hd'⟩ := returns_acquireRelease
    (d.releases (releaseName release.sequence release.version)).isSome hst (.inl rfl) hid hfin
  refine ⟨d', _, Returns.tick.bind (Returns.tick.bind (Returns.bind (a := ()) ?_
    (Returns.tick.attempt.bind Returns.pure))), hd', rfl, hid⟩
  refine (Returns.require hhost).bind ((returns_stateLoad hs).bind
    ((Returns.require hadmits).bind ?_))
  rw [if_neg hnew]
  refine (Returns.require (hphase.imp_right .inl)).bind (Returns.tick.bind (Returns.look.bind
    ((Returns.require hstart.directory).bind ?_)))
  rcases hphase with h | h
  · simp only [h]
    exact hret.bind hacq.orElse
  · simp only [h]
    exact hret.bind hacq.orElse

/-! ### A preparation of the release the device is at -/

def AtRelease (release : Release) (d : Device) : Prop :=
  ∃ s, d.state = some s ∧ stateIdentity s release

def Stays (release : Release) (d d' : Device) : Prop := AtRelease release d → AtRelease release d'

instance : Std.Refl (Stays release) := ⟨fun _ h => h⟩

instance : IsTrans Device (Stays release) := ⟨fun _ _ _ h h' hd => h' (h hd)⟩

lemma stays_of_store {d d' : Device} (h : d'.store = d.store) : Stays release d d' := by
  rintro ⟨s, hs, hid⟩
  exact ⟨s, by unfold Device.state at hs ⊢; rw [h, hs], hid⟩

lemma stays_stateCommit {next : State} (h : stateIdentity next release) :
    Along (Stays release) (stateCommit s next) := by
  intro d
  have hpoint : ∀ st, CommitPoint s next d.store st → Stays release d (d.setStore st) := by
    rintro st hp ⟨s', hs', hid⟩
    cases hp with
    | kept hk => exact ⟨s', hk.readState.trans hs', hid⟩
    | written _ hl hw => exact ⟨s', (hw.readState hl).trans (hl.symm.trans hs'), hid⟩
    | selected hacc hl hsel =>
      exact ⟨next, hsel.readState (generation_ne_zero_of_accepts hacc), h⟩
  refine wp_zoom (wp_mono (wp_updateStateCommit s next d.store) ?_ hpoint hpoint)
  rintro - st ⟨hacc, ⟨-, hk⟩ | ⟨hl, hsel⟩⟩
  · exact hpoint st (.kept hk)
  · exact hpoint st (.selected hacc hl hsel)

lemma stays_advanceState (phase : Phase) :
    Along (Stays release) (advanceState s phase release) := by
  refine Along.get_bind fun next hnext => (stays_stateCommit ?_).bind fun _ => Along.pure next
  obtain ⟨-, ⟨hf, -⟩ | ⟨-, -, -, rfl⟩⟩ := transition_cases hnext
  · simp at hf
  · simp [stateIdentity]

lemma stays_stateLoad : Along (Stays release) stateLoad := fun _ =>
  wp_zoom (wp_updateStateLoad (fun _ _ => stays_of_store rfl) (stays_of_store rfl)
    (stays_of_store rfl))

lemma stays_failState : Along (Stays release) (failState release) := by
  refine Along.bind (Along.attempt ?_) fun _ => Along.pure _
  refine stays_stateLoad.bind fun state => Along.require_bind fun hreq =>
    Along.get_bind fun next hnext => stays_stateCommit ?_
  obtain ⟨-, ⟨-, -, -, rfl⟩ | ⟨hf, -⟩⟩ := transition_cases hnext
  · exact hreq.2.2
  · simp at hf

lemma stays_acquireRelease (exists_ : Bool) :
    Along (Stays release) (acquireRelease s release exists_) := by
  refine (Along.when _ (Along.tick.bind fun _ => Along.tick)).bind fun _ => Along.bind ?_
    fun state => ?_
  · split_ifs
    · exact stays_advanceState .verified
    · exact Along.pure s
  refine Along.bind (Along.when _ ?_) fun _ => (stays_advanceState .prepared).bind fun _ =>
    Along.pure _
  exact Along.tick.bind fun _ => Along.tick.bind fun _ =>
    (Along.act (R := Stays release) fun _ => stays_of_store (by rfl)).bind fun _ => Along.tick

lemma stays_prepare : Along (Stays release) (prepare host release) := by
  have hacquire : ∀ state exists_, Along (Stays release)
      (orElse (acquireRelease state release exists_) (failState release)) := fun _ _ =>
    (stays_acquireRelease _).orElse stays_failState
  have hprocess : Along (Stays release) (processRelease host release) := by
    refine (Along.require _).bind fun _ => stays_stateLoad.bind fun state =>
      (Along.require _).bind fun _ => ?_
    split_ifs
    · exact (Along.look _).bind fun _ => Along.require _
    refine (Along.require _).bind fun _ => Along.tick.bind fun _ => (Along.look _).bind
      fun existing => (Along.require _).bind fun _ => ?_
    split
    · exact Along.require _
    · exact (stays_advanceState _).bind fun _ => hacquire _ _
    · exact (stays_advanceState _).bind fun _ => hacquire _ _
    · exact hacquire _ _
    · exact hacquire _ _
    · exact Along.fail
  exact Along.tick.bind fun _ => Along.tick.bind fun _ => hprocess.bind
    fun _ => Along.tick.attempt.bind fun _ => Along.pure _

lemma prepare_settled (hs : d.state = some s) (hid : stateIdentity s release)
    (hphase : s.phase = .prepared ∨ s.phase = .pendingBoot ∨ s.phase = .confirmed) :
    wp (prepare host release) (fun _ => (· = d)) (· = d) (· = d) d := by
  have hprocess : wp (processRelease host release) (fun _ => (· = d)) (· = d) (· = d) d := by
    refine wp_bind (wp_require (fun _ => ?_) fun _ => rfl)
    refine wp_bind (wp_stateLoad hs ?_ rfl rfl)
    refine wp_bind (wp_require (fun _ => ?_) fun _ => rfl)
    split_ifs with hdone
    · exact wp_bind (wp_look (wp_require (fun _ => rfl) fun _ => rfl) rfl rfl)
    refine wp_bind (wp_require (fun _ => ?_) fun _ => rfl)
    refine wp_bind (wp_tick (wp_bind (wp_look ?_ rfl rfl)) rfl rfl)
    refine wp_bind (wp_require (fun _ => ?_) fun _ => rfl)
    rcases hphase with h | h | h
    · simp only [h]
      exact wp_require (fun _ => rfl) fun _ => rfl
    · simp only [h]
      exact wp_fail rfl
    · exact absurd ⟨h, hid⟩ hdone
  refine wp_bind (wp_tick (wp_bind (wp_tick (wp_bind ?_) rfl rfl)) rfl rfl)
  refine wp_mono hprocess (fun _ d' hd => ?_) (fun _ h => h) fun _ h => h
  subst hd
  exact wp_bind (wp_attempt (wp_tick (wp_pure rfl) (wp_pure rfl) rfl))

/-! ### What the check says about a preparation -/

lemma updateCheck_ok {before : State} {contract : Text} {r : CheckResult}
    (h : updateCheck host before s contract release = .ok r) :
    checkCompatibility host release ∧ s.sequence ≤ release.sequence ∧
      s.securityEpoch ≤ release.securityEpoch ∧
      (s.generation ≠ 0 → s.sequence = release.sequence → stateIdentity s release) ∧
      (r.available ↔ s.sequence < release.sequence) := by
  unfold updateCheck at h
  split_ifs at h with h1 h2 h3 h4
  obtain rfl := (Except.ok.inj h).symm
  simp only [not_or, UInt64.not_lt] at h3
  refine ⟨by simpa using h1, h3.2.2.1, h3.2.2.2, fun hg heq => ?_, by simp⟩
  have hne : ¬(release.securityEpoch ≠ s.securityEpoch ∨ release.version ≠ s.release ∨
      release.digest ≠ s.digest) := fun hd => h4 ⟨hg, heq.symm, hd⟩
  simp only [not_or, ne_eq, not_not] at hne
  exact stateIdentity_iff.mpr ⟨heq, hne.1.symm, hne.2.1.symm, hne.2.2.symm⟩

/-- What the check's `available` is worth to a preparation from the same state. -/
structure Agrees (host : BootstrapRecord) (d : Device) (s : State) (release : Release)
    (r : CheckResult) : Prop where
  /-- Never a rollback or an identity conflict. -/
  admitted : r.available → refusal s release ≠ some .rollback ∧
    refusal s release ≠ some .identityConflict
  /-- No transaction in progress: no test is in the way, and with every file operation
  succeeding the preparation ends in PREPARED. -/
  starts : r.available → s.phase = .idle ∨ s.phase = .confirmed → refusal s release = none ∧
    (CanStart d s release → ∃ d' s', Returns (prepare host release) d () d' ∧
      d'.state = some s' ∧ s'.phase = .prepared ∧ stateIdentity s' release)
  /-- A transaction for another release is in progress: the preparation changes nothing. -/
  busy : r.available → s.phase ≠ .idle → s.phase ≠ .confirmed →
    refusal s release = some .activeTransaction ∧
    wp (prepare host release) (fun _ _ => False) (· = d) (· = d) d
  /-- Not available: the release is the one of the state, and stays it. -/
  same : ¬r.available → stateIdentity s release ∧
    wp (prepare host release) (fun _ => AtRelease release) (AtRelease release)
      (AtRelease release) d
  /-- Not available, and prepared, pending or confirmed: nothing changes. -/
  settled : ¬r.available → s.phase = .prepared ∨ s.phase = .pendingBoot ∨ s.phase = .confirmed →
    wp (prepare host release) (fun _ => (· = d)) (· = d) (· = d) d

/-- **Check and preparation agree up to the phase.** -/
theorem check_agrees_with_prepare {before : State} {contract : Text} {r : CheckResult}
    (hs : d.state = some s) (h : updateCheck host before s contract release = .ok r) :
    Agrees host d s release r := by
  obtain ⟨hhost, hseq, hepoch, hid, havail⟩ := updateCheck_ok h
  have hadmits : admits s release := admits_iff.mpr fun hg => ⟨hseq, hepoch, hid hg⟩
  have hother : r.available → ¬stateIdentity s release := by
    intro ha hsame
    have := havail.mp ha
    rw [(stateIdentity_iff.mp hsame).1] at this
    exact UInt64.lt_irrefl _ this
  have hsame : ¬r.available → stateIdentity s release := by
    intro ha
    have heq : s.sequence = release.sequence :=
      UInt64.le_antisymm hseq (UInt64.not_lt.mp fun hlt => ha (havail.mpr hlt))
    refine hid ?_ heq
    rcases generation_ne_zero_of_readState hs with rfl | hg
    · exact absurd heq.symm release.sequence_ne_zero
    · exact hg
  obtain ⟨hroll, hconflict⟩ := admits_iff_refusal.mp hadmits
  have hbusy : r.available → s.phase ≠ .idle → s.phase ≠ .confirmed →
      refusal s release = some .activeTransaction := by
    intro ha h1 h2
    unfold refusal at hroll hconflict ⊢
    split_ifs at hroll hconflict ⊢ with c1 c2 c3 c4 c5
    · exact absurd rfl hroll
    · exact absurd rfl hconflict
    · exact absurd c3.1 h2
    · rfl
    · exact absurd ⟨h1, h2, hother ha⟩ c4
    · exact absurd ⟨h1, h2, hother ha⟩ c4
  refine ⟨fun _ => ⟨hroll, hconflict⟩, fun ha hphase => ⟨?_, ?_⟩, fun ha h1 h2 =>
    ⟨hbusy ha h1 h2, ?_⟩,
    fun ha => ⟨hsame ha, ?_⟩, fun ha hphase => prepare_settled hs (hsame ha) hphase⟩
  · unfold refusal at hroll hconflict ⊢
    split_ifs at hroll hconflict ⊢ with c1 c2 c3 c4 c5
    · exact absurd rfl hroll
    · exact absurd rfl hconflict
    · rfl
    · exact absurd hphase (by simp [c4.1, c4.2.1])
    · exact absurd hphase (by simp [c5])
    · rfl
  · exact prepare_starts hs hphase hadmits (fun hc => hother ha hc.2) hhost
  · exact prepare_of_refusal hs (by rw [hbusy ha h1 h2]; simp)
  · have hat : AtRelease release d := ⟨s, hs, hsame ha⟩
    exact wp_mono (stays_prepare d) (fun _ _ h => h hat) (fun _ h => h hat) fun _ h => h hat

theorem check_agrees_with_prepare_firstRelease :
    Agrees .missing .factory .initial firstRelease ⟨5, ['1', '.', '0', '.', '0'], true⟩ :=
  check_agrees_with_prepare rfl
    (show updateCheck .missing .initial .initial coreContract firstRelease = .ok _ by decide)

/-- A download cut short: the check offers the next release, which a preparation turns away;
and it has nothing to offer for the release itself, which a preparation finishes. -/
theorem check_agrees_with_prepare_fails :
    (¬∀ (host : BootstrapRecord) (steps : List Step) (s : State) (release : Release)
      (r : CheckResult), (final (exec host) .factory steps).state = some s →
      updateCheck host s s coreContract release = .ok r → r.available → refusal s release = none) ∧
    ¬∀ (host : BootstrapRecord) (steps : List Step) (s : State) (release : Release)
      (r : CheckResult), (final (exec host) .factory steps).state = some s →
      updateCheck host s s coreContract release = .ok r → ¬r.available →
      ∀ replies s', ((prepare host release).after replies
        (final (exec host) .factory steps)).state =
        some s' → s'.phase = .prepared →
        s.phase = .prepared ∨ s.phase = .pendingBoot ∨ s.phase = .confirmed := by
  constructor
  · intro h
    have := h .missing [cutDownload] downloadingFirst secondRelease
      ⟨6, ['1', '.', '1', '.', '0'], true⟩ state_cutDownload (by decide) rfl
    exact absurd this (by decide)
  · intro h
    have := h .missing [cutDownload] downloadingFirst firstRelease
      ⟨5, ['1', '.', '0', '.', '0'], false⟩ state_cutDownload (by decide) (by decide) []
      (inPhase downloadingFirst 2 .prepared) (by decide +kernel) rfl
    exact absurd this (by decide)

end C1auncher.Update.Check
