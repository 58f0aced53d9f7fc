import C1auncher.Update.Protocol

/-!
Preparing a release: the durable objects of the updater, and the transaction that downloads,
verifies and commits a release directory.

A committed release directory is immutable: it holds the files `process_release` verified
before the rename. Staging trees, drafts and temporary files are not modelled; making or
removing them are steps that can fail, and at which a process can die.
-/

namespace C1auncher.Update.Transaction

open Durable CString
open Update.StateStore Update.Protocol

/-- What the updater keeps: the state store, `releases/`, the links `current` and `previous`,
`rollback.v1` and `pending-boots.v1`. -/
structure Device where
  store : Store
  releases : Text → Option Release
  current : Option Text
  previous : Option Text
  marker : Option Text
  boots : Option Text

namespace Device

def state (d : Device) : Option State := readState d.store

def setStore (store : Store) (d : Device) : Device := { d with store := store }

/-- A device nothing was stored on. -/
def factory : Device := ⟨none, fun _ => none, none, none, none, none⟩

end Device

def stateLoad : Prog Device State := .zoom Device.store Device.setStore updateStateLoad

def stateCommit (previous next : State) : Prog Device Unit :=
  .zoom Device.store Device.setStore (updateStateCommit previous next)

/-- Two directories with the same manifest, by its digest, and the same signature. -/
def releaseMatches (existing release : Release) : Bool :=
  existing.digest == release.digest && existing.signature == release.signature

def advanceState (state : State) (phase : Phase) (release : Release) : Prog Device State := do
  let next ← .get (updateTransition (some state) phase release.sequence release.securityEpoch
    release.version release.digest false)
  stateCommit state next
  pure next

/-- Leave a transaction that failed; what goes wrong here is ignored. -/
def failState (release : Release) : Prog Device Unit := do
  let fail : Prog Device Unit := do
    let state ← stateLoad
    .require (state.generation ≠ 0 ∧ state.phase ≠ .idle ∧ stateIdentity state release)
    let next ← .get (updateTransition (some state) .idle release.sequence release.securityEpoch
      release.version release.digest true)
    stateCommit state next
  let _ ← .attempt fail
  pure ()

/-- "release rollback rejected" and "release identity conflict rejected" -/
def admits (state : State) (release : Release) : Bool :=
  !(state.generation != 0 && (state.sequence > release.sequence ||
    state.securityEpoch > release.securityEpoch)) &&
  !(state.generation != 0 && state.sequence == release.sequence && !stateIdentity state release)

lemma admits_iff {state : State} {release : Release} : admits state release ↔
    (state.generation ≠ 0 → state.sequence ≤ release.sequence ∧
      state.securityEpoch ≤ release.securityEpoch ∧
      (state.sequence = release.sequence → stateIdentity state release)) := by
  by_cases hg : state.generation = 0
  · simp [admits, hg]
  simp only [admits, Bool.and_eq_true, Bool.not_eq_true', Bool.and_eq_false_imp, bne_iff_ne,
    ne_eq, hg, not_false_eq_true, true_and, forall_true_left, Bool.or_eq_false_iff,
    decide_eq_false_iff_not, gt_iff_lt, UInt64.not_lt, beq_iff_eq, Bool.not_eq_false', and_assoc]

/-- Fetch or copy the artifacts to the staging area, if there is space, and check their
digests. -/
def fetchArtifacts (exists_ : Bool) : Prog Device Unit :=
  .when (¬exists_) do
    .tick
    .tick

def Device.addRelease (release : Release) (d : Device) : Device :=
  { d with
    releases := Function.update d.releases (releaseName release.sequence release.version)
      (some release) }

/-- Copy the checked artifacts to a draft and rename it into place. -/
def commitDirectory (release : Release) (exists_ : Bool) : Prog Device Unit :=
  .when (¬exists_) do
    .tick -- space in the core directory
    .tick -- the draft, its files checked once more
    .act (Device.addRelease release)
    .tick

def acquireRelease (state : State) (release : Release) (exists_ : Bool) : Prog Device Unit := do
  fetchArtifacts exists_
  let state ← (if state.phase = .downloading then advanceState state .verified release
    else pure state)
  commitDirectory release exists_
  let _ ← advanceState state .prepared release
  pure ()

def processRelease (host : BootstrapRecord) (release : Release) : Prog Device Unit := do
  .require (checkCompatibility host release)
  let state ← stateLoad
  .require (admits state release)
  if state.phase = .confirmed ∧ stateIdentity state release then
    let existing ← .look fun d => d.releases (releaseName release.sequence release.version)
    -- "confirmed immutable release conflicts"
    .require (existing.any (releaseMatches · release))
  else
    -- "another update transaction is active"
    .require (state.phase = .idle ∨ state.phase = .confirmed ∨ stateIdentity state release)
    .tick -- `mkdir(releases)`
    let existing ← .look fun d => d.releases (releaseName release.sequence release.version)
    -- "existing immutable release conflicts"
    .require (existing.all (releaseMatches · release))
    match state.phase with
    | .prepared => .require existing.isSome
    | .idle | .confirmed =>
      let state ← advanceState state .downloading release
      .orElse (acquireRelease state release existing.isSome) (failState release)
    | .downloading | .verified =>
      .orElse (acquireRelease state release existing.isSome) (failState release)
    | .pendingBoot => .fail

/-- `c1_update_prepare` and `c1_update_prepare_local`, once the release is known. -/
def prepare (host : BootstrapRecord) (release : Release) : Prog Device Unit := do
  .tick -- the transaction lock
  .tick -- the staging directory, the manifest and its signature
  processRelease host release
  let _ ← .attempt .tick -- remove the staging tree
  pure ()

end C1auncher.Update.Transaction
