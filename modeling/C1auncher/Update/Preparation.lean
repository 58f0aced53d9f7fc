import C1auncher.Update.AntiRollback

/-!
What becomes of an interrupted preparation: it can be finished, and until then no other
release can be prepared.
-/

namespace C1auncher.Update.Preparation

open Durable Durable.Prog CString Returns
open Update.StateStore Update.StateCommit Update.CommitProgress
open Update.Protocol Update.Transaction Update.Boot
open Update.AntiRollback

/-! ### Commits on a device -/

section

variable {d : Device} {s next : State}

lemma returns_stateLoad (h : d.state = some s) : Returns stateLoad d s d :=
  zoom (returns_updateStateLoad h)

lemma returns_stateCommit (hacc : commitAccepts s next) (hs : d.state = some s)
    (hfree : Free next d.store) :
    ∃ st, Returns (stateCommit s next) d () (d.setStore st) ∧ Selected next d.store st ∧
      (d.setStore st).state = some next := by
  obtain ⟨st, hret, hsel⟩ := commit_returns hacc hs hfree
  exact ⟨st, hret.zoom, hsel, hsel.readState (generation_ne_zero_of_accepts hacc)⟩

lemma refuses_stateCommit (hacc : commitAccepts s next) (hs : d.state = some s)
    (hfree : ¬Free next d.store) :
    ∃ st, Refuses (stateCommit s next) d (d.setStore st) ∧ Kept d.store st := by
  obtain ⟨st, hret, hk⟩ := commit_refuses hacc hs hfree
  exact ⟨st, hret.zoom, hk⟩

lemma returns_advanceState {phase : Phase} {release : Release} (hs : d.state = some s)
    (ht : updateTransition (some s) phase release.sequence release.securityEpoch release.version
      release.digest false = some next) (hfree : Free next d.store) :
    ∃ st, Returns (advanceState s phase release) d next (d.setStore st) ∧
      Selected next d.store st ∧ (d.setStore st).state = some next := by
  obtain ⟨st, hret, hsel, hst⟩ :=
    returns_stateCommit (accepts_of_transition hs ht) hs hfree
  exact ⟨st, (get ht).bind (hret.bind pure), hsel, hst⟩

end

/-! ### Refusal -/

section

variable {host : BootstrapRecord} {d : Device} {s : State} {release : Release}

lemma wp_stateLoad {Q : State → Device → Prop} {E C : Device → Prop} (hs : d.state = some s)
    (hQ : Q s d) (hE : E d) (hC : C d) : wp stateLoad Q E C d := by
  refine wp_zoom (wp_updateStateLoad (fun s' hs' => ?_) hE hC)
  have : s' = s := Option.some.inj (hs'.symm.trans hs)
  exact this ▸ hQ

lemma prepare_refused (hs : d.state = some s)
    (hphase : s.phase = .downloading ∨ s.phase = .verified)
    (hother : ¬stateIdentity s release) :
    wp (prepare host release) (fun _ _ => False) (· = d) (· = d) d := by
  refine wp_bind (wp_tick (wp_bind (wp_tick (wp_bind ?_) rfl rfl)) rfl rfl)
  refine wp_bind (wp_require (fun _ => ?_) fun _ => rfl)
  refine wp_bind (wp_stateLoad hs ?_ rfl rfl)
  refine wp_bind (wp_require (fun _ => ?_) fun _ => rfl)
  rw [if_neg fun h => hother h.2]
  refine wp_bind (wp_require (fun h => ?_) fun _ => rfl)
  rcases h with h | h | h
  · rcases hphase with h' | h' <;> simp [h'] at h
  · rcases hphase with h' | h' <;> simp [h'] at h
  · exact absurd h hother

end

/-! ### Completion -/

/-- The state of a phase of the transaction in which `s` is. -/
def inPhase (s : State) (steps : UInt64) (phase : Phase) : State :=
  { s with generation := s.generation + steps, phase := phase }

/-- What a calm preparation needs: a release directory that is absent or the right one, and
numbers for its commits that no other state occupies. -/
structure CanFinish (d : Device) (s : State) (release : Release) : Prop where
  directory : (d.releases (releaseName release.sequence release.version)).all
    (releaseMatches · release)
  fits : s.generation.toNat + 2 < 2 ^ 64
  verified : s.phase = .downloading → Free (inPhase s 1 .verified) d.store
  prepared : s.phase = .downloading → Free (inPhase s 2 .prepared) d.store
  next : s.phase = .verified → Free (inPhase s 1 .prepared) d.store

section

variable {host : BootstrapRecord} {d : Device} {s : State} {release : Release}

lemma transition_of_identity (phase : Phase) (hw : Writable s)
    (hmax : s.generation ≠ 0xffffffffffffffff) (hid : stateIdentity s release)
    (hphase : phaseAllowed s.phase phase) :
    updateTransition (some s) phase release.sequence release.securityEpoch release.version
      release.digest false = some (inPhase s 1 phase) := by
  obtain ⟨h1, h2, h3, h4⟩ := stateIdentity_iff.mp hid
  rw [← h1, ← h2, ← h3, ← h4, transition_step hmax hphase (identityValid_self hw)]
  rfl

lemma returns_fetchArtifacts (exists_ : Bool) : Returns (fetchArtifacts exists_) d () d := by
  cases exists_
  · exact when Bool.false_ne_true (tick.bind tick)
  · exact when_not (not_not.mpr rfl)

lemma returns_commitDirectory (release : Release) (exists_ : Bool) :
    Returns (commitDirectory release exists_) d ()
      (if exists_ then d else d.addRelease release) := by
  cases exists_
  · exact when Bool.false_ne_true (tick.bind (tick.bind
      (act.bind tick)))
  · exact when_not (not_not.mpr rfl)

lemma returns_publish (exists_ : Bool) (hw : Writable s)
    (hs : d.state = some s) (hphase : s.phase = .verified)
    (hmax : s.generation ≠ 0xffffffffffffffff) (hid : stateIdentity s release)
    (hfree : Free (inPhase s 1 .prepared) d.store) :
    ∃ d', Returns (do
      commitDirectory release exists_
      let _ ← advanceState s .prepared release
      pure () : Prog Device Unit) d () d' ∧ d'.state = some (inPhase s 1 .prepared) := by
  have ht := transition_of_identity .prepared hw hmax hid (by rw [hphase]; decide)
  have hd : (if exists_ then d else d.addRelease release).state = some s ∧
      (if exists_ then d else d.addRelease release).store = d.store := by
    cases exists_ <;> exact ⟨hs, rfl⟩
  obtain ⟨st, hret, -, hst⟩ := returns_advanceState hd.1 ht (hd.2 ▸ hfree)
  exact ⟨_, (returns_commitDirectory release exists_).bind (hret.bind pure), hst⟩

lemma ne_max_of_fits {n : ℕ} {g : UInt64} (h : g.toNat + n < 2 ^ 64) (hn : 0 < n) :
    g ≠ 0xffffffffffffffff := by
  rintro rfl
  have hmax : (0xffffffffffffffff : UInt64).toNat = 2 ^ 64 - 1 := rfl
  omega

lemma returns_acquireRelease (exists_ : Bool) (hs : d.state = some s)
    (hphase : s.phase = .downloading ∨ s.phase = .verified) (hid : stateIdentity s release)
    (hfin : CanFinish d s release) :
    ∃ d' n, Returns (acquireRelease s release exists_) d () d' ∧
      d'.state = some (inPhase s n .prepared) := by
  have hw : Writable s := (writable_of_readState hs).resolve_left (by
    rintro rfl
    rcases hphase with h | h <;> simp [State.initial] at h)
  have hmax := ne_max_of_fits hfin.fits (by omega)
  rcases hphase with hphase | hphase
  · -- two commits: VERIFIED, then PREPARED
    have ht := transition_of_identity .verified hw hmax hid (by rw [hphase]; decide)
    obtain ⟨st, hret, hsel, hst⟩ := returns_advanceState hs ht (hfin.verified hphase)
    have hsucc := succ_toNat hmax
    have hmax' : (inPhase s 1 .verified).generation ≠ 0xffffffffffffffff :=
      ne_max_of_fits (n := 1) (by simp only [inPhase, hsucc]; have := hfin.fits; omega) (by omega)
    have hnext : inPhase (inPhase s 1 .verified) 1 .prepared = inPhase s 2 .prepared := by
      simp only [inPhase, State.mk.injEq, and_true]
      rw [UInt64.add_assoc]
      rfl
    have hne : (inPhase s 2 .prepared).generation ≠ (inPhase s 1 .verified).generation := by
      rw [← hnext]
      intro hc
      have := congrArg UInt64.toNat hc
      simp only [inPhase] at this hmax'
      rw [succ_toNat hmax'] at this
      omega
    obtain ⟨d', hpub, hd'⟩ := returns_publish (d := d.setStore st)
      (s := inPhase s 1 .verified) exists_ { hw with }
        hst rfl hmax' hid
      (hnext ▸ (hfin.prepared hphase).of_selected hsel hne)
    refine ⟨d', 2, (returns_fetchArtifacts _).bind
      (bind (a := inPhase s 1 .verified) ?_ hpub), ?_⟩
    · rw [if_pos hphase]
      exact hret
    · rw [hd', hnext]
  · obtain ⟨d', hpub, hd'⟩ := returns_publish exists_ hw hs hphase hmax hid
      (hfin.next hphase)
    refine ⟨d', 1, (returns_fetchArtifacts _).bind (bind (a := s) ?_ hpub), hd'⟩
    rw [if_neg (by simp [hphase])]
    exact pure

lemma prepare_returns (hs : d.state = some s)
    (hphase : s.phase = .downloading ∨ s.phase = .verified) (hid : stateIdentity s release)
    (hhost : checkCompatibility host release) (hfin : CanFinish d s release) :
    ∃ d' s', Returns (prepare host release) d () d' ∧ d'.state = some s' ∧
      s'.phase = .prepared ∧ stateIdentity s' release := by
  have hadmits : admits s release := by
    obtain ⟨h1, h2, -, -⟩ := stateIdentity_iff.mp hid
    exact admits_iff.mpr fun _ => ⟨h1 ▸ UInt64.le_refl _, h2 ▸ UInt64.le_refl _, fun _ => hid⟩
  have hconfirmed : ¬(s.phase = .confirmed ∧ stateIdentity s release) := by
    rintro ⟨h, -⟩
    rcases hphase with h' | h' <;> simp [h'] at h
  obtain ⟨d', n, hacq, hd'⟩ := returns_acquireRelease
    (d.releases (releaseName release.sequence release.version)).isSome hs hphase hid hfin
  refine ⟨d', _, tick.bind (tick.bind (bind (a := ()) ?_
    (tick.attempt.bind pure))), hd', rfl, hid⟩
  refine (require hhost).bind ((returns_stateLoad hs).bind
    ((require hadmits).bind ?_))
  rw [if_neg hconfirmed]
  refine (require (.inr (.inr hid))).bind (tick.bind (look.bind
    ((require hfin.directory).bind ?_)))
  rcases hphase with h | h
  · simp only [h]
    exact hacq.orElse
  · simp only [h]
    exact hacq.orElse

/-- **An interrupted preparation is finished, not replaced.** From DOWNLOADING or VERIFIED
every preparation of another release fails and changes nothing, whatever its file operations
come to; and preparing the release itself, with every file operation succeeding, ends in
PREPARED with its identity, unless a directory left over is in the way. -/
theorem interrupted_preparation (hs : d.state = some s)
    (hphase : s.phase = .downloading ∨ s.phase = .verified) :
    (∀ release, ¬stateIdentity s release →
      wp (prepare host release) (fun _ _ => False) (· = d) (· = d) d) ∧
    ∀ release, stateIdentity s release → checkCompatibility host release →
      CanFinish d s release →
      ∃ d' s', Returns (prepare host release) d () d' ∧ d'.state = some s' ∧
        s'.phase = .prepared ∧ stateIdentity s' release :=
  ⟨fun _ hother => prepare_refused hs hphase hother,
    fun _ hid hhost hfin => prepare_returns hs hphase hid hhost hfin⟩

end

def firstRelease : Release where
  sequence := 5
  version := ['1', '.', '0', '.', '0']
  securityEpoch := 2
  minBootstrap := ['1', '.', '0', '.', '0']
  minUpdater := ['1', '.', '0', '.', '0']
  digest := List.replicate 64 'a'
  signature := ['s']
  sequence_ne_zero := by decide
  securityEpoch_ne_zero := by decide
  version_token := by decide
  digest_valid := by decide

def secondRelease : Release :=
  { firstRelease with
    sequence := 6
    version := ['1', '.', '1', '.', '0']
    securityEpoch := 3
    digest := List.replicate 64 'b'
    sequence_ne_zero := by decide
    securityEpoch_ne_zero := by decide
    version_token := by decide
    digest_valid := by decide }

def cutDownload : Step := ⟨.prepare firstRelease, List.replicate 20 .ok ++ [.die]⟩

def downloadingFirst : State :=
  ⟨1, .downloading, 5, 2, ['1', '.', '0', '.', '0'], List.replicate 64 'a'⟩

lemma state_cutDownload :
    (final (exec .missing) .factory [cutDownload]).state = some downloadingFirst := by
  decide +kernel

theorem interrupted_preparation_firstRelease :
    (∀ release, ¬stateIdentity downloadingFirst release →
      wp (prepare .missing release) (fun _ _ => False)
        (· = final (exec .missing) .factory [cutDownload])
        (· = final (exec .missing) .factory [cutDownload])
        (final (exec .missing) .factory [cutDownload])) ∧
    ∀ release, stateIdentity downloadingFirst release → checkCompatibility .missing release →
      CanFinish (final (exec .missing) .factory [cutDownload]) downloadingFirst release →
      ∃ d' s', Returns (prepare .missing release)
        (final (exec .missing) .factory [cutDownload]) () d' ∧ d'.state = some s' ∧
          s'.phase = .prepared ∧ stateIdentity s' release :=
  interrupted_preparation state_cutDownload (.inl rfl)

/-- A download cut short keeps every newer release out. -/
theorem interrupted_preparation_blocks : ¬∀ (host : BootstrapRecord) (steps : List Step)
    (s : State) (release : Release), (final (exec host) .factory steps).state = some s →
    (s.phase = .downloading ∨ s.phase = .verified) → s.sequence < release.sequence →
    s.securityEpoch < release.securityEpoch → checkCompatibility host release →
    ∃ d' s', Returns (prepare host release) (final (exec host) .factory steps) () d' ∧
      d'.state = some s' ∧ s'.phase = .prepared ∧ stateIdentity s' release := by
  intro h
  obtain ⟨d', s', hret, -⟩ := h .missing [cutDownload] downloadingFirst secondRelease
    state_cutDownload (.inl rfl) (by decide) (by decide) (by decide)
  exact hret.of_wp (prepare_refused state_cutDownload (.inl rfl) (by decide))

end C1auncher.Update.Preparation
