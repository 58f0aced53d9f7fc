import C1auncher.Update.StateCommit

/-!
Crash atomicity of the update state, and which commits are possible after a crash.

A commit writes an immutable generation directory and then selects it. A commit cut short
between the two leaves a directory that no load sees, and that keeps its number from every
other state.
-/

namespace C1auncher.Update.CommitProgress

open Durable Durable.Prog CString Returns
open Update.StateStore Update.StateCommit

/-! ### What a load returns -/

variable {s later : State} {d' : Store} {phase : Phase} {sequence securityEpoch : UInt64}
  {release digest : Text}

lemma returns_updateStateLoad {d : Store} (h : readState d = some s) :
    Returns updateStateLoad d s d :=
  look.bind (get h)

lemma readState_of_returns {d : Store} (h : Returns updateStateLoad d s d') :
    readState d = some s ∧ d' = d := by
  rcases hr : readState d with _ | s'
  · exact absurd h (Refuses.not_returns (look.bind_refuses (Refuses.get hr)))
  · obtain ⟨rfl, rfl⟩ := h.det (returns_updateStateLoad hr)
    exact ⟨rfl, rfl⟩

lemma of_guard {p : Prop} [Decidable p] {u : Unit} (h : (guard p : Option Unit) = some u) : p := by
  by_contra hp
  simp [guard, hp] at h

lemma ne_zero_of_parseU64 {text : Text} {n : UInt64} (h : parseU64 text true = some n) :
    n ≠ 0 := by
  rintro rfl
  unfold parseU64 at h
  split at h
  · simp at h
  · simp at h
  split at h
  · simp at h
  · split_ifs at h with h0
    simp_all

lemma writable_of_parse {data : Text} {generation : UInt64}
    (h : parseStateData data generation = some s) :
    Writable s ∧ s.generation = generation := by
  unfold parseStateData at h
  obtain ⟨lines, -, h⟩ := Option.bind_eq_some_iff.mp h
  split at h
  · simp only [Option.bind_eq_bind, Option.bind_eq_some_iff, Option.some.injEq] at h
    obtain ⟨_, -, ph, -, sq, ⟨_, -, hsq⟩, ep, ⟨_, -, hep⟩, rel, -, _, hrel, dig, -, _, hdig,
      rfl⟩ := h
    exact ⟨⟨ne_zero_of_parseU64 hsq, ne_zero_of_parseU64 hep, of_guard hrel, of_guard hdig⟩, rfl⟩
  · simp at h

lemma writable_of_readState {d : Store} (h : readState d = some s) :
    s = .initial ∨ Writable s := by
  rw [readState_eq] at h
  split at h
  · exact .inl (Option.some.inj h).symm
  simp only [Option.bind_eq_some_iff] at h
  obtain ⟨x, -, directory, -, h⟩ := h
  simp only [loadGenerationState, Option.bind_eq_bind, Option.bind_eq_some_iff] at h
  obtain ⟨_, -, _, -, h⟩ := h
  exact .inr (writable_of_parse h).1

/-! ### Transitions are what a commit accepts -/

lemma succ_toNat {g : UInt64} (h : g ≠ 0xffffffffffffffff) : (g + 1).toNat = g.toNat + 1 := by
  have hlt := g.toNat_lt
  have hne : g.toNat ≠ 0xffffffffffffffff := fun hc => h (by
    rw [← UInt64.toNat_inj, hc]; rfl)
  rw [UInt64.toNat_add]
  simp only [UInt64.reduceToNat]
  omega

lemma transition_cases {failed : Bool}
    (h : updateTransition (some s) phase sequence securityEpoch release digest failed
      = some later) :
    s.generation ≠ 0xffffffffffffffff ∧
      ((failed = true ∧ s.phase ≠ .idle ∧ phase = .idle ∧
          later = { s with generation := s.generation + 1, phase := .idle }) ∨
        (failed = false ∧ phaseAllowed s.phase phase ∧
          identityValid (some s) sequence securityEpoch release digest ∧
          later = ⟨s.generation + 1, phase, sequence, securityEpoch, release, digest⟩)) := by
  simp only [updateTransition, Option.any_some, Option.map_some, Option.getD_some] at h
  split_ifs at h with hmax hfailed hfail hstep
  · refine ⟨by simpa using hmax, .inl ⟨hfailed, ?_⟩⟩
    simp only [Bool.or_eq_true, beq_iff_eq, bne_iff_ne, not_or, not_not] at hfail
    exact ⟨hfail.1, hfail.2, (Option.some.inj h).symm⟩
  refine ⟨by simpa using hmax, .inr ⟨by simpa using hfailed, ?_⟩⟩
  simp only [Bool.or_eq_true, Bool.not_eq_true', not_or, Bool.not_eq_false] at hstep
  exact ⟨hstep.1, hstep.2, (Option.some.inj h).symm⟩

lemma transition_failed (hmax : s.generation ≠ 0xffffffffffffffff)
    (hphase : s.phase ≠ .idle) (sequence securityEpoch : UInt64) (release digest : Text) :
    updateTransition (some s) .idle sequence securityEpoch release digest true
      = some { s with generation := s.generation + 1, phase := .idle } := by
  simp [updateTransition, hmax, hphase]

lemma transition_step (hmax : s.generation ≠ 0xffffffffffffffff)
    (hphase : phaseAllowed s.phase phase)
    (hid : identityValid (some s) sequence securityEpoch release digest) :
    updateTransition (some s) phase sequence securityEpoch release digest false
      = some ⟨s.generation + 1, phase, sequence, securityEpoch, release, digest⟩ := by
  simp [updateTransition, hmax, hphase, hid]

lemma identityValid_self (h : Writable s) :
    identityValid (some s) s.sequence s.securityEpoch s.release s.digest := by
  simp [identityValid, h.sequence, h.securityEpoch, h.release, h.digest]

lemma writable_of_identityValid {previous : Option State}
    (h : identityValid previous sequence securityEpoch release digest) (generation : UInt64)
    (phase : Phase) : Writable ⟨generation, phase, sequence, securityEpoch, release, digest⟩ := by
  unfold identityValid at h
  split_ifs at h with h0
  simp only [Bool.or_eq_true, beq_iff_eq, Bool.not_eq_true', not_or, Bool.not_eq_false] at h0
  exact ⟨h0.1.1.1, h0.1.1.2, h0.1.2, h0.2⟩

/-- **Every transition from the loaded state is one a commit accepts.** -/
theorem accepts_of_transition {d : Store} {failed : Bool}
    (hs : readState d = some s)
    (h : updateTransition (some s) phase sequence securityEpoch release digest failed
      = some later) : commitAccepts s later := by
  obtain ⟨hmax, ⟨-, hidle, -, rfl⟩ | ⟨-, hphase, hid, rfl⟩⟩ := transition_cases h
  all_goals
    have hlt : s.generation < s.generation + 1 := by
      rw [UInt64.lt_iff_toNat_lt, succ_toNat hmax]
      omega
  · have hw : Writable s := (writable_of_readState hs).resolve_left (by rintro rfl; exact hidle rfl)
    simp [commitAccepts, hlt, hidle, hw.sequence, hw.securityEpoch, hw.release, hw.digest,
      commitPhaseValid, identityValid_self hw]
  have hw := writable_of_identityValid hid 0 .idle
  have hcommit : commitPhaseValid s.phase phase := by
    simp only [phaseAllowed, Bool.or_eq_true] at hphase
    simp only [commitPhaseValid, Bool.or_eq_true]
    tauto
  simp [commitAccepts, hlt, hw.sequence, hw.securityEpoch, hw.release, hw.digest, hcommit, hid]

/-! ### Commits with every file operation succeeding -/

/-- No other state occupies the number of this one: the directory of its generation is
absent, or it holds this very state. -/
def Free (later : State) (d : Store) : Prop :=
  ∀ directory, d.generation? (decimal later.generation) = some directory →
    loadGenerationState directory later.generation = some later

lemma Free.of_kept {d : Store} (h : Kept d d') (hf : Free later d') :
    Free later d := fun directory hd => hf directory ((h.2 _).trans hd)

lemma Free.of_selected {next : State} {d : Store} (h : Free later d)
    (hsel : Selected next d d') (hne : later.generation ≠ next.generation) : Free later d' := by
  intro directory hdir
  refine h directory ?_
  rwa [← hsel.2.2 _ fun hc => hne (decimal_injective hc)]

lemma returns_replaceLink {c : Text → Option Generation} {ds : List Generation}
    {cur : Option Text} {ts : List Text} (target : Text) :
    Returns (replaceLink target) (some ⟨some ⟨c, ds⟩, cur, ts⟩) ()
      (some ⟨some ⟨c, ds⟩, some target, ts⟩) :=
  tick.bind (act.bind ((orElse act).bind tick))

lemma returns_writeGeneration {c : Text → Option Generation} {ds : List Generation}
    {cur : Option Text} {ts : List Text} {next : State} (h : Writable next) :
    Returns (writeGeneration next) (some ⟨some ⟨c, ds⟩, cur, ts⟩) ()
      (some ⟨some ⟨Function.update c (decimal next.generation)
        (some ⟨some (stateText next)⟩), ds⟩, cur, ts⟩) :=
  act.bind (orElse ((require (stateText_length h)).bind
    (tick.bind (act.bind (tick.bind (tick.bind act))))))

section

variable {d : Store} {previous next : State}

/-- With every file operation succeeding an accepted commit comes to look at the directory
its generation may already have. -/
lemma commit_to_look (hacc : commitAccepts previous next) (hload : readState d = some previous) :
    ∃ ds ts, updateStateCommit previous next [] d = (do
      match d.generation? (decimal next.generation) with
      | some directory =>
        .require (loadGenerationState directory next.generation = some next)
      | none => writeGeneration next
      .tick
      replaceLink (generationTarget next.generation) : Prog Store Unit) []
        (some ⟨some ⟨d.generation?, ds⟩, Store.link d, ts⟩) := by
  obtain ⟨ds, ts, hd⟩ := makeGenerations_makeRoot d
  refine ⟨ds, ts, ?_⟩
  have hne : previous ≠ next := by
    rintro rfl
    exact absurd (generation_lt_of_accepts hacc) (UInt64.lt_irrefl _)
  refine (require hacc).bind_eq.trans ((returns_updateStateLoad hload).bind_eq.trans ?_)
  rw [if_neg hne]
  refine (require rfl).bind_eq.trans (act.bind_eq.trans
    (act.bind_eq.trans ?_))
  rw [hd]
  exact look.bind_eq

/-- **A commit whose number is free succeeds** and selects the new state. -/
theorem commit_returns (hacc : commitAccepts previous next) (hload : readState d = some previous)
    (hfree : Free next d) :
    ∃ d', Returns (updateStateCommit previous next) d () d' ∧ Selected next d d' := by
  have hret : ∃ d', Returns (updateStateCommit previous next) d () d' := by
    obtain ⟨ds, ts, hrun⟩ := commit_to_look hacc hload
    unfold Returns
    rw [hrun]
    rcases hg : d.generation? (decimal next.generation) with _ | directory
    · exact ⟨_, (returns_writeGeneration (writable_of_accepts hacc)).bind
        (tick.bind (returns_replaceLink _))⟩
    · exact ⟨_, (require (hfree _ hg)).bind (tick.bind (returns_replaceLink _))⟩
  obtain ⟨d', hd'⟩ := hret
  obtain ⟨-, ⟨hnext, -⟩ | ⟨-, hsel⟩⟩ := hd'.of_wp (wp_updateStateCommit previous next d)
  · rw [hload] at hnext
    have := generation_lt_of_accepts hacc
    rw [Option.some.inj hnext] at this
    exact absurd this (UInt64.lt_irrefl _)
  · exact ⟨d', hd', hsel⟩

/-- **A commit whose number is taken is refused**, and nothing changes that a load sees. -/
theorem commit_refuses (hacc : commitAccepts previous next) (hload : readState d = some previous)
    (hfree : ¬Free next d) :
    ∃ d', Refuses (updateStateCommit previous next) d d' ∧ Kept d d' := by
  obtain ⟨ds, ts, hrun⟩ := commit_to_look hacc hload
  simp only [Free, not_forall] at hfree
  obtain ⟨directory, hg, hload'⟩ := hfree
  refine ⟨_, ?_, show Kept d (some ⟨some ⟨d.generation?, ds⟩, Store.link d, ts⟩) from
    ⟨rfl, fun _ => rfl⟩⟩
  unfold Refuses
  rw [hrun, hg]
  exact (Refuses.require hload').bind

end

/-! ### Crash atomicity -/

/-- **Crash atomicity.** However the commit of an accepted pair is cut short, a load then
succeeds and returns one of the two states; and the text of the new state is short enough
for the reader and read back as this state. -/
theorem commit_crash_atomic {d : Store} {previous next : State}
    (hacc : commitAccepts previous next)
    (hload : readState d = some previous ∨ readState d = some next) :
    (∀ rs, ∃ s, Returns updateStateLoad ((updateStateCommit previous next).after rs d) s
        ((updateStateCommit previous next).after rs d) ∧ (s = previous ∨ s = next)) ∧
      (stateText next).length < stateFileMax ∧
      parseStateData (stateText next) next.generation = some next := by
  have hw := writable_of_accepts hacc
  refine ⟨fun rs => ?_, stateText_length hw, parseStateData_stateText hw⟩
  have hpoint : CommitPoint previous next d ((updateStateCommit previous next).after rs d) := by
    refine wp_after (wp_mono (wp_updateStateCommit previous next d) ?_ (fun _ h => h)
      fun _ h => h) rs
    rintro - d' ⟨-, ⟨-, hk⟩ | ⟨hp, hsel⟩⟩
    · exact .kept hk
    · exact .selected hacc hp hsel
  cases hpoint with
  | kept hk =>
    rw [← hk.readState] at hload
    rcases hload with h | h
    · exact ⟨_, returns_updateStateLoad h, .inl rfl⟩
    · exact ⟨_, returns_updateStateLoad h, .inr rfl⟩
  | written _ hp hwr => exact ⟨_, returns_updateStateLoad (hwr.readState hp), .inl rfl⟩
  | selected _ _ hsel =>
    exact ⟨_, returns_updateStateLoad (hsel.readState (generation_ne_zero_of_accepts hacc)),
      .inr rfl⟩

def firstDownload : State :=
  ⟨1, .downloading, 5, 2, ['1', '.', '0', '.', '0'], List.replicate 64 'a'⟩

def newerDownload : State :=
  ⟨1, .downloading, 6, 2, ['1', '.', '1', '.', '0'], List.replicate 64 'b'⟩

theorem commit_crash_atomic_firstDownload :
    (∀ rs, ∃ s, Returns updateStateLoad ((updateStateCommit .initial firstDownload).after rs none)
        s ((updateStateCommit .initial firstDownload).after rs none) ∧
        (s = .initial ∨ s = firstDownload)) ∧
      (stateText firstDownload).length < stateFileMax ∧
      parseStateData (stateText firstDownload) 1 = some firstDownload :=
  commit_crash_atomic (d := none) (by decide +kernel) (.inl rfl)

/-! ### Progress after a crash -/

/-- Some attempt at the commit succeeds, perhaps after others were refused. -/
def CanCommit (previous next : State) (d : Store) : Prop :=
  ∃ n d', Returns (updateStateCommit previous next)
    ((fun d => (updateStateCommit previous next).after [] d)^[n] d) () d' ∧
      Returns updateStateLoad d' next d'

lemma not_free_retry {previous next : State} {d : Store} (hacc : commitAccepts previous next)
    (hload : readState d = some previous) (hfree : ¬Free next d) (n : ℕ) :
    readState ((fun d => (updateStateCommit previous next).after [] d)^[n] d) = some previous ∧
      ¬Free next ((fun d => (updateStateCommit previous next).after [] d)^[n] d) := by
  induction n generalizing d with
  | zero => exact ⟨hload, hfree⟩
  | succ n ih =>
    obtain ⟨d', hd', hk⟩ := commit_refuses hacc hload hfree
    have hafter : (updateStateCommit previous next).after [] d = d' := by
      unfold Prog.after
      rw [hd']
    rw [Function.iterate_succ_apply, hafter]
    exact ih (hk.readState.trans hload) fun hf => hfree (hf.of_kept hk)

lemma canCommit_iff {previous next : State} {d : Store} (hacc : commitAccepts previous next)
    (hload : readState d = some previous) : CanCommit previous next d ↔ Free next d := by
  constructor
  · rintro ⟨n, d', hd', -⟩
    by_contra hfree
    obtain ⟨hl, hf⟩ := not_free_retry hacc hload hfree n
    obtain ⟨d'', hd'', -⟩ := commit_refuses hacc hl hf
    exact hd''.not_returns hd'
  · intro hfree
    obtain ⟨d', hd', hsel⟩ := commit_returns hacc hload hfree
    exact ⟨0, d', hd', returns_updateStateLoad
      (hsel.readState (generation_ne_zero_of_accepts hacc))⟩

/-- **Progress.** After a commit that was cut short anywhere, a transition from the loaded
state can be committed exactly if no other state occupies the number of its generation. -/
theorem commit_progress_iff (d : Store) (previous next : State) (rs : List Reply)
    {s later : State} {phase : Phase} {sequence securityEpoch : UInt64}
    {release digest : Text} {failed : Bool}
    (hs : Returns updateStateLoad ((updateStateCommit previous next).after rs d) s
      ((updateStateCommit previous next).after rs d))
    (h : updateTransition (some s) phase sequence securityEpoch release digest failed
      = some later) :
    CanCommit s later ((updateStateCommit previous next).after rs d) ↔
      Free later ((updateStateCommit previous next).after rs d) :=
  have hload := (readState_of_returns hs).1
  canCommit_iff (accepts_of_transition hload h) hload

/-- The process dies between the rename of the generation directory and that of the link. -/
def cutBeforeLink : List Reply := List.replicate 11 .ok ++ [.die]

def storeBeforeLink : Store := (updateStateCommit .initial firstDownload).after cutBeforeLink none

lemma readState_storeBeforeLink : readState storeBeforeLink = some .initial := by
  decide +kernel

lemma newer_from_initial : updateTransition (some .initial) .downloading 6 2
    ['1', '.', '1', '.', '0'] (List.replicate 64 'b') false = some newerDownload := by
  decide

lemma not_free_storeBeforeLink : ¬Free newerDownload storeBeforeLink := by
  intro hfree
  have hdir : storeBeforeLink.generation? (decimal newerDownload.generation)
      = some ⟨some (stateText firstDownload)⟩ := by decide +kernel
  have hload : loadGenerationState ⟨some (stateText firstDownload)⟩ newerDownload.generation
      ≠ some newerDownload := by decide +kernel
  exact hload (hfree _ hdir)

theorem commit_progress_iff_newerDownload :
    CanCommit .initial newerDownload
        ((updateStateCommit .initial firstDownload).after cutBeforeLink none) ↔
      Free newerDownload ((updateStateCommit .initial firstDownload).after cutBeforeLink none) :=
  commit_progress_iff none .initial firstDownload cutBeforeLink
    (returns_updateStateLoad readState_storeBeforeLink) newer_from_initial

/-- A download cut short keeps the next number from every other download, for ever. -/
theorem commit_progress_fails : ¬∀ (d : Store) (previous next : State) (rs : List Reply)
    (s later : State) (phase : Phase) (sequence securityEpoch : UInt64) (release digest : Text)
    (failed : Bool), commitAccepts previous next → readState d = some previous →
    Returns updateStateLoad ((updateStateCommit previous next).after rs d) s
      ((updateStateCommit previous next).after rs d) →
    updateTransition (some s) phase sequence securityEpoch release digest failed = some later →
    CanCommit s later ((updateStateCommit previous next).after rs d) := by
  intro h
  have hcan := h none .initial firstDownload cutBeforeLink .initial newerDownload _ _ _ _ _ _
    (by decide +kernel) rfl (returns_updateStateLoad readState_storeBeforeLink) newer_from_initial
  exact not_free_storeBeforeLink ((canCommit_iff
    (accepts_of_transition readState_storeBeforeLink newer_from_initial)
    readState_storeBeforeLink).mp hcan)

end C1auncher.Update.CommitProgress
