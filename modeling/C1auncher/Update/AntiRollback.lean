import C1auncher.Update.Boot
import C1auncher.Update.CommitProgress

/-!
Anti-rollback over whole runs of the updater.

Every operation moves the loaded state along one order, however it is cut short: the
generation goes up, sequence and epoch never go down, and a sequence number stays with one
release.
-/

namespace C1auncher.Update.AntiRollback

open Durable Durable.Prog CString Option
open Update.StateStore Update.StateCommit Update.CommitProgress
open Update.Protocol Update.Transaction Update.Boot

/-! ### The order of states -/

def Later (s s' : State) : Prop :=
  s = s' ∨ (s.generation < s'.generation ∧ s.sequence ≤ s'.sequence ∧
    s.securityEpoch ≤ s'.securityEpoch ∧ (s.sequence = s'.sequence →
      s.release = s'.release ∧ s.digest = s'.digest ∧ s.securityEpoch = s'.securityEpoch))

lemma Later.trans {a b c : State} (h : Later a b) (h' : Later b c) : Later a c := by
  rcases h with rfl | ⟨hg, hs, he, hid⟩
  · exact h'
  rcases h' with rfl | ⟨hg', hs', he', hid'⟩
  · exact .inr ⟨hg, hs, he, hid⟩
  refine .inr ⟨UInt64.lt_trans hg hg', UInt64.le_trans hs hs', UInt64.le_trans he he',
    fun heq => ?_⟩
  have hab : a.sequence = b.sequence := UInt64.le_antisymm hs (heq ▸ hs')
  obtain ⟨h1, h2, h3⟩ := hid hab
  obtain ⟨h1', h2', h3'⟩ := hid' (hab ▸ heq)
  exact ⟨h1.trans h1', h2.trans h2', h3.trans h3'⟩

/-- The order on devices: the loaded state stays, or a later one is loaded. -/
def Grows (d d' : Device) : Prop :=
  d'.state = d.state ∨ ∃ s s', d.state = some s ∧ d'.state = some s' ∧ Later s s'

instance : Std.Refl Grows := ⟨fun _ => .inl rfl⟩

instance : IsTrans Device Grows := ⟨by
  intro a b c h h'
  rcases h with h | ⟨s, s', hs, hs', hl⟩
  · rcases h' with h' | ⟨t, t', ht, ht', hl'⟩
    · exact .inl (h'.trans h)
    · exact .inr ⟨t, t', h ▸ ht, ht', hl'⟩
  rcases h' with h' | ⟨t, t', ht, ht', hl'⟩
  · exact .inr ⟨s, s', hs, h'.trans hs', hl⟩
  · have : s' = t := Option.some.inj (hs'.symm.trans ht)
    exact .inr ⟨s, t', hs, ht', hl.trans (this ▸ hl')⟩⟩

/-! ### Transitions -/

lemma lt_succ {g : UInt64} (h : g ≠ 0xffffffffffffffff) : g < g + 1 := by
  rw [UInt64.lt_iff_toNat_lt, succ_toNat h]
  omega

lemma generation_ne_zero_of_readState {d : Store} {s : State} (h : readState d = some s) :
    s = .initial ∨ s.generation ≠ 0 := by
  rw [readState_eq] at h
  split at h
  · exact .inl (some.inj h).symm
  simp only [bind_eq_some_iff] at h
  obtain ⟨⟨name, generation⟩, hname, directory, -, hload⟩ := h
  simp only [loadGenerationState, bind_eq_bind, bind_eq_some_iff] at hload
  obtain ⟨_, -, _, -, hload⟩ := hload
  right
  rw [(writable_of_parse hload).2]
  unfold parseGenerationTarget at hname
  split_ifs at hname
  dsimp only at hname
  split_ifs at hname
  obtain ⟨n, hn, hn'⟩ := Option.map_eq_some_iff.mp hname
  simp only [Prod.mk.injEq] at hn'
  exact hn'.2 ▸ ne_zero_of_parseU64 hn

lemma later_of_failed {s next : State} {phase : Phase} {sequence epoch : UInt64}
    {release digest : Text}
    (h : updateTransition (some s) phase sequence epoch release digest true = some next) :
    Later s next := by
  obtain ⟨hmax, ⟨-, -, -, rfl⟩ | ⟨hf, -⟩⟩ := transition_cases h
  · exact .inr ⟨lt_succ hmax, UInt64.le_refl _, UInt64.le_refl _, fun _ => ⟨rfl, rfl, rfl⟩⟩
  · simp at hf

lemma later_of_self {s next : State} {phase : Phase} {failed : Bool}
    (h : updateTransition (some s) phase s.sequence s.securityEpoch s.release s.digest failed
      = some next) : Later s next := by
  obtain ⟨hmax, ⟨-, -, -, rfl⟩ | ⟨-, -, -, rfl⟩⟩ := transition_cases h
  all_goals exact .inr ⟨lt_succ hmax, UInt64.le_refl _, UInt64.le_refl _, fun _ => ⟨rfl, rfl, rfl⟩⟩

/-- A step to an admitted release: the transition compares sequence, epoch, release and
digest, the admission the epoch of an equal sequence. -/
lemma later_of_admitted {s next : State} {phase : Phase} {release : Release}
    (hs : s = .initial ∨ s.generation ≠ 0) (hadmits : admits s release)
    (h : updateTransition (some s) phase release.sequence release.securityEpoch release.version
      release.digest false = some next) : Later s next := by
  obtain ⟨hmax, ⟨hf, -⟩ | ⟨-, -, hid, rfl⟩⟩ := transition_cases h
  · simp at hf
  rcases hs with rfl | hs
  · refine .inr ⟨lt_succ hmax, ?_, ?_, fun heq => ?_⟩
    · simp [UInt64.le_iff_toNat_le, State.initial]
    · simp [UInt64.le_iff_toNat_le, State.initial]
    · exact absurd heq.symm release.sequence_ne_zero
  obtain ⟨hseq, hepoch, hsame⟩ := admits_iff.mp hadmits hs
  refine .inr ⟨lt_succ hmax, hseq, hepoch, fun heq => ?_⟩
  obtain ⟨-, h1, h2, h3⟩ := stateIdentity_iff.mp (hsame heq)
  exact ⟨h2, h3, h1⟩

/-! ### Programs -/

lemma grows_of_state {d d' : Device} (h : d'.store = d.store) : Grows d d' :=
  .inl (by unfold Device.state; rw [h])

lemma along_stateCommit {s next : State}
    (h : (s = .initial ∨ s.generation ≠ 0) → Later s next) : Along Grows (stateCommit s next) := by
  intro d
  have hpoint : ∀ st, CommitPoint s next d.store st → Grows d (d.setStore st) := by
    intro st hp
    cases hp with
    | kept hk => exact .inl hk.readState
    | written _ hl hw => exact .inl ((hw.readState hl).trans hl.symm)
    | selected hacc hl hsel =>
      exact .inr ⟨s, next, hl, hsel.readState (generation_ne_zero_of_accepts hacc),
        h (generation_ne_zero_of_readState hl)⟩
  refine wp_zoom (wp_mono (wp_updateStateCommit s next d.store) ?_ hpoint hpoint)
  rintro - st ⟨hacc, ⟨-, hk⟩ | ⟨hl, hsel⟩⟩
  · exact hpoint st (.kept hk)
  · exact hpoint st (.selected hacc hl hsel)

lemma along_stateLoad : Along Grows stateLoad := fun _ =>
  wp_zoom (wp_updateStateLoad (fun _ _ => .inl rfl) (.inl rfl) (.inl rfl))

lemma along_act {f : Device → Device} (h : ∀ d, (f d).store = d.store) : Along Grows (act f) :=
  Along.act fun d => grows_of_state (h d)

lemma along_readPointer (which : Pointer) : Along Grows (readPointer which) :=
  (Along.look _).bind fun _ => Along.get _

lemma along_atomicPointer (which : Pointer) (target : Text) :
    Along Grows (atomicPointer which target) :=
  (Along.require _).bind fun _ => Along.tick.bind fun _ => Along.tick.bind fun _ =>
    (along_act fun _ => by cases which <;> rfl).bind fun _ => Along.tick

lemma along_validateRelease (host : BootstrapRecord) (target : Text) (identity : Option State) :
    Along Grows (validateRelease host target identity) :=
  (Along.look _).bind fun _ => Along.require _

lemma along_atomicWrite {f : Device → Device} (h : ∀ d, (f d).store = d.store) :
    Along Grows (atomicWrite f) :=
  Along.tick.bind fun _ => (along_act h).bind fun _ => Along.tick

lemma along_clearPendingBoots : Along Grows clearPendingBoots := by
  refine (Along.look _).bind fun boots => ?_
  cases boots with
  | none => exact Along.pure _
  | some _ => exact Along.bind (along_act fun _ => by rfl) fun _ => Along.tick

lemma along_countPendingBoot (state : State) (bootId : Text) :
    Along Grows (countPendingBoot state bootId) := by
  refine (Along.require _).bind fun _ => Along.bind ?_ fun attempts => ?_
  · refine (Along.look _).bind fun boots => ?_
    cases boots with
    | none => exact Along.pure _
    | some data =>
      refine (Along.get _).bind fun record => ?_
      dsimp only
      split_ifs <;> exact Along.pure _
  · cases attempts with
    | none => exact Along.pure _
    | some attempts =>
      dsimp only
      split_ifs
      · exact Along.pure _
      · exact Along.bind (along_atomicWrite fun _ => by rfl) fun _ => Along.pure _

lemma along_rollbackMarkerStatus (state : State) : Along Grows (rollbackMarkerStatus state) := by
  refine (Along.look _).bind fun marker => ?_
  cases marker with
  | none => exact Along.pure _
  | some data => exact (Along.require _).bind fun _ => Along.pure _

lemma along_clearRollbackMarker : Along Grows clearRollbackMarker :=
  Along.bind (along_act fun _ => by rfl) fun _ => Along.tick

lemma along_stateAdvance (state : State) (phase : Phase) (failed : Bool) :
    Along Grows (stateAdvance state phase failed) := by
  refine Along.get_bind fun next hnext => ?_
  exact (along_stateCommit fun _ => later_of_self hnext).bind fun _ =>
    (Along.when _ along_clearPendingBoots).bind fun _ => Along.pure _

lemma along_rollbackLocked (previous : Text) (state : State) :
    Along Grows (rollbackLocked previous state) := by
  refine Along.bind ((Along.require _).bind fun _ => along_atomicWrite fun _ => by rfl) fun _ => ?_
  refine (along_atomicPointer _ _).bind fun _ => Along.bind ?_ fun state => Along.bind ?_
    fun state => (Along.require _).bind fun _ => along_clearRollbackMarker.bind fun _ =>
      Along.pure _
  all_goals
    split_ifs
    · exact along_stateAdvance _ _ _
    · exact Along.pure _

/-! ### Operations -/

variable (host : BootstrapRecord)

lemma along_resumeRollback (state : State) : Along Grows (resumeRollback host state) := by
  refine (Along.require _).bind fun _ => (along_readPointer _).bind fun previous =>
    (along_validateRelease _ _ _).bind fun _ => ?_
  split
  · exact (along_atomicPointer _ _).bind fun _ => along_clearRollbackMarker.bind fun _ =>
      Along.pure _
  · exact (along_atomicPointer _ _).bind fun _ => (along_stateAdvance _ _ _).bind fun _ =>
      along_clearRollbackMarker.bind fun _ => Along.pure _
  · exact along_rollbackLocked _ _

lemma along_recoverPending (state : State) : Along Grows (recoverPending host state) := by
  refine (along_readPointer _).bind fun previous => (along_validateRelease _ _ _).bind fun _ =>
    (along_validateRelease _ _ _).attempt.bind fun valid => Along.bind ?_ fun current => ?_
  · split_ifs
    · exact (along_readPointer _).attempt
    · exact Along.pure _
  split_ifs
  · exact Along.pure _
  · exact (along_atomicPointer _ _).bind fun _ => Along.pure _
  · exact along_rollbackLocked _ _

lemma along_recoverLocked (state : State) : Along Grows (recoverLocked host state) := by
  refine (along_rollbackMarkerStatus _).bind fun marked => ?_
  split_ifs
  · exact along_resumeRollback host state
  · exact Along.pure _
  · exact along_recoverPending host state

lemma along_activate : Along Grows (activate host) := by
  refine Along.tick.bind fun _ => along_stateLoad.bind fun state =>
    (along_rollbackMarkerStatus _).bind fun marked => ?_
  split_ifs
  · exact (along_recoverLocked _ _).bind fun _ => Along.pure _
  exact (Along.require _).bind fun _ => (along_validateRelease _ _ _).bind fun _ =>
    (along_readPointer _).bind fun _ => (along_validateRelease _ _ _).bind fun _ =>
      (along_atomicPointer _ _).bind fun _ => (along_stateAdvance _ _ _).bind fun _ =>
        along_atomicPointer _ _

lemma along_bootstrapPointerStatus (which : Pointer) (candidate : Text) :
    Along Grows (bootstrapPointerStatus which candidate) := by
  refine (Along.look _).bind fun target => ?_
  cases target with
  | none => exact Along.pure _
  | some _ =>
    exact (along_readPointer _).bind fun _ => (Along.require _).bind fun _ => Along.pure _

lemma along_bootstrapActivate : Along Grows (bootstrapActivate host) := by
  refine Along.tick.bind fun _ => along_stateLoad.bind fun state => (Along.require _).bind fun _ =>
    (along_validateRelease _ _ _).bind fun _ =>
      (along_bootstrapPointerStatus _ _).bind fun current =>
      (along_bootstrapPointerStatus _ _).bind fun previous => (Along.require _).bind fun _ =>
        Along.bind ?_ fun state => (Along.when _ (along_atomicPointer _ _)).bind fun _ =>
          (Along.when _ (along_atomicPointer _ _)).bind fun _ =>
            (along_stateAdvance _ _ _).bind fun _ => Along.pure _
  split_ifs
  · exact along_stateAdvance _ _ _
  · exact Along.pure _

lemma along_recoverBoot (bootId : Text) : Along Grows (recoverBoot host bootId) := by
  refine (Along.require _).bind fun _ => Along.tick.bind fun _ => along_stateLoad.bind fun state =>
    (along_recoverLocked _ _).bind fun state => ?_
  split_ifs
  · refine (along_countPendingBoot _ _).attempt.bind fun counted => ?_
    split_ifs
    · exact Along.pure _
    · exact (along_readPointer _).bind fun _ => (along_validateRelease _ _ _).bind fun _ =>
        (along_rollbackLocked _ _).bind fun _ => Along.pure _
  · exact along_clearPendingBoots

lemma along_confirm : Along Grows (confirm host) :=
  Along.tick.bind fun _ => along_stateLoad.bind fun _ => (Along.require _).bind fun _ =>
    (along_readPointer _).bind fun _ => (Along.require _).bind fun _ =>
      (along_validateRelease _ _ _).bind fun _ => (along_stateAdvance _ _ _).bind fun _ =>
        Along.pure _

lemma along_rollback : Along Grows (rollback host) :=
  Along.tick.bind fun _ => along_stateLoad.bind fun _ => (Along.require _).bind fun _ =>
    (along_readPointer _).bind fun _ =>
      (Along.when _ ((along_readPointer _).bind fun _ => Along.require _)).bind fun _ =>
        (along_validateRelease _ _ _).bind fun _ => (along_rollbackLocked _ _).bind fun _ =>
          Along.pure _

lemma along_recoveryExec (which : Pointer) : Along Grows (recoveryExec host which) := by
  refine Along.tick.bind fun _ => along_stateLoad.bind fun state =>
    (along_readPointer _).bind fun target => (along_validateRelease _ _ _).bind fun _ =>
      Along.tick.bind fun _ => (Along.when _ ?_).bind fun _ => Along.tick
  split_ifs
  · exact (along_rollbackLocked _ _).bind fun _ => Along.pure _
  · exact along_atomicPointer _ _

section Prepare

variable {state : State} {phase : Phase} {release : Release}

lemma wp_advanceState (h : admits state release) (d : Device) :
    wp (advanceState state phase release) (fun next d' => admits next release ∧ Grows d d')
      (Grows d) (Grows d) d := by
  refine wp_bind (wp_get (fun next hnext => ?_) fun _ => .inl rfl)
  have hadmits : admits next release := by
    obtain ⟨-, ⟨hf, -⟩ | ⟨-, -, -, rfl⟩⟩ := transition_cases hnext
    · simp at hf
    · simp [admits_iff, stateIdentity]
  exact wp_bind (wp_mono (along_stateCommit (fun hs => later_of_admitted hs h hnext) d)
    (fun _ _ hd => wp_pure ⟨hadmits, hd⟩) (fun _ hd => hd) fun _ hd => hd)

lemma along_failState (release : Release) : Along Grows (failState release) := by
  refine Along.bind (Along.attempt ?_) fun _ => Along.pure _
  exact along_stateLoad.bind fun _ => (Along.require _).bind fun _ =>
    Along.get_bind fun _ hnext => along_stateCommit fun _ => later_of_failed hnext

lemma along_acquireRelease (exists_ : Bool) (h : admits state release) :
    Along Grows (acquireRelease state release exists_) := by
  have hfetch : Along Grows (fetchArtifacts exists_) :=
    Along.when _ (Along.tick.bind fun _ => Along.tick)
  have hcommit : Along Grows (commitDirectory release exists_) :=
    Along.when _ (Along.tick.bind fun _ => Along.tick.bind fun _ =>
      (along_act fun _ => by rfl).bind fun _ => Along.tick)
  refine hfetch.bind fun _ => Along.bind_of (V := fun state => admits state release)
    (fun d => ?_) fun state h => hcommit.bind fun _ =>
      Along.bind_of (wp_advanceState h) fun _ _ => Along.pure _
  split_ifs
  · exact wp_advanceState h d
  · exact wp_pure ⟨h, .inl rfl⟩

lemma along_processRelease (release : Release) : Along Grows (processRelease host release) := by
  refine (Along.require _).bind fun _ => along_stateLoad.bind fun state =>
    Along.require_bind fun hadmits => ?_
  have hacquire : ∀ state exists_, admits state release → Along Grows
      (orElse (acquireRelease state release exists_) (failState release)) := fun _ _ h =>
    (along_acquireRelease _ h).orElse (along_failState release)
  split_ifs
  · exact (Along.look _).bind fun _ => Along.require _
  refine (Along.require _).bind fun _ => Along.tick.bind fun _ => (Along.look _).bind
    fun existing => (Along.require _).bind fun _ => ?_
  split
  · exact Along.require _
  · exact Along.bind_of (wp_advanceState hadmits) fun _ h => hacquire _ _ h
  · exact Along.bind_of (wp_advanceState hadmits) fun _ h => hacquire _ _ h
  · exact hacquire _ _ hadmits
  · exact hacquire _ _ hadmits
  · exact Along.fail

lemma along_prepare (release : Release) : Along Grows (prepare host release) :=
  Along.tick.bind fun _ => Along.tick.bind fun _ => (along_processRelease host release).bind
    fun _ => Along.tick.attempt.bind fun _ => Along.pure _

end Prepare

lemma along_program (op : Op) : Along Grows (program host op) := by
  cases op with
  | prepare release => exact along_prepare host release
  | activate => exact along_activate host
  | bootstrapActivate => exact along_bootstrapActivate host
  | recover bootId => exact along_recoverBoot host bootId
  | confirm => exact along_confirm host
  | rollback => exact along_rollback host
  | recoveryExec which => exact along_recoveryExec host which

/-! ### Runs -/

/-- **Anti-rollback.** The states that are loaded in the course of a run of operations, each
complete or cut short anywhere, are in order: of any two of them the later has a higher
generation or is the same, its sequence and epoch are no lower, and the same sequence means
the same release, digest and epoch. -/
theorem anti_rollback (d : Device) (steps : List Step) :
    ((visited (exec host) d steps).filterMap Device.state).Pairwise Later := by
  have hgrows : (visited (exec host) d steps).Pairwise Grows :=
    visited_pairwise (I := fun _ => True) trivial
      (fun step d _ => ⟨trivial, (along_program host step.op).after step.replies d⟩)
      (fun _ _ _ => IsTrans.trans _ _ _) steps
  rw [List.pairwise_filterMap]
  refine hgrows.imp fun {a b} h s hs s' hs' => ?_
  rcases h with h | ⟨t, t', ht, ht', hl⟩
  · rw [h, hs] at hs'
    exact .inl (some.inj hs')
  · rw [hs] at ht
    rw [hs'] at ht'
    cases ht
    cases ht'
    exact hl

end C1auncher.Update.AntiRollback
