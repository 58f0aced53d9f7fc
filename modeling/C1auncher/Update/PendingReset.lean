import C1auncher.Update.PendingBoots

/-!
Where the boots of a candidate start: the record is followed through every operation, from
the opening of a transaction to its activation.
-/

namespace C1auncher.Update.PendingReset

open Durable Durable.Prog CString Option
open Update.StateStore Update.StateCommit Update.CommitProgress
open Update.Protocol Update.Transaction Update.Boot
open Update.AntiRollback Update.Preparation Update.Moves
open Update.BootInvariant Update.Bootstrap Update.BootRecovery
open Update.BootSelection Update.PendingRecord Update.PendingBoots

/-! ### The invariant -/

/-- The phases on the way to an activation: a candidate pending already is left out, and so is
one that a rollback has begun to leave. -/
def Held (pending : Prop) (d : Device) (phase : Phase) : Prop :=
  phase = .downloading ∨ phase = .verified ∨ (phase = .prepared ∧ d.marker = none) ∨
    (phase = .pendingBoot ∧ ¬pending)

/-- No boot of the candidate is counted before it is activated. -/
structure Safe (pending : Prop) (d : Device) : Prop where
  unstarted : ∀ s, d.state = some s → Held pending d s.phase → Unstarted d.boots s.digest
  linked : d.marker ≠ none → d.previous ≠ none

variable {host : BootstrapRecord} {d : Device} {s next : State} {pending : Prop}

lemma not_held_idle : ¬Held pending d .idle := by simp [Held]

lemma not_held_confirmed : ¬Held pending d .confirmed := by simp [Held]

lemma Safe.of_not_held {d' : Device} (h : Safe pending d) (hs : d'.state = some s)
    (hheld : ¬Held pending d' s.phase) (hm : d'.marker = d.marker)
    (hp : d'.previous = d.previous) : Safe pending d' :=
  ⟨fun _ hs' hh => absurd (some.inj (hs.symm.trans hs') ▸ hh) hheld,
    hm ▸ hp ▸ h.linked⟩

lemma Safe.link {d' : Device} (h : Safe pending d) (hstore : d'.store = d.store)
    (hb : d'.boots = d.boots) (hm : d'.marker = d.marker)
    (hp : d.previous ≠ none → d'.previous ≠ none) : Safe pending d' := by
  refine ⟨fun s hs hheld => ?_, fun hmarker => hp (h.linked (hm ▸ hmarker))⟩
  rw [hb]
  unfold Held at hheld
  rw [hm] at hheld
  refine h.unstarted s ?_ hheld
  rw [← hs, Device.state, Device.state, hstore]

lemma Safe.mark {text : Text} (h : Safe pending d) (hp : d.previous ≠ none) :
    Safe pending { d with marker := some text } := by
  refine ⟨fun s hs hheld => h.unstarted s hs ?_, fun _ => hp⟩
  simp only [Held, reduceCtorEq, and_false, false_or] at hheld ⊢
  tauto

lemma unstarted_none (digest : Text) : Unstarted none digest := ⟨nofun, rfl⟩

lemma Safe.clear (h : Safe pending d) : Safe pending { d with boots := none } :=
  ⟨fun _ _ _ => unstarted_none _, h.linked⟩

lemma safe_unmark (hs : d.state = some s) (hidle : s.phase = .idle) :
    Safe pending { d with marker := none } :=
  ⟨fun _ hs' hheld => absurd (some.inj (hs.symm.trans hs') ▸ hheld)
    (hidle ▸ not_held_idle), fun hne => absurd rfl hne⟩

lemma Safe.commit {st : Store} (h : Safe pending d) (hs : d.state = some s)
    (hnext : Held pending d next.phase → Unstarted d.boots next.digest)
    (hpoint : CommitPoint s next d.store st) : Safe pending (d.setStore st) := by
  refine ⟨fun s' hs' hheld => ?_, h.linked⟩
  rcases readState_of_point hs hpoint with hl | hl
  · obtain rfl : s = s' := some.inj (hl.symm.trans hs')
    exact h.unstarted s hs hheld
  · obtain rfl : next = s' := some.inj (hl.symm.trans hs')
    exact hnext hheld

lemma wp_stateAdvance_safe {phase : Phase} {failed : Bool} {Q : State → Device → Prop}
    (h : Safe pending d) (hs : d.state = some s)
    (hnext : Held pending d phase → Unstarted d.boots s.digest)
    (hQ : ∀ d', Safe pending d' → d'.state = some (inPhase s 1 phase) → d'.marker = d.marker →
      d'.current = d.current → d'.previous = d.previous → Q (inPhase s 1 phase) d') :
    wp (stateAdvance s phase failed) Q (Safe pending) (Safe pending) d := by
  refine wp_bind (wp_get (fun next hn => ?_) fun _ => h)
  obtain ⟨-, rfl⟩ := eq_inPhase_of_transition hn
  have hpoint : ∀ st, CommitPoint s (inPhase s 1 phase) d.store st → Safe pending (d.setStore st) :=
    fun st hp => h.commit hs hnext hp
  refine wp_bind (wp_stateCommit hs hpoint fun st hacc hsel hst => ?_)
  have hsafe := hpoint st (.selected hacc hs hsel)
  refine wp_bind (wp_when (fun hphase => ?_) fun _ => wp_pure (hQ _ hsafe hst rfl rfl rfl))
  have hcleared : ∀ b, Safe pending { d.setStore st with boots := b } := fun b =>
    hsafe.of_not_held (s := inPhase s 1 phase) hst
      (by rcases hphase with rfl | rfl <;> simp [Held, inPhase]) rfl rfl
  exact wp_clearPendingBoots hcleared fun b => wp_pure (hQ _ (hcleared b) hst rfl rfl rfl)

/-! ### Rolling back -/

lemma wp_clearMarker_safe (h : Safe pending d) (hs : d.state = some s) (hidle : s.phase = .idle) :
    wp (do
      clearRollbackMarker
      pure s : Prog Device State)
      (fun s' d' => Safe pending d' ∧ d'.state = some s' ∧ s'.phase = .idle) (Safe pending)
      (Safe pending) d :=
  wp_bind (wp_clearRollbackMarker h (safe_unmark hs hidle)
    (wp_pure ⟨safe_unmark hs hidle, hs, hidle⟩))

lemma wp_leaveCandidate_safe (h : Safe pending d) (hs : d.state = some s) :
    wp (leaveCandidate s)
      (fun s' d' => Safe pending d' ∧ d'.state = some s' ∧ s'.phase = .idle) (Safe pending)
      (Safe pending) d := by
  unfold leaveCandidate
  split_ifs
  · refine wp_bind (wp_stateAdvance_safe h hs (fun hheld => absurd hheld not_held_idle)
      fun d' h' hs' _ _ _ => ?_)
    exact wp_bind (wp_require (fun hidle => wp_clearMarker_safe h' hs' hidle) fun _ => h')
  · exact wp_bind (wp_pure (wp_bind (wp_require (fun hidle => wp_clearMarker_safe h hs hidle)
      fun _ => h)))

lemma wp_rollbackLocked_safe {previous : Text} (h : Safe pending d) (hs : d.state = some s)
    (hprevious : d.previous = some previous) :
    wp (rollbackLocked previous s)
      (fun s' d' => Safe pending d' ∧ d'.state = some s' ∧ s'.phase = .idle) (Safe pending)
      (Safe pending) d := by
  have hmark : Safe pending { d with marker := some (markerText s) } :=
    h.mark (by rw [hprevious]; exact some_ne_none _)
  have hrestore : Safe pending
      { d with marker := some (markerText s), current := some previous } :=
    hmark.link rfl rfl rfl id
  rw [rollbackLocked_eq]
  refine wp_bind (wp_bind (wp_require (fun _ => wp_atomicWrite h hmark ?_) fun _ => h))
  refine wp_bind (wp_atomicPointer hmark hrestore ?_)
  split_ifs
  · refine wp_bind (wp_stateAdvance_safe (s := s) hrestore hs (fun hheld => ?_)
      fun d' h' hs' _ _ _ => wp_leaveCandidate_safe h' hs')
    simp [Held, Pointer.set] at hheld
  · exact wp_bind (wp_pure (wp_leaveCandidate_safe hrestore hs))

lemma wp_resumeRollback_safe (h : Safe pending d) (hs : d.state = some s) :
    wp (resumeRollback host s)
      (fun s' d' => Safe pending d' ∧ d'.state = some s' ∧ s'.phase = .idle) (Safe pending)
      (Safe pending) d := by
  refine wp_bind (wp_require (fun _ => ?_) fun _ => h)
  refine wp_bind (wp_readPointer h fun previous hprevious => ?_)
  refine wp_bind (wp_validateRelease h fun _ => ?_)
  have hrestore : Safe pending { d with current := some previous } := h.link rfl rfl rfl id
  split
  · next hidle =>
    exact wp_bind (wp_atomicPointer h hrestore (wp_clearMarker_safe (s := s) hrestore hs hidle))
  · exact wp_bind (wp_atomicPointer h hrestore (wp_bind (wp_stateAdvance_safe (s := s) hrestore hs
      (fun hheld => absurd hheld not_held_idle)
      fun d' h' hs' _ _ _ => wp_clearMarker_safe h' hs' rfl)))
  · exact wp_rollbackLocked_safe h hs hprevious

/-! ### The operations -/

lemma wp_recoverLocked_safe (h : Safe pending d) (hs : d.state = some s) :
    wp (recoverLocked host s)
      (fun s' d' => Safe pending d' ∧ d'.state = some s' ∧
        (s'.phase = .pendingBoot → s.phase = .pendingBoot)) (Safe pending) (Safe pending) d := by
  have hidle : ∀ (s' : State) (d' : Device),
      Safe pending d' ∧ d'.state = some s' ∧ s'.phase = .idle → Safe pending d' ∧
        d'.state = some s' ∧ (s'.phase = .pendingBoot → s.phase = .pendingBoot) :=
    fun s' d' ⟨h', hs', hi⟩ => ⟨h', hs', fun hp => by rw [hi] at hp; cases hp⟩
  refine wp_bind (wp_rollbackMarkerStatus h (fun _ => ?_) fun _ => ?_)
  · rw [if_neg Bool.false_ne_true]
    split_ifs with hphase
    · exact wp_pure ⟨h, hs, id⟩
    refine wp_bind (wp_readPointer h fun previous hprevious => ?_)
    refine wp_bind (wp_validateRelease h fun _ => ?_)
    have hsame : ∀ {α : Type} {p : Prog Device α},
        wp p (fun _ d' => d' = d) (fun d' => d' = d) (fun d' => d' = d) d →
          wp (attempt p) (fun _ d' => d' = d) (Safe pending) (Safe pending) d :=
      fun hp => wp_attempt (wp_mono hp (fun _ _ h => h) (fun _ h => h) fun _ hd => hd ▸ h)
    refine wp_bind (wp_mono (hsame (wp_validateRelease (P := (· = d))
      (Q := fun _ d' => d' = d) rfl fun _ => rfl)) (fun valid d' hd => ?_) (fun _ h => h)
      fun _ h => h)
    subst hd
    have hcurrent : wp ((if valid.isSome then attempt (readPointer .current) else pure none) :
        Prog Device (Option Text)) (fun _ d'' => d'' = d') (Safe pending) (Safe pending) d' := by
      split_ifs
      · exact hsame (wp_readPointer (P := (· = d')) (Q := fun _ d'' => d'' = d') rfl fun _ _ => rfl)
      · exact wp_pure rfl
    refine wp_bind (wp_mono hcurrent (fun current d'' hd => ?_) (fun _ h => h) fun _ h => h)
    subst hd
    split_ifs
    · exact wp_pure ⟨h, hs, id⟩
    · have hboot : Safe pending { d'' with current := some (candidateTarget s) } :=
        h.link rfl rfl rfl id
      exact wp_bind (wp_atomicPointer h hboot (wp_pure ⟨hboot, hs, id⟩))
    · exact wp_mono (wp_rollbackLocked_safe h hs hprevious) hidle (fun _ h => h) fun _ h => h
  · rw [if_pos rfl]
    exact wp_mono (wp_resumeRollback_safe h hs) hidle (fun _ h => h) fun _ h => h

variable (host) in
lemma wp_rollBack_safe {previous : Text} (h : Safe pending d) (hs : d.state = some s)
    (hprevious : d.previous = some previous) :
    wp (do
      validateRelease host previous none
      let _ ← rollbackLocked previous s : Prog Device Unit) (fun _ => Safe pending) (Safe pending)
      (Safe pending) d := by
  refine wp_bind (wp_validateRelease h fun _ => ?_)
  exact wp_bind (wp_mono (wp_rollbackLocked_safe h hs hprevious) (fun _ _ h => wp_pure h.1)
    (fun _ h => h) fun _ h => h)

lemma wp_recoverBoot_safe (bootId : Text) (h : Safe pending d)
    (hpending : ∀ s, d.state = some s → s.phase = .pendingBoot → pending) :
    wp (recoverBoot host bootId) (fun _ => Safe pending) (Safe pending) (Safe pending) d := by
  refine wp_bind (wp_require (fun _ => wp_bind (wp_tick (wp_bind ?_) h h)) fun _ => h)
  refine wp_zoom (wp_updateStateLoad (fun s hs => ?_) h h)
  refine wp_bind (wp_mono (wp_recoverLocked_safe (d := d) h hs) ?_ (fun _ h => h) fun _ h => h)
  rintro s' d' ⟨h', hs', hwas⟩
  split_ifs with hphase
  · have hp : pending := hpending s hs (hwas hphase)
    have hboots : ∀ b, Safe pending { d' with boots := b } := fun b =>
      h'.of_not_held (s := s') hs' (by simp [Held, hphase, hp]) rfl rfl
    have hback : ∀ b, wp (do
        let previous ← readPointer .previous
        validateRelease host previous none
        let _ ← rollbackLocked previous s' : Prog Device Unit) (fun _ => Safe pending)
        (Safe pending) (Safe pending) { d' with boots := b } := fun b =>
      wp_bind (wp_readPointer (hboots b) fun previous hprevious =>
        wp_rollBack_safe host (hboots b) hs' hprevious)
    refine wp_bind (wp_attempt (wp_mono (wp_countPendingBoot s' bootId _) ?_ ?_ ?_))
    · rintro counted _ ⟨b, rfl⟩
      split_ifs
      · exact wp_pure (hboots b)
      · exact hback b
    · rintro _ ⟨b, rfl⟩
      rw [if_neg (by simp)]
      exact hback b
    · rintro _ ⟨b, rfl⟩
      exact hboots b
  · refine wp_bind (wp_look ?_ h' h')
    rcases d'.boots with _ | data
    · exact wp_pure h'
    · exact wp_bind (wp_act (wp_tick h'.clear h'.clear h'.clear) h' h')

lemma wp_activate_safe (h : Safe pending d) :
    wp (activate host) (fun _ => Safe pending) (Safe pending) (Safe pending) d := by
  refine wp_bind (wp_tick (wp_bind ?_) h h)
  refine wp_zoom (wp_updateStateLoad (fun s hs => ?_) h h)
  have hrecover : wp (do
      let _ ← recoverLocked host s : Prog Device Unit) (fun _ => Safe pending)
      (Safe pending) (Safe pending) d :=
    wp_bind (wp_mono (wp_recoverLocked_safe (d := d) h hs) (fun _ _ h => wp_pure h.1)
      (fun _ h => h) fun _ h => h)
  refine wp_bind (wp_rollbackMarkerStatus (d := d) h (fun hmarker => ?_) fun _ => ?_)
  swap
  · rw [if_pos (.inl rfl)]
    exact hrecover
  by_cases hpending : s.phase = .pendingBoot
  · rw [if_pos (.inr hpending)]
    exact hrecover
  rw [if_neg (by simp [hpending])]
  refine wp_bind (wp_require (fun hphase => ?_) fun _ => h)
  refine wp_bind (wp_validateRelease h fun _ => ?_)
  refine wp_bind (wp_readPointer h fun current _ => ?_)
  refine wp_bind (wp_validateRelease h fun _ => ?_)
  have hprevious : Safe pending { d with previous := some current } :=
    h.link rfl rfl rfl fun _ => some_ne_none _
  refine wp_bind (wp_atomicPointer h hprevious (wp_bind (wp_stateAdvance_safe (s := s) hprevious hs
    (fun _ => h.unstarted s hs (.inr (.inr (.inl ⟨hphase, hmarker⟩)))) fun d' h' _ _ _ _ => ?_)))
  have hboot : Safe pending { d' with current := some (candidateTarget s) } :=
    h'.link rfl rfl rfl id
  exact wp_atomicPointer h' hboot hboot

lemma wp_confirm_safe (h : Safe pending d) :
    wp (confirm host) (fun _ => Safe pending) (Safe pending) (Safe pending) d := by
  refine wp_bind (wp_tick (wp_bind ?_) h h)
  refine wp_zoom (wp_updateStateLoad (fun s hs => ?_) h h)
  refine wp_bind (wp_require (fun _ => ?_) fun _ => h)
  refine wp_bind (wp_readPointer (d := d) h fun current _ => ?_)
  refine wp_bind (wp_require (fun _ => wp_bind (wp_validateRelease h fun _ => ?_)) fun _ => h)
  exact wp_bind (wp_stateAdvance_safe (s := s) h hs (fun hheld => absurd hheld not_held_confirmed)
    fun d' h' _ _ _ _ => wp_pure h')

lemma wp_rollback_safe (h : Safe pending d) :
    wp (rollback host) (fun _ => Safe pending) (Safe pending) (Safe pending) d := by
  refine wp_bind (wp_tick (wp_bind ?_) h h)
  refine wp_zoom (wp_updateStateLoad (fun s hs => ?_) h h)
  refine wp_bind (wp_require (fun _ => ?_) fun _ => h)
  refine wp_bind (wp_readPointer (d := d) h fun previous hprevious => ?_)
  have hback := wp_rollBack_safe host h hs hprevious
  refine wp_bind (wp_when (fun _ => ?_) fun _ => hback)
  exact wp_bind (wp_readPointer h fun current _ => wp_require (fun _ => hback) fun _ => h)

lemma wp_recoveryExec_safe (which : Pointer) (h : Safe pending d) :
    wp (recoveryExec host which) (fun _ => Safe pending) (Safe pending) (Safe pending) d := by
  refine wp_bind (wp_tick (wp_bind ?_) h h)
  refine wp_zoom (wp_updateStateLoad (fun s hs => ?_) h h)
  refine wp_bind (wp_readPointer (d := d) h fun target htarget => ?_)
  refine wp_bind (wp_validateRelease h fun _ => ?_)
  refine wp_bind (wp_tick (wp_bind ?_) h h)
  refine wp_when (fun hwhich => ?_) fun _ => wp_tick h h h
  subst hwhich
  split_ifs
  · exact wp_bind (wp_mono (wp_rollbackLocked_safe h hs htarget) (fun _ _ h => wp_pure
      (wp_tick h.1 h.1 h.1)) (fun _ h => h) fun _ h => h)
  · have hlink : Safe pending { d with current := some target } := h.link rfl rfl rfl id
    exact wp_atomicPointer h hlink (wp_tick hlink hlink hlink)

lemma wp_bootstrapActivate_safe (h : Safe pending d) :
    wp (bootstrapActivate host) (fun _ => Safe pending) (Safe pending) (Safe pending) d := by
  have hconfirm : ∀ (s : State) (status : Bool) (candidate : Text) (d : Device), Safe pending d →
      d.state = some s → wp (do
        .when (¬status) (atomicPointer .previous candidate)
        let _ ← stateAdvance s .confirmed false : Prog Device Unit)
        (fun _ => Safe pending) (Safe pending) (Safe pending) d := by
    intro s status candidate d h hs
    have hlast : ∀ d', Safe pending d' → d'.state = some s → wp (do
        let _ ← stateAdvance s .confirmed false : Prog Device Unit)
        (fun _ => Safe pending) (Safe pending) (Safe pending) d' := fun d' h' hs' =>
      wp_bind (wp_stateAdvance_safe (s := s) h' hs' (fun hheld => absurd hheld not_held_confirmed)
        fun d'' h'' _ _ _ _ => wp_pure h'')
    have hlink : Safe pending { d with previous := some candidate } :=
      h.link rfl rfl rfl fun _ => some_ne_none _
    exact wp_bind (wp_when (fun _ => wp_atomicPointer h hlink (hlast _ hlink hs))
      fun _ => hlast d h hs)
  have hrest : ∀ (s : State) (currentStatus previousStatus : Bool) (candidate : Text)
      (d : Device), Safe pending d → d.state = some s → wp (do
        .when (¬currentStatus) (atomicPointer .current candidate)
        .when (¬previousStatus) (atomicPointer .previous candidate)
        let _ ← stateAdvance s .confirmed false : Prog Device Unit)
        (fun _ => Safe pending) (Safe pending) (Safe pending) d := by
    intro s currentStatus previousStatus candidate d h hs
    have hlink : Safe pending { d with current := some candidate } := h.link rfl rfl rfl id
    exact wp_bind (wp_when (fun _ => wp_atomicPointer h hlink
      (hconfirm s previousStatus candidate _ hlink hs))
      fun _ => hconfirm s previousStatus candidate d h hs)
  refine wp_bind (wp_tick (wp_bind ?_) h h)
  refine wp_zoom (wp_updateStateLoad (fun s hs => ?_) h h)
  refine wp_bind (wp_require (fun hphase => ?_) fun _ => h)
  refine wp_bind (wp_validateRelease (d := d) h fun _ => ?_)
  refine wp_bind (wp_bootstrapPointerStatus (d := d) h fun currentStatus _ _ => ?_)
  refine wp_bind (wp_bootstrapPointerStatus (d := d) h fun previousStatus _ hno => ?_)
  refine wp_bind (wp_require (fun hnew => ?_) fun _ => h)
  split_ifs with hprepared
  · have hmarker : d.marker = none := by
      by_contra hm
      exact h.linked hm (hno fun hstatus => hnew ⟨hprepared, .inr hstatus⟩)
    exact wp_bind (wp_stateAdvance_safe (s := s) h hs
      (fun _ => h.unstarted s hs (.inr (.inr (.inl ⟨hprepared, hmarker⟩))))
      fun d' h' hs' _ _ _ => hrest _ currentStatus previousStatus _ d' h' hs')
  · exact wp_bind (wp_pure (hrest s currentStatus previousStatus _ d h hs))

/-! ### Preparation -/

lemma closed_safe (host : BootstrapRecord) (pending : Prop) :
    Closed host ⟨fun _ => False, fun _ => False, fun _ => False⟩ (Safe pending) where
  store := by
    intro d s next st h hs _ ha hpoint
    refine h.commit hs (fun hheld => ?_) hpoint
    have hstill : Held pending d s.phase → next.digest = s.digest → Unstarted d.boots next.digest :=
      fun hs' hd => hd ▸ h.unstarted s hs hs'
    cases ha with
    | download release hopens hG => exact hG.elim
    | pend hphase hmarker hlink hG => exact hG.elim
    | verify hphase => exact hstill (.inl hphase) rfl
    | prepare hphase hdir => exact hstill (.inr (.inl hphase)) rfl
    | confirm hphase hlink => exact absurd hheld not_held_confirmed
    | unpend hphase hmarker hlink => simp [Held, inPhase, hmarker] at hheld
    | drop hphase hmarker hlink => exact absurd hheld not_held_idle
    | abandon hphase => exact absurd hheld not_held_idle
  add := fun h _ _ _ => h.link rfl rfl rfl id

/-- A preparation that opens a transaction does so for a release of which no boot is counted. -/
def Resets (host : BootstrapRecord) (step : Step) (d : Device) : Prop :=
  ∀ release s, step.op = .prepare release → d.state = some s → Opens host release d s →
    Unstarted d.boots release.digest

lemma wp_prepare_safe (release : Release) (h : Safe pending d)
    (hresets : ∀ s, d.state = some s → Opens host release d s → Unstarted d.boots release.digest) :
    wp (prepare host release) (fun _ => Safe pending) (Safe pending) (Safe pending) d :=
  wp_prepare_of_opens release (closed_safe host pending) h fun s _ hs _ hopens hpoint =>
    h.commit hs (fun _ => hresets s hs hopens) hpoint

/-! ### Runs -/

def IsPending (d : Device) : Prop := ∃ s, d.state = some s ∧ s.phase = .pendingBoot

lemma safe_exec {step : Step} (h : Safe pending d) (hpending : IsPending d → pending)
    (hresets : Resets host step d) : Safe pending (exec host step d) := by
  refine wp_after ?_ step.replies
  cases hop : step.op with
  | prepare release =>
    exact wp_prepare_safe release h fun s hs hopens => hresets release s hop hs hopens
  | activate => exact wp_activate_safe h
  | bootstrapActivate => exact wp_bootstrapActivate_safe h
  | recover bootId => exact wp_recoverBoot_safe bootId h fun s hs hphase => hpending ⟨s, hs, hphase⟩
  | confirm => exact wp_confirm_safe h
  | rollback => exact wp_rollback_safe h
  | recoveryExec which => exact wp_recoveryExec_safe which h

lemma safe_factory : Safe True .factory :=
  ⟨fun _ _ _ => unstarted_none _, fun h => absurd rfl h⟩

lemma safe_run {steps : List Step} (hm : Meets (exec host) (Resets host) .factory steps) :
    Safe True (final (exec host) .factory steps) :=
  final_inv_of_meets safe_factory hm fun _ _ hresets h => safe_exec h (fun _ => trivial) hresets

/-- **An activation starts from zero**, where every transaction was opened for a release of
which no boot was counted. -/
theorem unstarted_of_run {steps : List Step} {step : Step}
    (hm : Meets (exec host) (Resets host) .factory (steps ++ [step])) (hs : d.state = some s)
    (hd : d = final (exec host) .factory (steps ++ [step])) (hphase : s.phase = .pendingBoot)
    (hbefore : ¬IsPending (final (exec host) .factory steps)) : Unstarted d.boots s.digest := by
  obtain ⟨hm, hresets, -⟩ := meets_append.mp hm
  have hsafe : Safe False (final (exec host) .factory steps) := by
    refine ⟨fun s' hs' hheld => (safe_run hm).unstarted s' hs' ?_, (safe_run hm).linked⟩
    have hne : s'.phase ≠ .pendingBoot := fun hc => hbefore ⟨s', hs', hc⟩
    unfold Held at hheld ⊢
    tauto
  subst hd
  rw [final_append] at hs ⊢
  exact (safe_exec hsafe hbefore hresets).unstarted s hs (.inr (.inr (.inr ⟨hphase, id⟩)))

/-! ### Pending boots -/

def Written (data : Text) : Prop :=
  ∃ digest bootId attempts, validDigest digest ∧ validBootId bootId ∧ 1 ≤ attempts ∧
    attempts ≤ pendingBootLimit ∧ data = pendingBootsText digest bootId attempts

lemma written_of_scan {data : Text} (h : (scanPendingBoots data).isSome) : Written data := by
  obtain ⟨⟨digest, bootId, attempts⟩, hscan⟩ := Option.isSome_iff_exists.mp h
  rw [scanPendingBoots_eq] at hscan
  obtain ⟨hpos, hle, heq⟩ := eq_of_parsePendingBoots hscan
  simp only [parsePendingBoots, bind_eq_bind, bind_eq_some_iff, some.injEq, Prod.mk.injEq] at hscan
  obtain ⟨_, hvalid, -, -, rfl, rfl, -⟩ := hscan
  have hboth := of_guard hvalid
  rw [Bool.and_eq_true] at hboth
  exact ⟨_, _, _, hboth.1, hboth.2, hpos, hle, heq⟩

lemma readable_iff {boots : Option Text} :
    Readable boots ↔ ∀ data, boots = some data → Written data := by
  refine ⟨fun h data hd => written_of_scan (h data hd), fun h data hd => ?_⟩
  obtain ⟨digest, bootId, attempts, hdigest, hid, hpos, hle, rfl⟩ := h data hd
  rw [scanPendingBoots_text hdigest hid hpos hle]
  rfl

/-- What a boot of a pending candidate comes to that must not be counted any more. -/
structure LeavesCandidate (host : BootstrapRecord) (d : Device) (s : State) (bootId : Text) :
    Prop where
  returned : ∀ rs, (recoverBoot host bootId rs d).1 = .done () →
    (∃ s', ((recoverBoot host bootId).after rs d).state = some s' ∧ s'.phase = .idle) ∧
      ((recoverBoot host bootId).after rs d).current = d.previous
  undisturbed : Inv host d s → d.marker = none → validBootId bootId →
    ((recoverBoot host bootId).after [] d).current = d.previous ∧
      (CanRollBack d s → ∃ d' s', Returns (recoverBoot host bootId) d () d' ∧ RolledBack d d' s')

lemma leavesCandidate_of_exhausted {bootId : Text} (hs : d.state = some s)
    (hphase : s.phase = .pendingBoot) (h : Exhausted d.boots s.digest bootId) :
    LeavesCandidate host d s bootId :=
  ⟨fun _ hret => rolledBack_of_exhausted hs hphase h hret,
    fun hinv hmarker hid => exhausted_rollsBack hinv hphase hmarker hid h⟩

/-- How the boots of a candidate are counted from a device on. -/
structure Accounted (host : BootstrapRecord) (d : Device) : Prop where
  repeated : ∀ {digest ids d' bootId rs}, Boots host digest d ids d' →
    (recoverBoot host bootId rs d').1 = .done () →
    Pending digest ((recoverBoot host bootId).after rs d') →
    (tally d'.boots digest).last = some bootId →
    ((recoverBoot host bootId).after rs d').boots = d'.boots
  changed : ∀ {digest ids d'}, Boots host digest d ids d' →
    (tally d'.boots digest).attempts =
        (tally d.boots digest).attempts + changes (tally d.boots digest).last ids ∧
      (tally d'.boots digest).attempts ≤ pendingBootLimit
  limit : ∀ {digest ids d' s bootId}, Boots host digest d ids d' → d'.state = some s →
    (tally d'.boots digest).attempts = pendingBootLimit →
    (tally d'.boots digest).last ≠ some bootId → LeavesCandidate host d' s bootId
  unreadable : ∀ {digest ids d' s bootId data}, Boots host digest d ids d' →
    d'.state = some s → d'.boots = some data → ¬Written data → LeavesCandidate host d' s bootId

lemma accounted (host : BootstrapRecord) (d : Device) : Accounted host d where
  repeated h hret hstays hlast := (countedBy_of_stays h.pending hret hstays).2.repeated hlast
  changed h := by
    refine ⟨?_, attempts_tally_le _ _⟩
    rw [(boots_tally h).1, attempts_foldl]
  limit h hs hfull hlast := by
    obtain ⟨s', hs', hphase, rfl⟩ := h.pending
    obtain rfl := some.inj (hs.symm.trans hs')
    exact leavesCandidate_of_exhausted hs hphase (.inr ⟨hfull, hlast⟩)
  unreadable h hs hboots hno := by
    obtain ⟨s', hs', hphase, rfl⟩ := h.pending
    obtain rfl := some.inj (hs.symm.trans hs')
    exact leavesCandidate_of_exhausted hs hphase
      (.inl fun hr => hno (readable_iff.mp hr _ hboots))

/-- **Pending boots.** Over all calls for a pending candidate the record counts the changes of
the boot identifier, up to three; the next boot, or a record that is not one the updater
writes, ends in a rollback. In a run in which every transaction is opened for a release of
which no boot is counted, each activation starts from zero. -/
theorem pending_boots (host : BootstrapRecord) {steps : List Step} {step : Step}
    (hm : Meets (exec host) (Resets host) .factory (steps ++ [step])) :
    (∀ d, Accounted host d) ∧
      ∀ s, (final (exec host) .factory (steps ++ [step])).state = some s →
        s.phase = .pendingBoot → ¬IsPending (final (exec host) .factory steps) →
        Unstarted (final (exec host) .factory (steps ++ [step])).boots s.digest :=
  ⟨accounted host, fun _ hs hphase hbefore => unstarted_of_run hm hs rfl hphase hbefore⟩

/-- A device enrolled with the first release prepares the second. -/
def preparedSecond : List Step :=
  [⟨.prepare firstRelease, []⟩, ⟨.bootstrapActivate, []⟩, ⟨.prepare secondRelease, []⟩]

lemma resets_of_none {step : Step} (h : d.boots = none) : Resets host step d :=
  fun _ _ _ _ _ => h ▸ unstarted_none _

lemma resets_preparedSecond :
    Meets (exec .missing) (Resets .missing) .factory (preparedSecond ++ [⟨.activate, []⟩]) :=
  ⟨resets_of_none rfl, resets_of_none (by decide +kernel), resets_of_none (by decide +kernel),
    resets_of_none (by decide +kernel), trivial⟩

theorem pending_boots_preparedSecond :
    (∀ d, Accounted .missing d) ∧
      ∀ s, (final (exec .missing) .factory (preparedSecond ++ [⟨.activate, []⟩])).state = some s →
        s.phase = .pendingBoot → ¬IsPending (final (exec .missing) .factory preparedSecond) →
        Unstarted (final (exec .missing) .factory (preparedSecond ++ [⟨.activate, []⟩])).boots
          s.digest :=
  pending_boots .missing resets_preparedSecond

def bootOf (digit : Char) : Text := someBoot.map fun c => if c = '0' then digit else c

/-- The second release has its three boots and is rolled back; the call ends before it unlinks
the record, the activation after it finishes the rollback, and the release is prepared again. -/
def recordLeft : List Step :=
  preparedSecond ++ [⟨.activate, []⟩, ⟨.recover (bootOf '1'), []⟩, ⟨.recover (bootOf '2'), []⟩,
    ⟨.recover (bootOf '3'), []⟩, ⟨.recover (bootOf '4'), List.replicate 47 .ok ++ [.die]⟩,
    ⟨.activate, []⟩, ⟨.prepare secondRelease, []⟩]

lemma phase_recordLeft :
    (final (exec .missing) .factory recordLeft).state.map State.phase = some .prepared := by
  decide +kernel

/-- The state the second activation of the second release commits. -/
def pendingAgain : State :=
  ⟨15, .pendingBoot, 6, 3, ['1', '.', '1', '.', '0'], List.replicate 64 'b'⟩

lemma state_activatedAgain :
    (final (exec .missing) .factory (recordLeft ++ [⟨.activate, []⟩])).state
      = some pendingAgain := by
  decide +kernel

lemma tally_activatedAgain :
    tally (final (exec .missing) .factory (recordLeft ++ [⟨.activate, []⟩])).boots
      pendingAgain.digest = some (bootOf '3', 3) := by
  decide +kernel

/-- A rollback finished by an activation leaves its record to the next one. -/
theorem pending_boots_fails : ¬∀ (host : BootstrapRecord) (steps : List Step) (step : Step)
    (s : State), (final (exec host) .factory (steps ++ [step])).state = some s →
    s.phase = .pendingBoot → ¬IsPending (final (exec host) .factory steps) →
    Unstarted (final (exec host) .factory (steps ++ [step])).boots s.digest := by
  intro h
  have hbefore : ¬IsPending (final (exec .missing) .factory recordLeft) := by
    rintro ⟨s, hs, hphase⟩
    have hprepared := phase_recordLeft
    rw [hs, map_some, hphase] at hprepared
    cases hprepared
  have hun := (h .missing recordLeft ⟨.activate, []⟩ pendingAgain state_activatedAgain rfl
    hbefore).2
  rw [tally_activatedAgain] at hun
  cases hun

end C1auncher.Update.PendingReset
