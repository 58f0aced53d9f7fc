import C1auncher.Update.BootInvariant

/-!
What a recovery comes to when its file operations succeed, from every state the updater can
be in.
-/

namespace C1auncher.Update.BootRecovery

open Durable Durable.Prog CString Returns List Option
open Update.StateStore Update.StateCommit Update.CommitProgress
open Update.Protocol Update.Transaction Update.Boot
open Update.AntiRollback Update.Preparation Update.Moves
open Update.BootInvariant

variable {host : BootstrapRecord} {d d' : Device} {s next : State}

/-! ### The parts of a recovery -/

variable {target bootId : Text} {attempts : ℕ}

lemma returns_readPointer (which : Pointer)
    (h : acceptTarget (which.get d) = some target) : Returns (readPointer which) d target d :=
  look.bind (get h)

lemma returns_validateRelease {identity : Option State}
    (h : releaseValid host d.releases target identity) :
    Returns (validateRelease host target identity) d () d :=
  look.bind (require h)

lemma parseTarget_of_accept {link : Option Text}
    (h : acceptTarget link = some target) : (parseTarget target).isSome := by
  have := (filter_eq_some_iff.mp h).2
  simp only [Bool.and_eq_true] at this
  exact this.2

lemma returns_atomicPointer (which : Pointer) (h : (parseTarget target).isSome) :
    Returns (atomicPointer which target) d () (which.set target d) :=
  (require h).bind (tick.bind (tick.bind (act.bind tick)))

lemma returns_markerStatus_none (h : d.marker = none) :
    Returns (rollbackMarkerStatus s) d false d := by
  refine look.bind ?_
  rw [h]
  exact pure

lemma returns_markerStatus_some (hs : validDigest s.digest) (h : d.marker = some (markerText s)) :
    Returns (rollbackMarkerStatus s) d true d := by
  refine look.bind ?_
  rw [h]
  exact (require ⟨length_of_validDigest hs, rfl⟩).bind pure

lemma refuses_markerStatus {text : Text} (h : d.marker = some text) (hne : text ≠ markerText s) :
    Refuses (rollbackMarkerStatus s) d d := by
  refine look.bind_refuses ?_
  rw [h]
  exact (Refuses.require fun hc => hne hc.2).bind

lemma returns_clearPendingBoots : Returns clearPendingBoots d () { d with boots := none } := by
  refine look.bind ?_
  rcases d with ⟨store, releases, current, previous, marker, _ | data⟩
  · exact pure
  · exact act.bind tick

lemma returns_clearRollbackMarker :
    Returns clearRollbackMarker d () { d with marker := none } :=
  act.bind tick

lemma returns_markRollback (h : validDigest s.digest) :
    Returns (markRollback s) d () { d with marker := some (markerText s) } :=
  (require (length_of_validDigest h)).bind (tick.bind
    (act.bind tick))

/-! ### Advancing the state -/

lemma free_of_absent (h : d.store.generation? (decimal next.generation) = none) :
    Free next d.store := fun directory hd => by simp [h] at hd

lemma returns_stateAdvance {phase : Phase} {failed : Bool} (hst : Stored d.store s)
    (ht : updateTransition (some s) phase s.sequence s.securityEpoch s.release s.digest failed
      = some (inPhase s 1 phase)) (hfree : Free (inPhase s 1 phase) d.store) :
    ∃ st, Returns (stateAdvance s phase failed) d (inPhase s 1 phase)
        (if phase = .confirmed ∨ phase = .idle then { d.setStore st with boots := none }
          else d.setStore st) ∧
      Selected (inPhase s 1 phase) d.store st ∧ Stored st (inPhase s 1 phase) := by
  have hacc := accepts_of_transition hst.load ht
  obtain ⟨hmax, -⟩ := eq_inPhase_of_transition ht
  obtain ⟨st, hret, hsel, -⟩ := returns_stateCommit hacc hst.load hfree
  refine ⟨st, (get ht).bind (hret.bind ?_), hsel, hst.of_selected hmax rfl hacc hsel⟩
  split_ifs with hphase
  · exact (when hphase returns_clearPendingBoots).bind pure
  · exact (when_not hphase).bind pure

lemma refuses_stateAdvance (phase : Phase) (failed : Bool) (hst : Stored d.store s)
    (h : updateTransition (some s) phase s.sequence s.securityEpoch s.release s.digest failed
      = some (inPhase s 1 phase) → ¬Free (inPhase s 1 phase) d.store) :
    ∃ st, Refuses (stateAdvance s phase failed) d (d.setStore st) ∧ Kept d.store st := by
  rcases ht : updateTransition (some s) phase s.sequence s.securityEpoch s.release s.digest failed
    with _ | next
  · exact ⟨d.store, (Refuses.get ht).bind, Kept.refl _⟩
  obtain ⟨-, rfl⟩ := eq_inPhase_of_transition ht
  obtain ⟨st, href, hk⟩ := refuses_stateCommit (accepts_of_transition hst.load ht) hst.load (h ht)
  exact ⟨st, (get ht).bind_refuses href.bind, hk⟩

/-! ### Rolling back -/

def rollbackNext (s : State) : State :=
  inPhase s 1 (if s.phase = .pendingBoot then .prepared else .idle)

/-- What a rollback needs: numbers for its commits, of which no other state occupies the
first. -/
structure CanRollBack (d : Device) (s : State) : Prop where
  fits : s.generation.toNat + (if s.phase = .pendingBoot then 2 else 1) < 2 ^ 64
  free : Free (rollbackNext s) d.store

/-- A rollback was begun that cannot be finished. -/
structure Blocked (d : Device) (s : State) : Prop where
  load : d.state = some s
  marker : d.marker = some (markerText s)
  active : s.phase ≠ .idle
  stuck : s.phase = .downloading ∨ s.phase = .verified ∨ ¬CanRollBack d s

structure RolledBack (d d' : Device) (s' : State) : Prop where
  stored : Stored d'.store s'
  idle : s'.phase = .idle
  current : d'.current = d.previous
  previous : d'.previous = d.previous
  releases : d'.releases = d.releases
  marker : d'.marker = none

lemma transition_drop (hmax : s.generation ≠ 0xffffffffffffffff) (hphase : s.phase ≠ .idle) :
    updateTransition (some s) .idle s.sequence s.securityEpoch s.release s.digest true
      = some (inPhase s 1 .idle) := transition_failed hmax hphase _ _ _ _

lemma transition_unpend (hw : Writable s) (hmax : s.generation ≠ 0xffffffffffffffff)
    (hphase : s.phase = .pendingBoot) :
    updateTransition (some s) .prepared s.sequence s.securityEpoch s.release s.digest false
      = some (inPhase s 1 .prepared) :=
  transition_step hmax (by rw [hphase]; decide) (identityValid_self hw)

lemma returns_leaveCandidate (hst : Stored d.store s)
    (hphase : s.phase = .prepared ∨ s.phase = .confirmed)
    (hmax : s.generation ≠ 0xffffffffffffffff) (hfree : Free (inPhase s 1 .idle) d.store) :
    ∃ st, Returns (leaveCandidate s) d (inPhase s 1 .idle)
        { d with store := st, marker := none, boots := none } ∧ Stored st (inPhase s 1 .idle) := by
  obtain ⟨st, hret, -, hst'⟩ := returns_stateAdvance hst
    (transition_drop hmax (by rcases hphase with h | h <;> simp [h])) hfree
  rw [if_pos (.inr rfl)] at hret
  have hclear := returns_clearRollbackMarker (d := { d.setStore st with boots := none })
  refine ⟨st, bind (a := inPhase s 1 .idle) ?_ ((require rfl).bind
    (hclear.bind pure)), hst'⟩
  rw [if_pos hphase]
  exact hret

lemma returns_rollbackLocked {previous : Text} (hst : Stored d.store s)
    (hprevious : acceptTarget d.previous = some previous)
    (hphase : s.phase = .pendingBoot ∨ s.phase = .prepared ∨ s.phase = .confirmed)
    (hcan : CanRollBack d s) :
    ∃ d' s', Returns (rollbackLocked previous s) d s' d' ∧ RolledBack d d' s' := by
  have hlink : d.previous = some previous := (filter_eq_some_iff.mp hprevious).1
  have hfits := hcan.fits
  have hfree := hcan.free
  have hmax : s.generation ≠ 0xffffffffffffffff := ne_max_of_fits hfits (by split_ifs <;> omega)
  have hstart : ∀ {a d'}, Returns (do
      let state ← (if s.phase = .pendingBoot then stateAdvance s .prepared false else pure s)
      leaveCandidate state : Prog Device State)
      { d with marker := some (markerText s), current := some previous } a d' →
      Returns (rollbackLocked previous s) d a d' := fun h =>
    (returns_markRollback hst.writable.digest).bind
      ((returns_atomicPointer .current (parseTarget_of_accept hprevious)).bind h)
  by_cases hpending : s.phase = .pendingBoot
  · -- two commits: PREPARED, then IDLE
    simp only [rollbackNext, if_pos hpending] at hfree hfits
    obtain ⟨st, hret, hsel, hst'⟩ := returns_stateAdvance
      (d := { d with marker := some (markerText s), current := some previous }) hst
      (transition_unpend hst.writable hmax hpending) hfree
    rw [if_neg (by simp)] at hret
    have hsucc := succ_toNat hmax
    have hmax' : (inPhase s 1 .prepared).generation ≠ 0xffffffffffffffff :=
      ne_max_of_fits (n := 1) (by simp only [inPhase, hsucc]; omega) (by omega)
    have hsucc' : (inPhase (inPhase s 1 .prepared) 1 .idle).generation.toNat
        = s.generation.toNat + 2 := by
      simp only [inPhase] at hmax' ⊢
      rw [succ_toNat hmax', hsucc]
    have habsent : Store.generation? st
        (decimal (inPhase (inPhase s 1 .prepared) 1 .idle).generation) = none := by
      rw [hsel.2.2 _ fun hc => ?_]
      · exact hst.fresh _ (by omega)
      have := congrArg UInt64.toNat (decimal_injective hc)
      simp only [hsucc'] at this
      simp only [inPhase, hsucc] at this
      omega
    obtain ⟨st', hleave, hst''⟩ := returns_leaveCandidate
      (d := { d with store := st, marker := some (markerText s), current := some previous })
      hst' (.inl rfl) hmax' (free_of_absent habsent)
    refine ⟨_, _, hstart (bind (a := inPhase s 1 .prepared) ?_ hleave), hst'', rfl,
      hlink.symm, rfl, rfl, rfl⟩
    rw [if_pos hpending]
    exact hret
  · simp only [rollbackNext, if_neg hpending] at hfree hfits
    obtain ⟨st, hleave, hst'⟩ := returns_leaveCandidate
      (d := { d with marker := some (markerText s), current := some previous }) hst
      (hphase.resolve_left hpending) hmax hfree
    refine ⟨_, _, hstart (bind (a := s) ?_ hleave), hst', rfl, hlink.symm, rfl, rfl, rfl⟩
    rw [if_neg hpending]
    exact pure

lemma refuses_leaveCandidate (hphase : s.phase = .prepared ∨ s.phase = .confirmed)
    (h : Refuses (stateAdvance s .idle true) d d') : Refuses (leaveCandidate s) d d' := by
  refine Refuses.bind ?_
  rw [if_pos hphase]
  exact h

lemma not_canRollBack_of_max (h : s.generation = 0xffffffffffffffff) : ¬CanRollBack d s := by
  intro hc
  exact ne_max_of_fits hc.fits (by split_ifs <;> omega) h

lemma refuses_rollbackLocked {previous : Text} (hst : Stored d.store s)
    (hprevious : acceptTarget d.previous = some previous)
    (hphase : s.phase = .pendingBoot ∨ s.phase = .prepared ∨ s.phase = .confirmed)
    (hcannot : ¬CanRollBack d s) :
    ∃ d' s', Refuses (rollbackLocked previous s) d d' ∧ Blocked d' s' := by
  have hstart : ∀ {d'}, Refuses (do
      let state ← (if s.phase = .pendingBoot then stateAdvance s .prepared false else pure s)
      leaveCandidate state : Prog Device State)
      { d with marker := some (markerText s), current := some previous } d' →
      Refuses (rollbackLocked previous s) d d' := fun h =>
    (returns_markRollback hst.writable.digest).bind_refuses
      ((returns_atomicPointer .current (parseTarget_of_accept hprevious)).bind_refuses h)
  have hblocked : ∀ st, Kept d.store st → Blocked
      { d with store := st, marker := some (markerText s), current := some previous } s :=
    fun st hk => ⟨hk.readState.trans hst.load, rfl,
      by rcases hphase with h | h | h <;> simp [h],
      .inr (.inr fun hc => hcannot ⟨hc.fits, hc.free.of_kept hk⟩)⟩
  have hsucc : s.generation ≠ 0xffffffffffffffff → s.generation.toNat + 1 < 2 ^ 64 := by
    intro hmax
    have := succ_toNat hmax
    have := (s.generation + 1).toNat_lt
    omega
  by_cases hpending : s.phase = .pendingBoot
  · by_cases hfirst : s.generation ≠ 0xffffffffffffffff ∧ Free (inPhase s 1 .prepared) d.store
    · -- the first commit takes the last number
      obtain ⟨hmax, hfree⟩ := hfirst
      obtain ⟨st, hret, -, hst'⟩ := returns_stateAdvance
        (d := { d with marker := some (markerText s), current := some previous }) hst
        (transition_unpend hst.writable hmax hpending) hfree
      rw [if_neg (by simp)] at hret
      have hlast : (inPhase s 1 .prepared).generation = 0xffffffffffffffff := by
        by_contra hmax'
        have hgen := succ_toNat hmax
        simp only [inPhase] at hmax'
        have hgen' := succ_toNat hmax'
        have := (s.generation + 1 + 1).toNat_lt
        refine hcannot ⟨?_, ?_⟩
        · rw [if_pos hpending]
          omega
        · rw [rollbackNext, if_pos hpending]
          exact hfree
      obtain ⟨st', href, hk⟩ := refuses_stateAdvance .idle true
        (d := { d with store := st, marker := some (markerText s), current := some previous })
        hst' fun ht => absurd hlast (eq_inPhase_of_transition ht).1
      have hrun := hret.bind_refuses (f := leaveCandidate)
        (refuses_leaveCandidate (.inl rfl) href)
      have hb : Blocked { d with store := st', marker := some (markerText s),
                                  current := some previous } (inPhase s 1 .prepared) :=
        ⟨hk.readState.trans hst'.load, rfl, by simp [inPhase],
          .inr (.inr (not_canRollBack_of_max hlast))⟩
      refine ⟨_, _, hstart ?_, hb⟩
      rw [if_pos hpending]
      exact hrun
    · obtain ⟨st, href, hk⟩ := refuses_stateAdvance .prepared false
        (d := { d with marker := some (markerText s), current := some previous }) hst
        fun ht hfree => hfirst ⟨(eq_inPhase_of_transition ht).1, hfree⟩
      refine ⟨_, s, hstart (Refuses.bind ?_), hblocked st hk⟩
      rw [if_pos hpending]
      exact href
  · obtain ⟨st, href, hk⟩ := refuses_stateAdvance .idle true
      (d := { d with marker := some (markerText s), current := some previous }) hst
      fun ht hfree => hcannot ⟨by
        rw [if_neg hpending]
        exact hsucc (eq_inPhase_of_transition ht).1, by
        rw [rollbackNext, if_neg hpending]
        exact hfree⟩
    have hrun := refuses_leaveCandidate (hphase.resolve_left hpending) href
    refine ⟨_, s, hstart (bind_refuses (a := s) ?_ hrun), hblocked st hk⟩
    rw [if_neg hpending]
    exact pure

/-! ### Behind a marker -/

/-- The marker, where there is one, is that of the state, and its phase is not that of an
unfinished preparation. -/
def MarkerFits (d : Device) (s : State) : Prop :=
  ∀ text, d.marker = some text → text = markerText s ∧ s.phase ≠ .downloading ∧
    s.phase ≠ .verified

lemma resumeRollback_start (h : Inv host d s) : ∃ previous,
    acceptTarget d.previous = some previous ∧
      ((s.phase = .pendingBoot ∨ s.phase = .prepared ∨ s.phase = .idle ∨ s.phase = .confirmed) →
        resumeRollback host s [] d = (match s.phase with
          | .idle => do
            atomicPointer .current previous
            clearRollbackMarker
            pure s
          | .confirmed => do
            atomicPointer .current previous
            let state ← stateAdvance s .idle true
            clearRollbackMarker
            pure state
          | _ => rollbackLocked previous s : Prog Device State) [] d) := by
  obtain ⟨previous, hlink, hacc, hvalid⟩ := h.linked.previous
  refine ⟨previous, hacc, fun hphase => ?_⟩
  exact (require hphase).bind_eq.trans ((returns_readPointer .previous hacc).bind_eq.trans
    (returns_validateRelease hvalid).bind_eq)

lemma returns_resumeRollback (h : Inv host d s) (hphase : s.phase ≠ .downloading)
    (hphase' : s.phase ≠ .verified) (hcan : s.phase ≠ .idle → CanRollBack d s) :
    ∃ d' s', Returns (resumeRollback host s) d s' d' ∧ RolledBack d d' s' := by
  obtain ⟨previous, hacc, hstart⟩ := resumeRollback_start h
  have hlink : d.previous = some previous := (filter_eq_some_iff.mp hacc).1
  have hpointer := returns_atomicPointer (d := d) .current (parseTarget_of_accept hacc)
  unfold Returns
  cases hs : s.phase with
  | downloading => exact absurd hs hphase
  | verified => exact absurd hs hphase'
  | idle =>
    rw [hstart (by simp [hs]), hs]
    exact ⟨_, s, hpointer.bind (returns_clearRollbackMarker.bind pure), h.stored, hs,
      hlink.symm, rfl, rfl, rfl⟩
  | confirmed =>
    have hc := hcan (by simp [hs])
    have hmax := ne_max_of_fits hc.fits (by split_ifs <;> omega)
    have hfree := hc.free
    rw [rollbackNext, if_neg (by simp [hs])] at hfree
    obtain ⟨st, hret, -, hst⟩ := returns_stateAdvance
      (d := { d with current := some previous }) h.stored (transition_drop hmax (by simp [hs]))
        hfree
    rw [if_pos (.inr rfl)] at hret
    rw [hstart (by simp [hs]), hs]
    exact ⟨_, _, hpointer.bind (hret.bind (returns_clearRollbackMarker.bind pure)), hst,
      rfl, hlink.symm, rfl, rfl, rfl⟩
  | prepared =>
    rw [hstart (by simp [hs]), hs]
    exact returns_rollbackLocked h.stored hacc (by simp [hs]) (hcan (by simp [hs]))
  | pendingBoot =>
    rw [hstart (by simp [hs]), hs]
    exact returns_rollbackLocked h.stored hacc (by simp [hs]) (hcan (by simp [hs]))

lemma refuses_resumeRollback (h : Inv host d s) (hb : Blocked d s) :
    ∃ d' s', Refuses (resumeRollback host s) d d' ∧ Blocked d' s' := by
  obtain ⟨previous, hacc, hstart⟩ := resumeRollback_start h
  have hpointer := returns_atomicPointer (d := d) .current (parseTarget_of_accept hacc)
  have hstuck := hb.stuck
  unfold Refuses
  cases hs : s.phase with
  | idle => exact absurd hs hb.active
  | downloading => exact ⟨d, s, (Refuses.require (by simp [hs])).bind, hb⟩
  | verified => exact ⟨d, s, (Refuses.require (by simp [hs])).bind, hb⟩
  | confirmed =>
    have hcannot : ¬CanRollBack d s := by simpa [hs] using hstuck
    obtain ⟨st, href, hk⟩ := refuses_stateAdvance .idle true
      (d := { d with current := some previous }) h.stored fun ht hfree => by
        have hsucc := succ_toNat (eq_inPhase_of_transition ht).1
        have := (s.generation + 1).toNat_lt
        refine hcannot ⟨?_, ?_⟩
        · rw [if_neg (by simp [hs])]
          omega
        · rw [rollbackNext, if_neg (by simp [hs])]
          exact hfree
    rw [hstart (by simp [hs]), hs]
    exact ⟨_, s, hpointer.bind_refuses href.bind, hk.readState.trans h.stored.load, hb.marker,
      hb.active, .inr (.inr fun hc => hcannot ⟨hc.fits, hc.free.of_kept hk⟩)⟩
  | prepared =>
    rw [hstart (by simp [hs]), hs]
    exact refuses_rollbackLocked h.stored hacc (by simp [hs]) (by simpa [hs] using hstuck)
  | pendingBoot =>
    rw [hstart (by simp [hs]), hs]
    exact refuses_rollbackLocked h.stored hacc (by simp [hs]) (by simpa [hs] using hstuck)

/-! ### Pending boots -/

lemma returns_recoverPending (h : Inv host d s) (hphase : s.phase = .pendingBoot) :
    Returns (recoverPending host s) d s { d with current := some (candidateTarget s) } := by
  obtain ⟨previous, hprevious, hacc, hvalid⟩ := h.linked.previous
  obtain ⟨current, hcurrent, hacc', -⟩ := h.linked.current
  obtain ⟨hne, hlink⟩ := h.linked.pending hphase
  have hcandidate := h.linked.releases.candidateValid h.stored.writable
    (h.linked.candidate (.inr (.inl hphase)))
  refine (returns_readPointer .previous hacc).bind ((returns_validateRelease hvalid).bind
    ((returns_validateRelease hcandidate).attempt.bind ?_))
  refine (returns_readPointer .current hacc').attempt.bind ?_
  by_cases hc : current = candidateTarget s
  · rw [if_pos (congrArg some hc)]
    rw [← hc, ← hcurrent]
    exact pure
  have hswitched : current = previous := by
    rcases hlink with h | h
    · exact absurd (some.inj (hcurrent.symm.trans h)) hc
    · exact some.inj (hcurrent.symm.trans (h.trans hprevious))
  rw [if_neg fun h => hc (some.inj h), if_pos (congrArg some hswitched)]
  refine (returns_atomicPointer .current ?_).bind pure
  simp [parseTarget_candidateTarget h.stored.writable.release]

/-- The candidate has boots left, or had this very one counted. -/
def bootsLeft (boots : Option Text) (state : State) (bootId : Text) : Bool :=
  match boots with
  | none => true
  | some data =>
    match parsePendingBoots data with
    | none => false
    | some (digest, previousBoot, attempts) =>
      digest != state.digest || previousBoot == bootId || attempts < pendingBootLimit

/-- A record that counts between one and three boots of the candidate. -/
def Counted (boots : Option Text) (state : State) (bootId : Text) : Prop :=
  ∃ attempts, 1 ≤ attempts ∧ attempts ≤ pendingBootLimit ∧
    boots = some (pendingBootsText state.digest bootId attempts)

lemma eq_of_parsePendingBoots {data digest : Text}
    (h : parsePendingBoots data = some (digest, bootId, attempts)) :
    1 ≤ attempts ∧ attempts ≤ pendingBootLimit ∧
      data = pendingBootsText digest bootId attempts := by
  simp only [parsePendingBoots, bind_eq_bind, bind_eq_some_iff, some.injEq,
    Prod.mk.injEq] at h
  obtain ⟨_, -, n, hfind, rfl, rfl, rfl⟩ := h
  have hmem := mem_of_find?_eq_some hfind
  have heq := find?_some hfind
  simp only [mem_cons, not_mem_nil, or_false] at hmem
  simp only [pendingBootLimit]
  exact ⟨by omega, by omega, by simpa using heq⟩

lemma returns_countWrite (bootId : Text) (h : attempts < pendingBootLimit) :
    Returns (if attempts ≥ pendingBootLimit then pure true
      else do
        atomicWrite fun d => { d with
          boots := some (pendingBootsText s.digest bootId (attempts + 1)) }
        pure false : Prog Device Bool) d false
      { d with boots := some (pendingBootsText s.digest bootId (attempts + 1)) } := by
  rw [if_neg (by omega)]
  exact bind (tick.bind (act.bind tick)) pure

lemma returns_countRead (s : State) (bootId : Text) {data digest previousBoot : Text}
    (hb : d.boots = some data)
    (hp : parsePendingBoots data = some (digest, previousBoot, attempts)) :
    Returns (do
      match ← .look Device.boots with
      | none => pure (some 0)
      | some data =>
        let (digest, previousBoot, attempts) ← .get (parsePendingBoots data)
        if digest ≠ s.digest then pure (some 0)
        else if previousBoot = bootId then pure none
        else pure (some attempts) : Prog Device (Option ℕ)) d
      (if digest ≠ s.digest then some 0 else if previousBoot = bootId then none
        else some attempts) d := by
  refine look.bind ?_
  rw [hb]
  refine (get hp).bind ?_
  dsimp only
  split_ifs <;> exact pure

lemma returns_countPendingBoot (hid : validBootId bootId)
    (h : bootsLeft d.boots s bootId) :
    ∃ b, Returns (countPendingBoot s bootId) d false { d with boots := b } ∧
      Counted b s bootId := by
  have hnew : ∀ {attempts}, attempts < pendingBootLimit →
      Counted (some (pendingBootsText s.digest bootId (attempts + 1))) s bootId :=
    fun h => ⟨_, by omega, h, rfl⟩
  have hzero : 0 < pendingBootLimit := by decide
  rcases hb : d.boots with _ | data
  · refine ⟨_, (require hid).bind (bind (a := some 0) (look.bind ?_)
      (returns_countWrite bootId hzero)), hnew hzero⟩
    rw [hb]
    exact pure
  rcases hp : parsePendingBoots data with _ | ⟨digest, previousBoot, attempts⟩
  · simp [bootsLeft, hb, hp] at h
  have hread := returns_countRead s bootId hb hp
  by_cases hdigest : digest = s.digest
  swap
  · rw [if_pos hdigest] at hread
    exact ⟨_, (require hid).bind (hread.bind (returns_countWrite bootId hzero)),
      hnew hzero⟩
  by_cases hboot : previousBoot = bootId
  · -- this very boot was counted before
    rw [if_neg (not_not.mpr hdigest), if_pos hboot] at hread
    obtain ⟨h1, h3, rfl⟩ := eq_of_parsePendingBoots hp
    exact ⟨d.boots, (require hid).bind (hread.bind pure), attempts, h1, h3,
      by rw [hb, hdigest, hboot]⟩
  · have hlt : attempts < pendingBootLimit := by simpa [bootsLeft, hb, hp, hdigest, hboot] using h
    rw [if_neg (not_not.mpr hdigest), if_neg hboot] at hread
    exact ⟨_, (require hid).bind (hread.bind (returns_countWrite bootId hlt)), hnew hlt⟩

lemma returns_countPendingBoot_over (hid : validBootId bootId)
    (h : ¬bootsLeft d.boots s bootId) :
    ∃ counted, Returns (attempt (countPendingBoot s bootId)) d counted d ∧
      counted ≠ some false := by
  rcases hb : d.boots with _ | data
  · simp [bootsLeft, hb] at h
  rcases hp : parsePendingBoots data with _ | ⟨digest, previousBoot, attempts⟩
  · refine ⟨none, Refuses.attempt ((require hid).bind_refuses (Refuses.bind
      (look.bind_refuses ?_))), by simp⟩
    rw [hb]
    exact (Refuses.get hp).bind
  obtain ⟨hdigest, hboot, hlimit⟩ : digest = s.digest ∧ previousBoot ≠ bootId ∧
      pendingBootLimit ≤ attempts := by
    simpa [bootsLeft, hb, hp, and_assoc] using h
  have hread := returns_countRead s bootId hb hp
  rw [if_neg (not_not.mpr hdigest), if_neg hboot] at hread
  refine ⟨some true, attempt ((require hid).bind (hread.bind ?_)), by simp⟩
  simp only [hlimit, if_true]
  exact pure

end C1auncher.Update.BootRecovery
