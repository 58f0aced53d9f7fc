import C1auncher.Update.Preparation

/-!
The moves of the updater's durable objects.

The operations that prepare, activate, recover, confirm and roll back are sequences of moves:
a commit of the state, a change of one link, of the marker or of the record of boots. What a
move may do is said here once, with all an operation has checked before it; whatever every
move preserves holds at each point at which an operation can be cut short.
-/

namespace C1auncher.Update.Moves

open Durable Durable.Prog CString Option
open Update.StateStore Update.StateCommit Update.CommitProgress
open Update.Protocol Update.Transaction Update.Boot
open Update.AntiRollback Update.Preparation

/-! ### Moves -/

/-- What the environment is promised about three moves: where a transaction is opened, where
`previous` is set, and which release is activated. -/
structure Guards where
  download : Device → Prop
  switch : Device → Prop
  pend : State → Prop

def Guards.free : Guards := ⟨fun _ => True, fun _ => True, fun _ => True⟩

/-- A preparation that comes to open a transaction. -/
structure Opens (host : BootstrapRecord) (release : Release) (d : Device) (s : State) : Prop where
  phase : s.phase = .idle ∨ s.phase = .confirmed
  compatible : checkCompatibility host release
  admits : admits s release
  other : ¬(s.phase = .confirmed ∧ stateIdentity s release)
  directory : (d.releases (releaseName release.sequence release.version)).all
    (releaseMatches · release)

def openState (s : State) (release : Release) : State :=
  ⟨s.generation + 1, .downloading, release.sequence, release.securityEpoch, release.version,
    release.digest⟩

inductive Advance (host : BootstrapRecord) (G : Guards) (d : Device) (s : State) : State → Prop
  | download (release : Release) (h : Opens host release d s) (hG : G.download d) :
      Advance host G d s (openState s release)
  | verify (hphase : s.phase = .downloading) : Advance host G d s (inPhase s 1 .verified)
  | prepare (hphase : s.phase = .verified)
      (hdir : (d.releases (releaseName s.sequence s.release)).isSome) :
      Advance host G d s (inPhase s 1 .prepared)
  | pend (hphase : s.phase = .prepared) (hmarker : d.marker = none)
      (hlink : d.previous = d.current) (hG : G.pend s) :
      Advance host G d s (inPhase s 1 .pendingBoot)
  | confirm (hphase : s.phase = .pendingBoot) (hlink : d.current = some (candidateTarget s)) :
      Advance host G d s (inPhase s 1 .confirmed)
  | unpend (hphase : s.phase = .pendingBoot) (hmarker : d.marker = some (markerText s))
      (hlink : d.current = d.previous) : Advance host G d s (inPhase s 1 .prepared)
  | drop (hphase : s.phase = .prepared ∨ s.phase = .confirmed)
      (hmarker : d.marker = some (markerText s)) (hlink : d.current = d.previous) :
      Advance host G d s (inPhase s 1 .idle)
  | abandon (hphase : s.phase = .downloading ∨ s.phase = .verified ∨ s.phase = .prepared) :
      Advance host G d s (inPhase s 1 .idle)

lemma Advance.generation {host : BootstrapRecord} {G : Guards} {d : Device} {s next : State}
    (h : Advance host G d s next) : next.generation = s.generation + 1 := by
  cases h <;> rfl

/-- One change of one durable object. -/
inductive Move (host : BootstrapRecord) (G : Guards) (d : Device) : Device → Prop
  | store {s next : State} {st : Store} (hs : d.state = some s)
      (hmax : s.generation ≠ 0xffffffffffffffff) (h : Advance host G d s next)
      (hpoint : CommitPoint s next d.store st) : Move host G d (d.setStore st)
  | addRelease {s : State} {release : Release} (hs : d.state = some s)
      (hid : stateIdentity s release) (hhost : checkCompatibility host release) :
      Move host G d (d.addRelease release)
  | previous {s : State} {target : Text} (hs : d.state = some s) (hphase : s.phase = .prepared)
      (hmarker : d.marker = none) (hlink : d.current = some target) (hG : G.switch d) :
      Move host G d { d with previous := some target }
  | boot {s : State} (hs : d.state = some s) (hphase : s.phase = .pendingBoot)
      (hmarker : d.marker = none) (hlink : d.current = d.previous) :
      Move host G d { d with current := some (candidateTarget s) }
  | restore {s : State} {target : Text} (hs : d.state = some s)
      (hmarker : d.marker = some (markerText s)) (hlink : d.previous = some target) :
      Move host G d { d with current := some target }
  | mark {s : State} (hs : d.state = some s)
      (hphase : s.phase = .pendingBoot ∨ (s.phase = .confirmed ∧ d.current ≠ d.previous)) :
      Move host G d { d with marker := some (markerText s) }
  | unmark {s : State} (hs : d.state = some s) (hphase : s.phase = .idle)
      (hmarker : d.marker = some (markerText s)) (hlink : d.current = d.previous) :
      Move host G d { d with marker := none }
  | boots (b : Option Text) : Move host G d { d with boots := b }

def Leads (host : BootstrapRecord) (G : Guards) : Device → Device → Prop :=
  Relation.ReflTransGen (Move host G)

/-! ### What the parts of an operation do -/

section Parts

variable {d : Device} {P : Device → Prop}

lemma wp_readPointer {which : Pointer} {Q : Text → Device → Prop} (hP : P d)
    (hQ : ∀ target, which.get d = some target → Q target d) : wp (readPointer which) Q P P d := by
  refine wp_bind (wp_look (wp_get (fun target h => hQ target ?_) fun _ => hP) hP hP)
  exact (filter_eq_some_iff.mp h).1

variable {Q : Unit → Device → Prop}

lemma wp_validateRelease {host : BootstrapRecord} {target : Text} {identity : Option State} (hP : P d)
    (hQ : releaseValid host d.releases target identity → Q () d) :
    wp (validateRelease host target identity) Q P P d :=
  wp_bind (wp_look (wp_require hQ fun _ => hP) hP hP)

lemma wp_atomicPointer {which : Pointer} {target : Text} (hP : P d)
    (hP' : P (which.set target d)) (hQ : Q () (which.set target d)) :
    wp (atomicPointer which target) Q P P d :=
  wp_bind (wp_require (fun _ => wp_bind (wp_tick (wp_bind (wp_tick (wp_bind
    (wp_act (wp_tick hQ hP' hP') hP hP)) hP hP)) hP hP)) fun _ => hP)

lemma wp_atomicWrite {f : Device → Device} (hP : P d) (hP' : P (f d))
    (hQ : Q () (f d)) : wp (atomicWrite f) Q P P d :=
  wp_bind (wp_tick (wp_bind (wp_act (wp_tick hQ hP' hP') hP hP)) hP hP)

lemma wp_rollbackMarkerStatus {s : State} {Q : Bool → Device → Prop} (hP : P d)
    (hno : d.marker = none → Q false d) (hyes : d.marker = some (markerText s) → Q true d) :
    wp (rollbackMarkerStatus s) Q P P d := by
  refine wp_bind (wp_look ?_ hP hP)
  rcases h : d.marker with _ | data
  · exact wp_pure (hno h)
  · exact wp_bind (wp_require (fun hd => wp_pure (hyes (hd.2 ▸ h))) fun _ => hP)

lemma wp_clearRollbackMarker (hP : P d)
    (hP' : P { d with marker := none }) (hQ : Q () { d with marker := none }) :
    wp clearRollbackMarker Q P P d :=
  wp_bind (wp_act (wp_tick hQ hP' hP') hP hP)

lemma wp_clearPendingBoots (hP : ∀ b, P { d with boots := b })
    (hQ : ∀ b, Q () { d with boots := b }) : wp clearPendingBoots Q P P d := by
  refine wp_bind (wp_look ?_ (hP d.boots) (hP d.boots))
  rcases d.boots with _ | data
  · exact wp_pure (hQ d.boots)
  · exact wp_bind (wp_act (wp_tick (hQ none) (hP none) (hP none)) (hP d.boots) (hP d.boots))

lemma wp_countPendingBoot (s : State) (bootId : Text) (d : Device) :
    wp (countPendingBoot s bootId) (fun _ d' => ∃ b, d' = { d with boots := b })
      (fun d' => ∃ b, d' = { d with boots := b })
      (fun d' => ∃ b, d' = { d with boots := b }) d := by
  have hd : ∃ b, d = { d with boots := b } := ⟨d.boots, rfl⟩
  refine wp_bind (wp_require (fun _ => wp_bind (wp_mono (Q := fun _ d' => d' = d) ?_ ?_
    (fun _ h => h) fun _ h => h)) fun _ => hd)
  · refine wp_bind (wp_look ?_ hd hd)
    rcases d.boots with _ | data
    · exact wp_pure rfl
    refine wp_bind (wp_get (fun record _ => ?_) fun _ => hd)
    dsimp only
    split_ifs <;> exact wp_pure rfl
  · intro attempts d' h
    obtain rfl : d = d' := h.symm
    rcases attempts with _ | attempts
    · exact wp_pure hd
    dsimp only
    split_ifs
    · exact wp_pure hd
    · exact wp_bind (wp_atomicWrite (P := fun d' => ∃ b, d' = { d with boots := b }) hd
        ⟨_, rfl⟩ (wp_pure ⟨_, rfl⟩))

variable {s next : State}

lemma readState_of_point {d0 st : Store} (hs : readState d0 = some s)
    (h : CommitPoint s next d0 st) : readState st = some s ∨ readState st = some next := by
  cases h with
  | kept hk => exact .inl (hk.readState.trans hs)
  | written _ hl hw => exact .inl (hw.readState hl)
  | selected hacc _ hsel => exact .inr (hsel.readState (generation_ne_zero_of_accepts hacc))

lemma wp_stateCommit (hs : d.state = some s)
    (hP : ∀ st, CommitPoint s next d.store st → P (d.setStore st))
    (hQ : ∀ st, commitAccepts s next → Selected next d.store st → readState st = some next →
      Q () (d.setStore st)) : wp (stateCommit s next) Q P P d := by
  refine wp_zoom (wp_mono (wp_updateStateCommit s next d.store) ?_ hP hP)
  rintro - st ⟨hacc, ⟨hnext, -⟩ | ⟨-, hsel⟩⟩
  · have heq : s = next := some.inj (hs.symm.trans hnext)
    exact absurd (heq ▸ generation_lt_of_accepts hacc) (UInt64.lt_irrefl _)
  · exact hQ st hacc hsel (hsel.readState (generation_ne_zero_of_accepts hacc))

lemma eq_inPhase_of_transition {phase : Phase} {failed : Bool}
    (h : updateTransition (some s) phase s.sequence s.securityEpoch s.release s.digest failed
      = some next) : s.generation ≠ 0xffffffffffffffff ∧ next = inPhase s 1 phase := by
  obtain ⟨hmax, ⟨-, -, rfl, rfl⟩ | ⟨-, -, -, rfl⟩⟩ := transition_cases h
  · exact ⟨hmax, rfl⟩
  · exact ⟨hmax, rfl⟩

lemma wp_stateAdvance {phase : Phase} {failed : Bool} {Q : State → Device → Prop}
    (hs : d.state = some s) (hd : P d)
    (h : s.generation ≠ 0xffffffffffffffff → ∀ st b,
      CommitPoint s (inPhase s 1 phase) d.store st → P { d.setStore st with boots := b } ∧
        (readState st = some (inPhase s 1 phase) →
          Q (inPhase s 1 phase) { d.setStore st with boots := b })) :
    wp (stateAdvance s phase failed) Q P P d := by
  refine wp_bind (wp_get (fun next hnext => ?_) fun _ => hd)
  obtain ⟨hmax, rfl⟩ := eq_inPhase_of_transition hnext
  refine wp_bind (wp_stateCommit hs (fun st hp => (h hmax st d.boots hp).1)
    fun st hacc hsel hst => ?_)
  have hpoint : CommitPoint s (inPhase s 1 phase) d.store st := .selected hacc hs hsel
  refine wp_bind (wp_when (fun _ => ?_) fun _ => wp_pure ((h hmax st d.boots hpoint).2 hst))
  exact wp_clearPendingBoots (fun b => (h hmax st b hpoint).1)
    fun b => wp_pure ((h hmax st b hpoint).2 hst)

end Parts

/-! ### Rolling back -/

section Operations

variable {host : BootstrapRecord} {G : Guards} {d0 d : Device} {s : State}

lemma Leads.store {next : State} {st : Store} (hM : Leads host G d0 d) (hs : d.state = some s)
    (hmax : s.generation ≠ 0xffffffffffffffff) (h : Advance host G d s next)
    (hpoint : CommitPoint s next d.store st) (b : Option Text) :
    Leads host G d0 { d.setStore st with boots := b } :=
  (hM.tail (.store hs hmax h hpoint)).tail (.boots b)

/-- The end of `rollback_locked`: the state leaves the candidate, and the marker goes. -/
def leaveCandidate (state : State) : Prog Device State := do
  let state ← (if state.phase = .prepared ∨ state.phase = .confirmed then
      stateAdvance state .idle true
    else pure state)
  .require (state.phase = .idle)
  clearRollbackMarker
  pure state

lemma rollbackLocked_eq (previous : Text) (state : State) : rollbackLocked previous state = (do
    markRollback state
    atomicPointer .current previous
    let state ← (if state.phase = .pendingBoot then stateAdvance state .prepared false
      else pure state)
    leaveCandidate state) := rfl

lemma wp_leaveCandidate (hM : Leads host G d0 d) (hs : d.state = some s)
    (hmarker : d.marker = some (markerText s)) (hlink : d.current = d.previous) :
    wp (leaveCandidate s) (fun s' d' => Leads host G d0 d' ∧ d'.state = some s')
      (Leads host G d0) (Leads host G d0) d := by
  have hclear : ∀ s' d', Leads host G d0 d' → d'.state = some s' →
      d'.marker = some (markerText s') → d'.current = d'.previous → wp (do
        .require (s'.phase = .idle)
        clearRollbackMarker
        pure s' : Prog Device State)
        (fun s' d' => Leads host G d0 d' ∧ d'.state = some s') (Leads host G d0)
        (Leads host G d0) d' := by
    intro s' d' hM' hs' hmarker' hlink'
    refine wp_bind (wp_require (fun hidle => ?_) fun _ => hM')
    have hunmark := hM'.tail (.unmark hs' hidle hmarker' hlink')
    exact wp_bind (wp_clearRollbackMarker hM' hunmark (wp_pure ⟨hunmark, hs'⟩))
  unfold leaveCandidate
  by_cases hphase : s.phase = .prepared ∨ s.phase = .confirmed
  · rw [if_pos hphase]
    refine wp_bind (wp_stateAdvance hs hM fun hmax st b hpoint => ?_)
    have hM' := hM.store hs hmax (.drop hphase hmarker hlink) hpoint b
    exact ⟨hM', fun hst => hclear _ _ hM' hst hmarker hlink⟩
  · rw [if_neg hphase]
    exact wp_bind (wp_pure (hclear s d hM hs hmarker hlink))

lemma wp_rollbackLocked {previous : Text} (hM : Leads host G d0 d) (hs : d.state = some s)
    (hprevious : d.previous = some previous)
    (hphase : s.phase = .pendingBoot ∨ d.marker = some (markerText s) ∨
      (s.phase = .confirmed ∧ d.current ≠ d.previous)) :
    wp (rollbackLocked previous s) (fun s' d' => Leads host G d0 d' ∧ d'.state = some s')
      (Leads host G d0) (Leads host G d0) d := by
  have hmark : Leads host G d0 { d with marker := some (markerText s) } := by
    rcases hphase with h | h | h
    · exact hM.tail (.mark hs (.inl h))
    · rwa [← h]
    · exact hM.tail (.mark hs (.inr h))
  have hrestore : Leads host G d0
      { d with marker := some (markerText s), current := some previous } :=
    hmark.tail (.restore (s := s) hs rfl hprevious)
  refine wp_bind (wp_bind (wp_require (fun _ => wp_atomicWrite hM hmark ?_) fun _ => hM))
  refine wp_bind (wp_atomicPointer hmark hrestore ?_)
  by_cases hpending : s.phase = .pendingBoot
  · rw [if_pos hpending]
    refine wp_bind (wp_stateAdvance (s := s) hs hrestore fun hmax st b hpoint => ?_)
    have hM' := hrestore.store (s := s) hs hmax (.unpend hpending rfl hprevious.symm) hpoint b
    exact ⟨hM', fun hst => wp_leaveCandidate hM' hst rfl hprevious.symm⟩
  · rw [if_neg hpending]
    exact wp_bind (wp_pure (wp_leaveCandidate hrestore hs rfl hprevious.symm))

/-! ### Recovery -/

lemma wp_resumeRollback (hM : Leads host G d0 d) (hs : d.state = some s)
    (hmarker : d.marker = some (markerText s)) :
    wp (resumeRollback host s) (fun s' d' => Leads host G d0 d' ∧ d'.state = some s')
      (Leads host G d0) (Leads host G d0) d := by
  refine wp_bind (wp_require (fun _ => ?_) fun _ => hM)
  refine wp_bind (wp_readPointer hM fun previous hprevious => ?_)
  refine wp_bind (wp_validateRelease hM fun _ => ?_)
  have hrestore : Leads host G d0 { d with current := some previous } :=
    hM.tail (.restore hs hmarker hprevious)
  split
  · next hidle =>
    refine wp_bind (wp_atomicPointer hM hrestore ?_)
    have hunmark := hrestore.tail (.unmark (s := s) hs hidle hmarker hprevious.symm)
    exact wp_bind (wp_clearRollbackMarker hrestore hunmark (wp_pure ⟨hunmark, hs⟩))
  · next hconfirmed =>
    refine wp_bind (wp_atomicPointer hM hrestore ?_)
    refine wp_bind (wp_stateAdvance (s := s) hs hrestore fun hmax st b hpoint => ?_)
    have hM' := hrestore.store (s := s) hs hmax
      (.drop (.inr hconfirmed) hmarker hprevious.symm) hpoint b
    refine ⟨hM', fun hst => ?_⟩
    have hunmark := hM'.tail (.unmark hst rfl hmarker hprevious.symm)
    exact wp_bind (wp_clearRollbackMarker hM' hunmark (wp_pure ⟨hunmark, hst⟩))
  · exact wp_rollbackLocked hM hs hprevious (.inr (.inl hmarker))

lemma wp_recoverPending (hM : Leads host G d0 d) (hs : d.state = some s)
    (hphase : s.phase = .pendingBoot) (hmarker : d.marker = none) :
    wp (recoverPending host s) (fun s' d' => Leads host G d0 d' ∧ d'.state = some s')
      (Leads host G d0) (Leads host G d0) d := by
  refine wp_bind (wp_readPointer hM fun previous hprevious => ?_)
  refine wp_bind (wp_validateRelease hM fun _ => ?_)
  have hrollback := wp_rollbackLocked hM hs hprevious (.inl hphase)
  have hrest : ∀ current, (∀ c, current = some c → d.current = some c) → wp (if
      current = some (candidateTarget s) then pure s
      else if current = some previous then do
        atomicPointer .current (candidateTarget s)
        pure s
      else rollbackLocked previous s : Prog Device State)
      (fun s' d' => Leads host G d0 d' ∧ d'.state = some s') (Leads host G d0) (Leads host G d0)
      d := by
    intro current hcurrent
    split_ifs with hcandidate hswitched
    · exact wp_pure ⟨hM, hs⟩
    · have hboot := hM.tail (.boot hs hphase hmarker
        ((hcurrent _ hswitched).trans hprevious.symm))
      exact wp_bind (wp_atomicPointer hM hboot (wp_pure ⟨hboot, hs⟩))
    · exact hrollback
  have hcurrent : ∀ valid : Option Unit, wp ((if valid.isSome then attempt (readPointer .current)
      else pure none) : Prog Device (Option Text))
      (fun current d' => d' = d ∧ ∀ c, current = some c → d.current = some c)
      (Leads host G d0) (Leads host G d0) d := by
    intro valid
    split_ifs
    · exact wp_attempt (wp_mono (wp_readPointer (P := (· = d)) rfl
        fun target h => (⟨rfl, fun c hc => hc ▸ h⟩ : d = d ∧ ∀ c, some target = some c → _))
        (fun _ _ h => h) (fun _ h => ⟨h, by simp⟩) fun _ h => h ▸ hM)
    · exact wp_pure ⟨rfl, by simp⟩
  have hvalid : wp (attempt (validateRelease host (candidateTarget s) (some s)))
      (fun _ d' => d' = d) (Leads host G d0) (Leads host G d0) d :=
    wp_attempt (wp_mono (wp_validateRelease (P := (· = d)) (Q := fun _ d' => d' = d) rfl
      fun _ => rfl) (fun _ _ h => h) (fun _ h => h) fun _ h => h ▸ hM)
  refine wp_bind (wp_mono hvalid (fun valid d' h => ?_) (fun _ h => h) fun _ h => h)
  subst h
  refine wp_bind (wp_mono (hcurrent valid) (fun current d' h => ?_) (fun _ h => h) fun _ h => h)
  obtain ⟨rfl, h⟩ := h
  exact hrest current h

lemma wp_recoverLocked (hM : Leads host G d0 d) (hs : d.state = some s) :
    wp (recoverLocked host s) (fun s' d' => Leads host G d0 d' ∧ d'.state = some s')
      (Leads host G d0) (Leads host G d0) d := by
  refine wp_bind (wp_rollbackMarkerStatus hM (fun hmarker => ?_) fun hmarker => ?_)
  · rw [if_neg Bool.false_ne_true]
    split_ifs with hphase
    · exact wp_pure ⟨hM, hs⟩
    · exact wp_recoverPending hM hs (not_not.mp hphase) hmarker
  · rw [if_pos rfl]
    exact wp_resumeRollback hM hs hmarker

lemma wp_recoverBoot (bootId : Text) (hM : Leads host G d0 d) :
    wp (recoverBoot host bootId) (fun _ => Leads host G d0) (Leads host G d0) (Leads host G d0)
      d := by
  refine wp_bind (wp_require (fun _ => wp_bind (wp_tick (wp_bind ?_) hM hM)) fun _ => hM)
  refine wp_zoom (wp_updateStateLoad (fun s hs => ?_) hM hM)
  refine wp_bind (wp_mono (wp_recoverLocked (d := d) hM hs) ?_ (fun _ h => h) fun _ h => h)
  rintro s' d' ⟨hM', hs'⟩
  have hboots : ∀ b, Leads host G d0 { d' with boots := b } := fun b => hM'.tail (.boots b)
  split_ifs with hphase
  · have hback : ∀ b, wp (do
        let previous ← readPointer .previous
        validateRelease host previous none
        let _ ← rollbackLocked previous s' : Prog Device Unit) (fun _ => Leads host G d0)
        (Leads host G d0) (Leads host G d0) { d' with boots := b } := by
      intro b
      refine wp_bind (wp_readPointer (hboots b) fun previous hprevious => ?_)
      refine wp_bind (wp_validateRelease (hboots b) fun _ => ?_)
      exact wp_bind (wp_mono (wp_rollbackLocked (hboots b) hs' hprevious (.inl hphase))
        (fun _ _ h => wp_pure h.1) (fun _ h => h) fun _ h => h)
    refine wp_bind (wp_attempt (wp_mono (wp_countPendingBoot s' bootId _) ?_ ?_ ?_))
    · rintro counted _ ⟨b, rfl⟩
      split_ifs
      · exact wp_pure (hboots b)
      · exact hback b
    · rintro _ ⟨b, rfl⟩
      rw [if_neg (by simp)]
      exact hback b
    · rintro _ ⟨b, rfl⟩
      exact hboots b
  · exact wp_clearPendingBoots hboots hboots

/-! ### Activation, confirmation, rollback -/

lemma wp_activate (hM : Leads host G d0 d)
    (hG : ∀ s, d.state = some s → s.phase = .prepared → d.marker = none → G.switch d ∧ G.pend s) :
    wp (activate host) (fun _ => Leads host G d0) (Leads host G d0) (Leads host G d0) d := by
  refine wp_bind (wp_tick (wp_bind ?_) hM hM)
  refine wp_zoom (wp_updateStateLoad (fun s hs => ?_) hM hM)
  have hrecover : wp (do
      let _ ← recoverLocked host s : Prog Device Unit) (fun _ => Leads host G d0)
      (Leads host G d0) (Leads host G d0) d :=
    wp_bind (wp_mono (wp_recoverLocked (d := d) hM hs) (fun _ _ h => wp_pure h.1) (fun _ h => h)
      fun _ h => h)
  refine wp_bind (wp_rollbackMarkerStatus (d := d) hM (fun hmarker => ?_) fun _ => ?_)
  swap
  · rw [if_pos (.inl rfl)]
    exact hrecover
  by_cases hpending : s.phase = .pendingBoot
  · rw [if_pos (.inr hpending)]
    exact hrecover
  rw [if_neg (by simp [hpending])]
  refine wp_bind (wp_require (fun hphase => ?_) fun _ => hM)
  refine wp_bind (wp_validateRelease hM fun _ => ?_)
  refine wp_bind (wp_readPointer hM fun current hcurrent => ?_)
  refine wp_bind (wp_validateRelease hM fun _ => ?_)
  obtain ⟨hswitch, hpend⟩ := hG s hs hphase hmarker
  have hprevious : Leads host G d0 { d with previous := some current } :=
    hM.tail (.previous hs hphase hmarker hcurrent hswitch)
  refine wp_bind (wp_atomicPointer hM hprevious ?_)
  refine wp_bind (wp_stateAdvance (s := s) hs hprevious fun hmax st b hpoint => ?_)
  have hM' := hprevious.store (s := s) hs hmax (.pend hphase hmarker hcurrent.symm hpend) hpoint b
  refine ⟨hM', fun hst => ?_⟩
  have hboot := hM'.tail (.boot hst rfl hmarker hcurrent)
  exact wp_atomicPointer hM' hboot hboot

lemma wp_confirm (hM : Leads host G d0 d) :
    wp (confirm host) (fun _ => Leads host G d0) (Leads host G d0) (Leads host G d0) d := by
  refine wp_bind (wp_tick (wp_bind ?_) hM hM)
  refine wp_zoom (wp_updateStateLoad (fun s hs => ?_) hM hM)
  refine wp_bind (wp_require (fun hphase => ?_) fun _ => hM)
  refine wp_bind (wp_readPointer (d := d) hM fun current hcurrent => ?_)
  refine wp_bind (wp_require (fun hcandidate => ?_) fun _ => hM)
  refine wp_bind (wp_validateRelease hM fun _ => ?_)
  refine wp_bind (wp_stateAdvance (s := s) hs hM fun hmax st b hpoint => ?_)
  have hM' := hM.store (s := s) hs hmax (.confirm hphase (hcandidate ▸ hcurrent)) hpoint b
  exact ⟨hM', fun _ => wp_pure hM'⟩

lemma wp_rollback (hM : Leads host G d0 d) :
    wp (rollback host) (fun _ => Leads host G d0) (Leads host G d0) (Leads host G d0) d := by
  refine wp_bind (wp_tick (wp_bind ?_) hM hM)
  refine wp_zoom (wp_updateStateLoad (fun s hs => ?_) hM hM)
  refine wp_bind (wp_require (fun hphase => ?_) fun _ => hM)
  refine wp_bind (wp_readPointer (d := d) hM fun previous hprevious => ?_)
  have hback : s.phase = .pendingBoot ∨ (s.phase = .confirmed ∧ d.current ≠ d.previous) →
      wp (do
        validateRelease host previous none
        let _ ← rollbackLocked previous s : Prog Device Unit) (fun _ => Leads host G d0)
        (Leads host G d0) (Leads host G d0) d := by
    intro h
    refine wp_bind (wp_validateRelease hM fun _ => ?_)
    exact wp_bind (wp_mono (wp_rollbackLocked hM hs hprevious (h.imp_right .inr))
      (fun _ _ h => wp_pure h.1) (fun _ h => h) fun _ h => h)
  refine wp_bind (wp_when (fun hconfirmed => ?_) fun hconfirmed =>
    hback (.inl (hphase.resolve_right hconfirmed)))
  refine wp_bind (wp_readPointer hM fun current hcurrent => ?_)
  refine wp_require (fun hne => hback (.inr ⟨hconfirmed, ?_⟩)) fun _ => hM
  intro hlink
  exact hne (some.inj (hcurrent.symm.trans (hlink.trans hprevious)))

/-! ### Preparation -/

section Prepare

variable {release : Release} {M : Device → Prop}

structure Closed (host : BootstrapRecord) (G : Guards) (M : Device → Prop) : Prop where
  store : ∀ {d s next st}, M d → d.state = some s → s.generation ≠ 0xffffffffffffffff →
    Advance host G d s next → CommitPoint s next d.store st → M (d.setStore st)
  add : ∀ {d s release}, M d → d.state = some s → stateIdentity s release →
    checkCompatibility host release → M (d.addRelease release)

lemma closed_leads (host : BootstrapRecord) (G : Guards) (d0 : Device) :
    Closed host G (Leads host G d0) :=
  ⟨fun h hs hmax ha hp => h.tail (.store hs hmax ha hp), fun h hs hid hhost =>
    h.tail (.addRelease hs hid hhost)⟩

def InTransaction (release : Release) (d : Device) : Prop :=
  ∃ s, d.state = some s ∧ stateIdentity s release ∧
    (s.phase = .downloading ∨ s.phase = .verified ∨ s.phase = .prepared)

lemma wp_failState (hc : Closed host G M) (hM : M d) (ht : InTransaction release d) :
    wp (failState release) (fun _ => M) M M d := by
  obtain ⟨s, hs, -, hphase⟩ := ht
  have hfail : wp (do
      let state ← stateLoad
      .require (state.generation ≠ 0 ∧ state.phase ≠ .idle ∧ stateIdentity state release)
      let next ← .get (updateTransition (some state) .idle release.sequence release.securityEpoch
        release.version release.digest true)
      stateCommit state next : Prog Device Unit) (fun _ => M) M
      M d := by
    refine wp_bind (wp_stateLoad hs ?_ hM hM)
    refine wp_bind (wp_require (fun _ => ?_) fun _ => hM)
    refine wp_bind (wp_get (fun next hnext => ?_) fun _ => hM)
    obtain ⟨hmax, ⟨-, -, -, rfl⟩ | ⟨hf, -⟩⟩ := transition_cases hnext
    · have hpoint : ∀ st, CommitPoint s (inPhase s 1 .idle) d.store st →
          M (d.setStore st) := fun st hp =>
        hc.store hM hs hmax (.abandon hphase) hp
      exact wp_stateCommit hs hpoint fun st hacc hsel _ => hpoint st (.selected hacc hs hsel)
    · simp at hf
  refine wp_bind (wp_attempt (wp_mono hfail (fun _ _ h => wp_pure h) (fun _ h => wp_pure h)
    fun _ h => h))

lemma wp_advanceTransaction {phase : Phase} (hc : Closed host G M) (hM : M d)
    (hs : d.state = some s)
    (hid : stateIdentity s release) (hadvance : Advance host G d s (inPhase s 1 phase))
    (hphase : s.phase = .downloading ∨ s.phase = .verified)
    (hphase' : phase = .verified ∨ phase = .prepared) :
    wp (advanceState s phase release)
      (fun next d' => M d' ∧ InTransaction release d' ∧ next = inPhase s 1 phase ∧
        d'.state = some next ∧ d'.releases = d.releases)
      (fun d' => M d' ∧ InTransaction release d')
      (fun d' => M d' ∧ InTransaction release d') d := by
  have hs' : InTransaction release d := ⟨s, hs, hid, hphase.imp_right .inl⟩
  refine wp_bind (wp_get (fun next hnext => ?_) fun _ => ⟨hM, hs'⟩)
  obtain ⟨h1, h2, h3, h4⟩ := stateIdentity_iff.mp hid
  rw [← h1, ← h2, ← h3, ← h4] at hnext
  obtain ⟨hmax, rfl⟩ := eq_inPhase_of_transition hnext
  have hpoint : ∀ st, CommitPoint s (inPhase s 1 phase) d.store st →
      M (d.setStore st) ∧ InTransaction release (d.setStore st) := by
    intro st hp
    refine ⟨hc.store hM hs hmax hadvance hp, ?_⟩
    rcases readState_of_point hs hp with h | h
    · exact ⟨s, h, hid, hphase.imp_right .inl⟩
    · exact ⟨_, h, hid, .inr hphase'⟩
  refine wp_bind (wp_stateCommit hs hpoint fun st hacc hsel hst => wp_pure ?_)
  obtain ⟨hM', ht⟩ := hpoint st (.selected hacc hs hsel)
  exact ⟨hM', ht, rfl, hst, rfl⟩

lemma wp_publish {exists_ : Bool} (hc : Closed host G M) (hM : M d) (hs : d.state = some s)
    (hid : stateIdentity s release) (hhost : checkCompatibility host release)
    (hphase : s.phase = .verified)
    (hdir : exists_ → (d.releases (releaseName release.sequence release.version)).isSome) :
    wp (do
      commitDirectory release exists_
      let _ ← advanceState s .prepared release : Prog Device Unit)
      (fun _ => M) (fun d' => M d' ∧ InTransaction release d')
      M d := by
  obtain ⟨h1, -, h3, -⟩ := stateIdentity_iff.mp hid
  have ht : InTransaction release d := ⟨s, hs, hid, .inr (.inl hphase)⟩
  have hadd : M (d.addRelease release) := hc.add hM hs hid hhost
  have hprepared : ∀ d', M d' → d'.state = some s →
      (d'.releases (releaseName release.sequence release.version)).isSome → wp (do
        let _ ← advanceState s .prepared release : Prog Device Unit)
        (fun _ => M) (fun d' => M d' ∧ InTransaction release d')
        M d' := by
    intro d' hM' hs' hdir'
    rw [← h1, ← h3] at hdir'
    exact wp_bind (wp_mono (wp_advanceTransaction hc hM' hs' hid (.prepare hphase hdir')
      (.inr hphase) (.inr rfl)) (fun _ _ h => wp_pure h.1) (fun _ h => h) fun _ h => h.1)
  refine wp_bind (wp_when (fun hnew => ?_) fun hold => ?_)
  · refine wp_bind (wp_tick (wp_bind (wp_tick (wp_bind (wp_act ?_ ⟨hM, ht⟩ hM)) ⟨hM, ht⟩ hM))
      ⟨hM, ht⟩ hM)
    refine wp_tick (hprepared _ hadd hs ?_) ⟨hadd, s, hs, hid, .inr (.inl hphase)⟩ hadd
    simp [Device.addRelease]
  · exact hprepared d hM hs (hdir (not_not.mp hold))

lemma wp_acquireRelease {exists_ : Bool} (hc : Closed host G M) (hM : M d) (hs : d.state = some s)
    (hid : stateIdentity s release) (hhost : checkCompatibility host release)
    (hphase : s.phase = .downloading ∨ s.phase = .verified)
    (hdir : exists_ → (d.releases (releaseName release.sequence release.version)).isSome) :
    wp (acquireRelease s release exists_) (fun _ => M)
      (fun d' => M d' ∧ InTransaction release d') M d := by
  have ht : InTransaction release d := ⟨s, hs, hid, hphase.imp_right .inl⟩
  have hverified : wp ((if s.phase = .downloading then advanceState s .verified release
      else pure s : Prog Device State) >>= fun s' => do
        commitDirectory release exists_
        let _ ← advanceState s' .prepared release)
      (fun _ => M) (fun d' => M d' ∧ InTransaction release d')
      M d := by
    split_ifs with hdownloading
    · refine wp_bind (wp_mono (wp_advanceTransaction hc hM hs hid (.verify hdownloading) hphase
        (.inl rfl)) ?_ (fun _ h => h) fun _ h => h.1)
      rintro next d' ⟨hM', -, rfl, hs', hreleases⟩
      exact wp_publish hc hM' hs' hid hhost rfl (hreleases ▸ hdir)
    · exact wp_bind (wp_pure
        (wp_publish hc hM hs hid hhost (hphase.resolve_left hdownloading) hdir))
  refine wp_bind (wp_when (fun _ => ?_) fun _ => hverified)
  exact wp_bind (wp_tick (wp_tick hverified ⟨hM, ht⟩ hM) ⟨hM, ht⟩ hM)

lemma wp_prepare_of_opens (release : Release) (hc : Closed host G M) (hM : M d)
    (hopened : ∀ s st, d.state = some s → s.generation ≠ 0xffffffffffffffff →
      Opens host release d s → CommitPoint s (openState s release) d.store st →
      M (d.setStore st)) :
    wp (prepare host release) (fun _ => M) M M d := by
  have hacquire : ∀ s (exists_ : Bool) d', M d' → d'.state = some s →
      stateIdentity s release → checkCompatibility host release →
      (s.phase = .downloading ∨ s.phase = .verified) →
      (exists_ → (d'.releases (releaseName release.sequence release.version)).isSome) →
      wp (orElse (acquireRelease s release exists_) (failState release))
        (fun _ => M) M M d' := by
    intro s exists_ d' hM' hs' hid hhost hphase hdir
    refine wp_orElse (wp_mono (wp_acquireRelease hc hM' hs' hid hhost hphase hdir) (fun _ _ h => h)
      (fun d'' h => ?_) fun _ h => h)
    exact wp_failState hc h.1 h.2
  have hprocess : wp (processRelease host release) (fun _ => M)
      M M d := by
    refine wp_bind (wp_require (fun hhost => ?_) fun _ => hM)
    refine wp_bind (wp_zoom (wp_updateStateLoad (fun s hs => ?_) hM hM))
    refine wp_bind (wp_require (fun hadmits => ?_) fun _ => hM)
    split_ifs with hdone
    · exact wp_bind (wp_look (wp_require (fun _ => hM) fun _ => hM) hM hM)
    refine wp_bind (wp_require (fun hactive => ?_) fun _ => hM)
    refine wp_bind (wp_tick (wp_bind (wp_look ?_ hM hM)) hM hM)
    refine wp_bind (wp_require (fun hdir => ?_) fun _ => hM)
    -- a transaction opened, for a release that was not active before
    have hopen : s.phase = .idle ∨ s.phase = .confirmed →
        wp (do
          let state ← advanceState s .downloading release
          orElse (acquireRelease state release
            (d.releases (releaseName release.sequence release.version)).isSome)
            (failState release) : Prog Device Unit)
          (fun _ => M) M M d := by
      intro hphase
      have hopens : Opens host release d s := ⟨hphase, hhost, hadmits, hdone, hdir⟩
      refine wp_bind (wp_bind (wp_get (fun next hnext => ?_) fun _ => hM))
      obtain ⟨hmax, ⟨hf, -⟩ | ⟨-, -, -, rfl⟩⟩ := transition_cases hnext
      · simp at hf
      have hpoint : ∀ st, CommitPoint s (openState s release) d.store st →
          M (d.setStore st) := fun st hp => hopened s st hs hmax hopens hp
      refine wp_bind (wp_stateCommit hs hpoint fun st hacc hsel hst => wp_pure ?_)
      refine hacquire _ _ _ (hpoint st (.selected hacc hs hsel)) hst ?_ hhost (.inl rfl) id
      simp [stateIdentity]
    split
    · exact wp_require (fun _ => hM) fun _ => hM
    · next h => exact hopen (.inl h)
    · next h => exact hopen (.inr h)
    · next h =>
      have hid : stateIdentity s release := by simpa [h] using hactive
      exact hacquire s _ d hM hs hid hhost (.inl h) id
    · next h =>
      have hid : stateIdentity s release := by simpa [h] using hactive
      exact hacquire s _ d hM hs hid hhost (.inr h) id
    · exact wp_fail hM
  refine wp_bind (wp_tick (wp_bind (wp_tick (wp_bind ?_) hM hM)) hM hM)
  refine wp_mono hprocess (fun _ d' hM' => ?_) (fun _ h => h) fun _ h => h
  exact wp_bind (wp_attempt (wp_tick (wp_pure hM') (wp_pure hM') hM'))

lemma wp_prepare (release : Release) (hc : Closed host G M) (hM : M d)
    (hG : ∀ s, d.state = some s → Opens host release d s → G.download d) :
    wp (prepare host release) (fun _ => M) M M d :=
  wp_prepare_of_opens release hc hM fun s _ hs hmax hopens hp =>
    hc.store hM hs hmax (.download release hopens (hG s hs hopens)) hp

end Prepare

/-! ### Every operation -/

/-- The operations of a device that was activated once. -/
def bootOp : Op → Bool
  | .bootstrapActivate | .recoveryExec _ => false
  | _ => true

def Allows (host : BootstrapRecord) (G : Guards) (d : Device) : Op → Prop
  | .prepare release => ∀ s, d.state = some s → Opens host release d s → G.download d
  | .activate => ∀ s, d.state = some s → s.phase = .prepared → d.marker = none →
      G.switch d ∧ G.pend s
  | _ => True

lemma allows_free (d : Device) (op : Op) : Allows host .free d op := by
  cases op <;> simp [Allows, Guards.free]

/-- **Every operation is a sequence of moves**, however it is cut short. -/
theorem leads_of_step {step : Step} (hop : bootOp step.op) (hG : Allows host G d step.op) :
    Leads host G d (exec host step d) := by
  refine wp_after ?_ step.replies
  have hd : Leads host G d d := .refl
  cases h : step.op with
  | prepare release =>
    exact wp_prepare release (closed_leads host G d) hd (by rw [h] at hG; exact hG)
  | activate => exact wp_activate hd (by rw [h] at hG; exact hG)
  | recover bootId => exact wp_recoverBoot bootId hd
  | confirm => exact wp_confirm hd
  | rollback => exact wp_rollback hd
  | bootstrapActivate => simp [h, bootOp] at hop
  | recoveryExec which => simp [h, bootOp] at hop

end Operations

end C1auncher.Update.Moves
