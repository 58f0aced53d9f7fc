import C1auncher.Update.Bootstrap
import C1auncher.Update.BootRecovery

/-!
Boot selection under power loss: what a recovery selects after any run of operations, and
when it selects anything at all.
-/

namespace C1auncher.Update.BootSelection

open Durable Durable.Prog CString List Option
open Update.StateStore Update.StateCommit Update.CommitProgress
open Update.Protocol Update.Transaction Update.Boot
open Update.AntiRollback Update.Preparation Update.Moves
open Update.BootInvariant Update.Bootstrap Update.BootRecovery

variable {host : BootstrapRecord} {d : Device} {s : State} {bootId : Text}

/-! ### One recovery -/

/-- The recovery has to leave the candidate: a rollback was begun, or the candidate has had
its boots. -/
def RollsBack (d : Device) (s : State) (bootId : Text) : Prop :=
  if d.marker.isSome then s.phase ≠ .idle
  else s.phase = .pendingBoot ∧ ¬bootsLeft d.boots s bootId

inductive Recovered (d : Device) (s : State) (bootId : Text) : Device → State → Prop
  | unchanged (hmarker : d.marker = none) (hphase : s.phase ≠ .pendingBoot) :
      Recovered d s bootId { d with boots := none } s
  | booted {b : Option Text} (hmarker : d.marker = none) (hphase : s.phase = .pendingBoot)
      (hcounted : Counted b s bootId) :
      Recovered d s bootId { d with current := some (candidateTarget s), boots := b } s
  | rolledBack {d' : Device} {s' : State} (h : RolledBack d d' s') : Recovered d s bootId d' s'

lemma recoverBoot_start (hid : validBootId bootId) (h : d.state = some s) :
    recoverBoot host bootId [] d = (do
      let state ← recoverLocked host s
      if state.phase = .pendingBoot then
        let counted ← .attempt (countPendingBoot state bootId)
        if counted = some false then pure ()
        else do
          let previous ← readPointer .previous
          validateRelease host previous none
          let _ ← rollbackLocked previous state
      else clearPendingBoots : Prog Device Unit) [] d :=
  (Returns.require hid).bind_eq.trans (Returns.tick.bind_eq.trans (returns_stateLoad h).bind_eq)

lemma recoverBoot_settled {d' : Device} {s' : State} (hid : validBootId bootId)
    (h : d.state = some s) (hrec : Returns (recoverLocked host s) d s' d')
    (hphase : s'.phase ≠ .pendingBoot) :
    Returns (recoverBoot host bootId) d () { d' with boots := none } := by
  refine (recoverBoot_start hid h).trans (hrec.bind ?_)
  rw [if_neg hphase]
  exact returns_clearPendingBoots

lemma recoverBoot_pending (h : Inv host d s) (hid : validBootId bootId)
    (hphase : s.phase = .pendingBoot) (hmarker : d.marker = none) :
    (bootsLeft d.boots s bootId → ∃ b, Counted b s bootId ∧ Returns (recoverBoot host bootId) d ()
      { d with current := some (candidateTarget s), boots := b }) ∧
    (¬bootsLeft d.boots s bootId → ∃ previous, acceptTarget d.previous = some previous ∧
      recoverBoot host bootId [] d = (do
        let _ ← rollbackLocked previous s : Prog Device Unit) []
          { d with current := some (candidateTarget s) }) := by
  have hlocked : Returns (recoverLocked host s) d s
      { d with current := some (candidateTarget s) } := by
    refine (returns_markerStatus_none hmarker).bind ?_
    rw [if_neg Bool.false_ne_true, if_neg (not_not.mpr hphase)]
    exact returns_recoverPending h hphase
  refine ⟨fun hleft => ?_, fun hover => ?_⟩
  · obtain ⟨b, hcount, hb⟩ := returns_countPendingBoot
      (d := { d with current := some (candidateTarget s) }) hid hleft
    refine ⟨b, hb, (recoverBoot_start hid h.state).trans (hlocked.bind ?_)⟩
    rw [if_pos hphase]
    exact hcount.attempt.bind Returns.pure
  · obtain ⟨counted, hcount, hne⟩ := returns_countPendingBoot_over
      (d := { d with current := some (candidateTarget s) }) hid hover
    obtain ⟨previous, -, hacc, hvalid⟩ := h.linked.previous
    refine ⟨previous, hacc, (recoverBoot_start hid h.state).trans (hlocked.bind_eq.trans ?_)⟩
    rw [if_pos hphase]
    refine hcount.bind_eq.trans ?_
    rw [if_neg hne]
    have hread := returns_readPointer (d := { d with current := some (candidateTarget s) })
      .previous hacc
    have hcheck := returns_validateRelease (d := { d with current := some (candidateTarget s) })
      hvalid
    exact hread.bind_eq.trans hcheck.bind_eq

lemma recoverBoot_returns (h : Inv host d s) (hid : validBootId bootId)
    (hfits : MarkerFits d s) (hcan : RollsBack d s bootId → CanRollBack d s) :
    ∃ d' s', Returns (recoverBoot host bootId) d () d' ∧ Stored d'.store s' ∧
      Recovered d s bootId d' s' := by
  rcases hmarker : d.marker with _ | text
  · by_cases hphase : s.phase = .pendingBoot
    · obtain ⟨hleft, hover⟩ := recoverBoot_pending h hid hphase hmarker
      by_cases hb : bootsLeft d.boots s bootId
      · obtain ⟨b, hcounted, hret⟩ := hleft hb
        exact ⟨_, s, hret, h.stored, .booted hmarker hphase hcounted⟩
      obtain ⟨previous, hacc, hrun⟩ := hover hb
      have hc := hcan (by simp [RollsBack, hmarker, hphase, hb])
      obtain ⟨d', s', hret, hrolled⟩ := returns_rollbackLocked
        (d := { d with current := some (candidateTarget s) }) h.stored hacc (.inl hphase)
        ⟨hc.fits, hc.free⟩
      exact ⟨d', s', hrun.trans (hret.bind Returns.pure), hrolled.stored, .rolledBack
        { hrolled with }⟩
    · refine ⟨_, s, recoverBoot_settled hid h.state (Returns.bind (returns_markerStatus_none
        hmarker) ?_) hphase, h.stored, .unchanged hmarker hphase⟩
      rw [if_neg Bool.false_ne_true, if_pos hphase]
      exact Returns.pure
  · obtain ⟨rfl, hphase, hphase'⟩ := hfits text hmarker
    obtain ⟨d', s', hret, hrolled⟩ := returns_resumeRollback h hphase hphase'
      fun hidle => hcan (by simp [RollsBack, hmarker, hidle])
    have hlocked : Returns (recoverLocked host s) d s' d' := by
      refine (returns_markerStatus_some h.stored.writable.digest hmarker).bind ?_
      rw [if_pos rfl]
      exact hret
    refine ⟨_, s', recoverBoot_settled hid h.state hlocked (by simp [hrolled.idle]),
      hrolled.stored, .rolledBack { hrolled with }⟩

lemma recoverBoot_blocked (h : Inv host d s) (hid : validBootId bootId) (hb : Blocked d s) :
    ∃ d' s', Refuses (recoverBoot host bootId) d d' ∧ Blocked d' s' := by
  obtain ⟨d', s', href, hb'⟩ := refuses_resumeRollback h hb
  refine ⟨d', s', (recoverBoot_start hid h.state).trans (Refuses.bind ?_), hb'⟩
  refine (returns_markerStatus_some h.stored.writable.digest hb.marker).bind_refuses ?_
  rw [if_pos rfl]
  exact href

lemma recoverBoot_rejected {text : Text} (hid : validBootId bootId) (hs : d.state = some s)
    (hmarker : d.marker = some text) (hne : text ≠ markerText s) :
    Refuses (recoverBoot host bootId) d d :=
  (recoverBoot_start hid hs).trans (Refuses.bind (refuses_markerStatus hmarker hne).bind)

lemma recoverBoot_refuses (h : Inv host d s) (hid : validBootId bootId)
    (hcannot : MarkerFits d s → RollsBack d s bootId ∧ ¬CanRollBack d s) :
    ∃ d', Refuses (recoverBoot host bootId) d d' := by
  rcases hmarker : d.marker with _ | text
  · obtain ⟨hback, hc⟩ := hcannot fun text ht => by simp [hmarker] at ht
    simp only [RollsBack, hmarker, isSome_none, Bool.false_eq_true, if_false] at hback
    obtain ⟨previous, hacc, hrun⟩ := (recoverBoot_pending h hid hback.1 hmarker).2 hback.2
    obtain ⟨d', -, href, -⟩ := refuses_rollbackLocked
      (d := { d with current := some (candidateTarget s) }) h.stored hacc (.inl hback.1)
      fun hc' => hc ⟨hc'.fits, hc'.free⟩
    exact ⟨d', hrun.trans href.bind⟩
  · by_cases htext : text = markerText s
    · subst htext
      have hb : s.phase ≠ .idle ∧
          (s.phase = .downloading ∨ s.phase = .verified ∨ ¬CanRollBack d s) := by
        by_cases hfits : s.phase ≠ .downloading ∧ s.phase ≠ .verified
        · obtain ⟨hback, hc⟩ := hcannot fun text ht =>
            ⟨some.inj (ht.symm.trans hmarker), hfits⟩
          simp only [RollsBack, hmarker, isSome_some, if_true] at hback
          exact ⟨hback, .inr (.inr hc)⟩
        · have hphase : s.phase = .downloading ∨ s.phase = .verified := by tauto
          refine ⟨?_, hphase.imp_right .inl⟩
          rcases hphase with hp | hp <;> simp [hp]
      obtain ⟨d', -, href, -⟩ := recoverBoot_blocked h hid ⟨h.state, hmarker, hb.1, hb.2⟩
      exact ⟨d', href⟩
    · exact ⟨d, recoverBoot_rejected hid h.state hmarker htext⟩

/-! ### Runs -/

/-- A link was `current` in one of these devices, with no activation under way. -/
def Served (devices : List Device) (link : Option Text) : Prop :=
  ∃ e ∈ devices, e.current = link ∧ ∃ s, e.state = some s ∧ s.phase ≠ .pendingBoot

lemma served_previous (h : Bootstrapped host d s) {steps : List Step}
    (hops : ∀ step ∈ steps, bootOp step.op) :
    Served (visited (exec host) d steps) (final (exec host) d steps).previous := by
  induction steps using reverseRecOn with
  | nil =>
    exact ⟨d, mem_singleton_self d, h.current.trans h.previous.symm, s, h.stored.load,
      by simp [h.phase]⟩
  | append_singleton steps step ih =>
    obtain ⟨e, he, hlink, hstate⟩ := ih fun t ht => hops t (mem_append_left _ ht)
    have hlast : final (exec host) d (steps ++ [step])
        = exec host step (final (exec host) d steps) := final_append _
    rw [visited_append_singleton, hlast]
    rcases previous_of_step (hops step (by simp)) (final (exec host) d steps) with hp | ⟨hp, hs⟩
    · exact ⟨e, mem_append_left _ he, hlink.trans hp.symm, hstate⟩
    · obtain ⟨s', hs', hphase⟩ := hs
      exact ⟨_, mem_append_left _ final_mem_visited, hp.symm, s', hs', by simp [hphase]⟩

/-- What a recovery has to select: the candidate while its boot is pending, with at most three
boots counted; else a release that was `current` before. -/
structure Selects (host : BootstrapRecord) (devices : List Device) (bootId : Text) (d' : Device)
    (s' : State) : Prop where
  load : d'.state = some s'
  valid : ValidLink host d'.releases d'.current
  pending : s'.phase = .pendingBoot → d'.current = some (candidateTarget s') ∧
    d'.current ≠ d'.previous ∧ Counted d'.boots s' bootId
  served : s'.phase ≠ .pendingBoot → Served devices d'.current

lemma Recovered.selects {d' : Device} {s' : State} {devices : List Device} (h : Inv host d s)
    (hd : d ∈ devices) (hserved : Served devices d.previous) (hst : Stored d'.store s')
    (hrec : Recovered d s bootId d' s') : Selects host devices bootId d' s' := by
  cases hrec with
  | unchanged hmarker hphase =>
    exact ⟨hst.load, h.linked.current, fun hc => absurd hc hphase,
      fun _ => ⟨d, hd, rfl, s, h.state, hphase⟩⟩
  | booted hmarker hphase hcounted =>
    exact ⟨hst.load, validLink_candidate h.linked.releases h.stored.writable
      (h.linked.candidate (.inr (.inl hphase))),
      fun _ => ⟨rfl, Ne.symm (h.linked.pending hphase).1, hcounted⟩, fun hc => absurd hphase hc⟩
  | rolledBack hr =>
    refine ⟨hst.load, ?_, fun hc => by simp [hr.idle] at hc, fun _ => ?_⟩
    · rw [hr.current, hr.releases]
      exact h.linked.previous
    · rw [hr.current]
      exact hserved

/-- **Boot selection.** After every run of operations of a bootstrapped device, each complete
or cut short, `current` selects a validated release. A recovery with every file operation
succeeding returns and selects a release as it has to exactly if the marker, where there is
one, fits the state, and where it has to roll back the numbers for that are free. -/
theorem boot_selection (h : Bootstrapped host d s) {steps : List Step}
    (hops : ∀ step ∈ steps, bootOp step.op) (hid : validBootId bootId) :
    ∃ s', (final (exec host) d steps).state = some s' ∧
      ValidLink host (final (exec host) d steps).releases (final (exec host) d steps).current ∧
      ((∃ e t, Returns (recoverBoot host bootId) (final (exec host) d steps) () e ∧
          Selects host (visited (exec host) d steps) bootId e t) ↔
        MarkerFits (final (exec host) d steps) s' ∧
          (RollsBack (final (exec host) d steps) s' bootId →
            CanRollBack (final (exec host) d steps) s')) := by
  obtain ⟨s', hinv⟩ := inv_run h hops
  refine ⟨s', hinv.state, hinv.linked.current, ?_, ?_⟩
  · rintro ⟨e, t, hret, -⟩
    by_contra hcannot
    obtain ⟨e', href⟩ := recoverBoot_refuses hinv hid fun hfits => by tauto
    exact href.not_returns hret
  · rintro ⟨hfits, hcan⟩
    obtain ⟨e, t, hret, hst, hrec⟩ := recoverBoot_returns hinv hid hfits hcan
    exact ⟨e, t, hret, hrec.selects hinv final_mem_visited (served_previous h hops) hst⟩

def enrolled : Device :=
  exec .missing ⟨.bootstrapActivate, []⟩
    (final (exec .missing) .factory [⟨.prepare firstRelease, []⟩])

lemma bootstrapped_enrolled : ∃ s, Bootstrapped .missing enrolled s :=
  bootstrapped_of_run (by simp [enrollOp]) (by decide +kernel)

def thirdRelease : Release :=
  { firstRelease with
    sequence := 7
    version := ['1', '.', '2', '.', '0']
    securityEpoch := 3
    digest := List.replicate 64 'c'
    sequence_ne_zero := by decide
    securityEpoch_ne_zero := secondRelease.securityEpoch_ne_zero
    version_token := by decide
    digest_valid := by decide }

/-- The second release is activated and rolled back; the process dies before it removes the
marker, and the next release is prepared. -/
def markerLeft : List Step :=
  [⟨.prepare secondRelease, []⟩, ⟨.activate, []⟩, ⟨.rollback, List.replicate 42 .ok ++ [.die]⟩,
    ⟨.prepare thirdRelease, []⟩]

def someBoot : Text :=
  List.replicate 8 '0' ++ '-' :: (List.replicate 4 '0' ++ '-' :: (List.replicate 4 '0' ++
    '-' :: (List.replicate 4 '0' ++ '-' :: List.replicate 12 '0')))

theorem boot_selection_markerLeft :
    ∃ s', (final (exec .missing) enrolled markerLeft).state = some s' ∧
      ValidLink .missing (final (exec .missing) enrolled markerLeft).releases
        (final (exec .missing) enrolled markerLeft).current ∧
      ((∃ e t, Returns (recoverBoot .missing someBoot) (final (exec .missing) enrolled markerLeft)
          () e ∧ Selects .missing (visited (exec .missing) enrolled markerLeft) someBoot e t) ↔
        MarkerFits (final (exec .missing) enrolled markerLeft) s' ∧
          (RollsBack (final (exec .missing) enrolled markerLeft) s' someBoot →
            CanRollBack (final (exec .missing) enrolled markerLeft) s')) := by
  obtain ⟨s, h⟩ := bootstrapped_enrolled
  exact boot_selection h (by simp [markerLeft, bootOp]) (by decide +kernel)

lemma recover_markerLeft :
    (recoverBoot .missing someBoot [] (final (exec .missing) enrolled markerLeft)).1
      = .failed := by
  decide +kernel

/-- A marker left behind by a finished rollback makes every later recovery fail. -/
theorem boot_selection_fails : ¬∀ (host : BootstrapRecord) (d : Device) (s : State)
    (steps : List Step) (bootId : Text), Bootstrapped host d s →
    (∀ step ∈ steps, bootOp step.op) → validBootId bootId →
    ∃ e t, Returns (recoverBoot host bootId) (final (exec host) d steps) () e ∧
      Selects host (visited (exec host) d steps) bootId e t := by
  intro h
  obtain ⟨s, hs⟩ := bootstrapped_enrolled
  obtain ⟨e, -, hret, -⟩ := h .missing enrolled s markerLeft someBoot hs
    (by simp [markerLeft, bootOp]) (by decide +kernel)
  have hfailed := recover_markerLeft
  rw [hret] at hfailed
  simp at hfailed

end C1auncher.Update.BootSelection
