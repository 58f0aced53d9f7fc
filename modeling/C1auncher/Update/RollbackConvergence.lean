import C1auncher.Update.BootSelection

/-!
Rollback convergence: what becomes of a rollback marker over every later run.

The marker is bound to the digest of a state and removed last. As long as no preparation
opens a transaction in front of it, it stays with its state, and the recovery that finds it
finishes the rollback.
-/

namespace C1auncher.Update.RollbackConvergence

open Durable Durable.Prog CString Option Function
open Update.StateStore Update.StateCommit Update.CommitProgress
open Update.Protocol Update.Transaction Update.Boot
open Update.AntiRollback Update.Preparation Update.Moves
open Update.BootInvariant Update.BootRecovery Update.BootSelection

variable {host : BootstrapRecord} {G : Guards} {d d' : Device} {s : State} {bootId : Text}
  {candidate : Text}

/-! ### The marker stays with its state -/

/-- No transaction is opened in front of a marker. -/
def Respects (host : BootstrapRecord) (step : Step) (d : Device) : Prop :=
  bootOp step.op ∧ ∀ release s, step.op = .prepare release → d.state = some s →
    Opens host release d s → d.marker = none

lemma markerFits_of_none (h : d.marker = none) : MarkerFits d s := fun text ht => by
  simp [h] at ht

lemma markerFits_advance {next : State} (h : MarkerFits d s)
    (hG : ∀ d, G.download d → d.marker = none) (ha : Advance host G d s next) :
    MarkerFits d next := by
  cases ha with
  | download release _ hg => exact markerFits_of_none (hG d hg)
  | verify hphase =>
    exact fun text ht => absurd hphase (h text ht).2.1
  | prepare hphase _ =>
    exact fun text ht => absurd hphase (h text ht).2.2
  | _ => exact fun text ht => ⟨(h text ht).1, by simp [inPhase], by simp [inPhase]⟩

lemma markerFits_move (h : ∃ s, Inv host d s ∧ MarkerFits d s)
    (hG : ∀ d, G.download d → d.marker = none) (hm : Move host G d d') :
    ∃ s, Inv host d' s ∧ MarkerFits d' s := by
  obtain ⟨s, hinv, hfits⟩ := h
  obtain ⟨s', hinv'⟩ := inv_move hinv hm
  refine ⟨s', hinv', ?_⟩
  have hload : ∀ {t}, d.state = some t → t = s := fun ht =>
    some.inj (ht.symm.trans hinv.state)
  have hsame : d'.state = d.state → s' = s := fun hd =>
    some.inj (hinv'.state.symm.trans (hd.trans hinv.state))
  cases hm with
  | store hs hmax ha hpoint =>
    obtain rfl := hload hs
    rcases readState_of_point hs hpoint with hl | hl
    · obtain rfl := some.inj (hinv'.state.symm.trans hl)
      exact hfits
    obtain rfl := some.inj (hinv'.state.symm.trans hl)
    have hnext := markerFits_advance hfits hG ha
    exact hnext
  | mark hs hphase =>
    obtain rfl := hload hs
    obtain rfl := hsame rfl
    rintro text ht
    refine ⟨(some.inj ht).symm, ?_, ?_⟩ <;> rcases hphase with hp | ⟨hp, -⟩ <;> simp [hp]
  | unmark _ _ _ _ => exact markerFits_of_none rfl
  | _ =>
    obtain rfl := hsame rfl
    exact hfits

lemma markerFits_step {step : Step} (hstep : Respects host step d)
    (h : ∃ s, Inv host d s ∧ MarkerFits d s) :
    ∃ s, Inv host (exec host step d) s ∧ MarkerFits (exec host step d) s := by
  have hleads : Leads host ⟨fun e => e.marker = none, fun _ => True, fun _ => True⟩ d
      (exec host step d) := by
    refine leads_of_step hstep.1 ?_
    have hopen := hstep.2
    cases hop : step.op with
    | prepare release => exact fun s hs hopens => hopen release s hop hs hopens
    | _ => simp [Allows]
  generalize exec host step d = d' at hleads
  induction hleads with
  | refl => exact h
  | tail _ hm ih => exact markerFits_move ih (fun _ h => h) hm

/-! ### The failed candidate stays out -/

/-- Neither link selects the candidate any more, once the marker is gone. -/
structure KeptOut (candidate : Text) (d : Device) : Prop where
  previous : d.previous ≠ some candidate
  current : d.marker = none → d.current ≠ some candidate
  pending : d.marker = none → ∀ s, d.state = some s →
    s.phase = .pendingBoot ∨ s.phase = .confirmed → candidateTarget s ≠ candidate

def Activates (candidate : Text) (step : Step) (d : Device) : Prop :=
  step.op = .activate ∧ d.marker = none ∧
    ∃ s, d.state = some s ∧ s.phase = .prepared ∧ candidateTarget s = candidate

lemma KeptOut.move (h : KeptOut candidate d) (hG : ∀ s, G.pend s → candidateTarget s ≠ candidate)
    (hm : Move host G d d') : KeptOut candidate d' := by
  cases hm with
  | store hs hmax ha hpoint =>
    refine ⟨h.previous, h.current, fun hmarker t ht hphase => ?_⟩
    rcases readState_of_point hs hpoint with hl | hl
    · obtain rfl := some.inj (ht.symm.trans hl)
      exact h.pending hmarker _ hs hphase
    obtain rfl := some.inj (ht.symm.trans hl)
    cases ha with
    | pend _ _ _ hg =>
      have hne := hG _ hg
      exact hne
    | confirm hp _ =>
      have hne := h.pending hmarker _ hs (.inl hp)
      exact hne
    | _ => simp [inPhase, openState] at hphase
  | addRelease _ _ _ => exact { h with }
  | previous hs hphase hmarker hlink _ =>
    exact ⟨fun hp => h.current hmarker (hlink.trans hp), h.current, h.pending⟩
  | boot hs hphase hmarker _ =>
    exact ⟨h.previous, fun _ hc => h.pending hmarker _ hs (.inl hphase) (some.inj hc),
      h.pending⟩
  | restore hs hmarker _ =>
    exact ⟨h.previous, fun hc => by simp [hmarker] at hc, h.pending⟩
  | mark _ _ => exact ⟨h.previous, by simp, by simp⟩
  | unmark hs hphase _ hlink =>
    refine ⟨h.previous, fun _ => hlink ▸ h.previous, fun _ t ht ht' => ?_⟩
    obtain rfl := some.inj (hs.symm.trans ht)
    rcases ht' with hp | hp <;> simp [hphase] at hp
  | boots _ => exact { h with }

lemma keptOut_step {step : Step} (hop : bootOp step.op) (hstep : ¬Activates candidate step d)
    (h : KeptOut candidate d) : KeptOut candidate (exec host step d) := by
  have hleads : Leads host ⟨fun _ => True, fun _ => True, fun s => candidateTarget s ≠ candidate⟩ d
      (exec host step d) := by
    refine leads_of_step hop ?_
    cases hop' : step.op with
    | activate =>
      refine fun s hs hphase hmarker =>
        ⟨trivial, fun hc => hstep ⟨hop', hmarker, s, hs, hphase, hc⟩⟩
    | _ => simp [Allows]
  generalize exec host step d = d' at hleads
  induction hleads with
  | refl => exact h
  | tail _ hm ih => exact ih.move (fun _ h => h) hm

/-! ### Convergence -/

/-- A recovery with every file operation succeeding. -/
def recoverCalm (host : BootstrapRecord) (bootId : Text) (d : Device) : Device :=
  (recoverBoot host bootId).after [] d

lemma recoverCalm_eq_exec :
    recoverCalm host bootId d = exec host ⟨.recover bootId, []⟩ d := rfl

lemma recoverCalm_eq (h : Returns (recoverBoot host bootId) d () d') :
    recoverCalm host bootId d = d' := by
  unfold recoverCalm Prog.after
  rw [h]

lemma recoverCalm_refused (h : Refuses (recoverBoot host bootId) d d') :
    recoverCalm host bootId d = d' := by
  unfold recoverCalm Prog.after
  rw [h]

lemma inv_recoverCalm (bootId : Text) (h : Inv host d s) :
    ∃ s', Inv host (recoverCalm host bootId d) s' := by
  rw [recoverCalm_eq_exec]
  exact inv_leads h (leads_of_step (G := .free) rfl (allows_free d _))

lemma Recovered.marker {s' : State} (h : Recovered d s bootId d' s') : d'.marker = none := by
  cases h with
  | unchanged hmarker _ => exact hmarker
  | booted hmarker _ _ => exact hmarker
  | rolledBack hr => exact hr.marker

lemma marker_of_blocked (h : Inv host d s) (hid : validBootId bootId) (hb : Blocked d s) (n : ℕ) :
    ((recoverCalm host bootId)^[n] d).marker ≠ none := by
  induction n generalizing d s with
  | zero => simp [hb.marker]
  | succ n ih =>
    obtain ⟨d', s', href, hb'⟩ := recoverBoot_blocked h hid hb
    obtain ⟨t, ht⟩ := inv_recoverCalm bootId h
    rw [iterate_succ_apply]
    rw [recoverCalm_refused href] at ht ⊢
    have hts : t = s' := some.inj (ht.state.symm.trans hb'.load)
    exact ih (hts ▸ ht) hb'

def CanFinishRollback (d : Device) (s : State) : Prop :=
  d.marker ≠ none → s.phase ≠ .idle → CanRollBack d s

lemma converges_iff (h : Inv host d s) (hid : validBootId bootId) (hfits : MarkerFits d s) :
    (∃ n, ((recoverCalm host bootId)^[n] d).marker = none) ↔ CanFinishRollback d s := by
  constructor
  · rintro ⟨n, hn⟩ hmarker hidle
    by_contra hcannot
    obtain ⟨text, htext⟩ := Option.ne_none_iff_exists'.mp hmarker
    have hb : Blocked d s :=
      ⟨h.state, (hfits text htext).1 ▸ htext, hidle, .inr (.inr hcannot)⟩
    exact marker_of_blocked h hid hb n hn
  · intro hcan
    by_cases hmarker : d.marker = none
    · exact ⟨0, hmarker⟩
    obtain ⟨d', s', hret, -, hrec⟩ := recoverBoot_returns h hid hfits fun hback => by
      refine hcan hmarker ?_
      simpa [RollsBack, isSome_iff_ne_none, hmarker] using hback
    exact ⟨1, by simpa [recoverCalm_eq hret] using Recovered.marker hrec⟩

/-- **Rollback convergence.** Take any run in which a rollback marker was written, and after
which no preparation opened a transaction in front of a marker. The marker then fits the
state, so that no digest is ever rejected. Recoveries with every file operation succeeding
come to remove it exactly if the numbers its rollback still needs are free. And without a
marker `current` never selects the failed candidate, before or after any number of these
recoveries, unless it was activated again. -/
theorem rollback_converges (h : Bootstrapped host d s) {before after : List Step}
    (hrespects : Meets (exec host) (Respects host) d (before ++ after)) {t : State}
    (ht : (final (exec host) d before).state = some t)
    (hmarked : (final (exec host) d before).marker = some (markerText t))
    (hid : validBootId bootId) :
    ∃ s', (final (exec host) d (before ++ after)).state = some s' ∧
      MarkerFits (final (exec host) d (before ++ after)) s' ∧
      ((∃ n, ((recoverCalm host bootId)^[n]
          (final (exec host) d (before ++ after))).marker = none) ↔
        CanFinishRollback (final (exec host) d (before ++ after)) s') ∧
      (Meets (exec host) (fun step e => ¬Activates (candidateTarget t) step e)
          (final (exec host) d before) after →
        ∀ n, ((recoverCalm host bootId)^[n] (final (exec host) d (before ++ after))).marker
            = none →
          ((recoverCalm host bootId)^[n] (final (exec host) d (before ++ after))).current
            ≠ some (candidateTarget t)) := by
  have hrun : ∀ {steps}, Meets (exec host) (Respects host) d steps →
      ∃ s, Inv host (final (exec host) d steps) s ∧ MarkerFits (final (exec host) d steps) s :=
    fun hm => final_inv_of_meets (I := fun d => ∃ s, Inv host d s ∧ MarkerFits d s)
      ⟨s, h.inv, markerFits_of_none h.marker⟩ hm fun _ _ hc hI => markerFits_step hc hI
  obtain ⟨hbefore, hafter⟩ := meets_append.mp hrespects
  obtain ⟨t', hinvt, -⟩ := hrun hbefore
  obtain rfl : t' = t := some.inj (hinvt.state.symm.trans ht)
  obtain ⟨s', hinv, hfits⟩ := hrun hrespects
  refine ⟨s', hinv.state, hfits, converges_iff hinv hid hfits, fun hno n hn => ?_⟩
  have hout : KeptOut (candidateTarget t') (final (exec host) d before) :=
    ⟨hinvt.linked.marked hmarked, by simp [hmarked], by simp [hmarked]⟩
  have hlater : KeptOut (candidateTarget t') (final (exec host) d (before ++ after)) := by
    rw [final_append]
    exact final_inv_of_meets hout (hafter.and hno) fun _ _ hc hk => keptOut_step hc.1.1 hc.2 hk
  have hiterate : ∀ n, KeptOut (candidateTarget t')
      ((recoverCalm host bootId)^[n] (final (exec host) d (before ++ after))) := by
    intro n
    induction n with
    | zero => exact hlater
    | succ n ih =>
      rw [iterate_succ_apply', recoverCalm_eq_exec]
      exact keptOut_step rfl (by simp [Activates]) ih
  exact (hiterate n).current hn

/-- The second release is activated, and its rollback is cut short once the marker is there. -/
def markerWritten : List Step :=
  [⟨.prepare secondRelease, []⟩, ⟨.activate, []⟩, ⟨.rollback, List.replicate 8 .ok ++ [.die]⟩]

def pendingSecond : State :=
  ⟨9, .pendingBoot, 6, 3, ['1', '.', '1', '.', '0'], List.replicate 64 'b'⟩

lemma respects_markerWritten :
    Meets (exec .missing) (Respects .missing) enrolled markerWritten := by
  have hmarker : enrolled.marker = none := by decide +kernel
  exact ⟨⟨rfl, fun _ _ _ _ _ => hmarker⟩, ⟨rfl, fun _ _ h => by simp at h⟩,
    ⟨rfl, fun _ _ h => by simp at h⟩, trivial⟩

theorem rollback_converges_markerWritten :
    ∃ s', (final (exec .missing) enrolled (markerWritten ++ [])).state = some s' ∧
      MarkerFits (final (exec .missing) enrolled (markerWritten ++ [])) s' ∧
      ((∃ n, ((recoverCalm .missing someBoot)^[n]
          (final (exec .missing) enrolled (markerWritten ++ []))).marker = none) ↔
        CanFinishRollback (final (exec .missing) enrolled (markerWritten ++ [])) s') ∧
      (Meets (exec .missing) (fun step e => ¬Activates (candidateTarget pendingSecond) step e)
          (final (exec .missing) enrolled markerWritten) [] →
        ∀ n, ((recoverCalm .missing someBoot)^[n]
            (final (exec .missing) enrolled (markerWritten ++ []))).marker = none →
          ((recoverCalm .missing someBoot)^[n]
            (final (exec .missing) enrolled (markerWritten ++ []))).current
            ≠ some (candidateTarget pendingSecond)) := by
  obtain ⟨s, h⟩ := bootstrapped_enrolled
  exact rollback_converges h (by simpa using respects_markerWritten) (by decide +kernel)
    (by decide +kernel) (by decide +kernel)

def idleSecond : State := ⟨11, .idle, 6, 3, ['1', '.', '1', '.', '0'], List.replicate 64 'b'⟩

def preparedThird : State :=
  ⟨14, .prepared, 7, 3, ['1', '.', '2', '.', '0'], List.replicate 64 'c'⟩

/-- A marker in front of which another release was prepared is rejected for ever. -/
theorem rollback_converges_fails : ¬∀ (host : BootstrapRecord) (d : Device) (s t : State)
    (before after : List Step) (bootId : Text), Bootstrapped host d s →
    (∀ step ∈ before ++ after, bootOp step.op) →
    (final (exec host) d before).state = some t →
    (final (exec host) d before).marker = some (markerText t) → validBootId bootId →
    ∃ n, ((recoverCalm host bootId)^[n] (final (exec host) d (before ++ after))).marker = none := by
  intro h
  obtain ⟨s, hs⟩ := bootstrapped_enrolled
  have hid : validBootId someBoot := by decide +kernel
  obtain ⟨n, hn⟩ := h .missing enrolled s idleSecond (markerLeft.take 3) (markerLeft.drop 3)
    someBoot hs (by simp [markerLeft, bootOp]) (by decide +kernel) (by decide +kernel) hid
  rw [List.take_append_drop] at hn
  have hmarker : (final (exec .missing) enrolled markerLeft).marker
      = some (markerText idleSecond) := by decide +kernel
  have hfix : recoverCalm .missing someBoot (final (exec .missing) enrolled markerLeft)
      = final (exec .missing) enrolled markerLeft :=
    recoverCalm_refused (recoverBoot_rejected (s := preparedThird) hid (by decide +kernel) hmarker
      (by decide +kernel))
  rw [iterate_fixed hfix, hmarker] at hn
  simp at hn

end C1auncher.Update.RollbackConvergence
