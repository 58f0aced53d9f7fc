import C1auncher.Update.BootInvariant

/-!
The first activation: any run of preparations and bootstrap activations on a device nothing
was stored on ends, once an activation returns, in a bootstrapped device.
-/

namespace C1auncher.Update.Bootstrap

open Durable Durable.Prog CString Option
open Update.StateStore Update.StateCommit Update.CommitProgress
open Update.Protocol Update.Transaction Update.Boot
open Update.AntiRollback Update.Preparation Update.Moves
open Update.BootInvariant

variable {host : BootstrapRecord} {G : Guards} {d : Device} {s next : State}

/-! ### Before the first activation -/

/-- A device on which no rollback was ever begun. -/
structure Young (host : BootstrapRecord) (d : Device) (s : State) : Prop where
  load : d.state = some s
  fresh : Fresh d.store s
  released : Released host d.releases s
  marker : d.marker = none

lemma young_factory (host : BootstrapRecord) : Young host .factory .initial :=
  ⟨rfl, fun _ _ => rfl, fun _ _ h => by simp [Device.factory] at h, rfl⟩

lemma Young.stored (h : Young host d s) (hphase : s.phase ≠ .idle) : Stored d.store s :=
  ⟨h.load, (writable_of_readState h.load).resolve_left fun hs => hphase (hs ▸ rfl), h.fresh⟩

lemma released_initial {releases : Text → Option Release}
    (h : Released host releases .initial) (name : Text) : releases name = none := by
  rcases hr : releases name with _ | release
  · rfl
  obtain ⟨-, -, hlt | hid⟩ := h name release hr
  · simp [State.initial, UInt64.lt_iff_toNat_lt] at hlt
  · exact absurd (stateIdentity_iff.mp hid).1.symm release.sequence_ne_zero

lemma Young.advance (h : Young host d s) (ha : Advance host G d s next) :
    Released host d.releases next := by
  cases ha with
  | download release hopens _ =>
    rcases generation_ne_zero_of_readState h.load with rfl | hg
    · intro name r hr
      rw [released_initial h.released name] at hr
      simp at hr
    rcases opens_cases hopens hg with ⟨-, hopen⟩ | hlt
    · rw [hopen]
      exact h.released
    · exact h.released.newer hlt
  | _ => exact h.released

lemma Young.addRelease {release : Release} (h : Young host d s) (hid : stateIdentity s release)
    (hhost : checkCompatibility host release) : Young host (d.addRelease release) s := by
  refine { h with released := fun name r hr => ?_ }
  by_cases hname : name = releaseName release.sequence release.version
  · simp only [Device.addRelease, hname, Function.update_self, some.injEq] at hr
    exact ⟨hr ▸ hname, hr ▸ hhost, .inr (hr ▸ hid)⟩
  · simp only [Device.addRelease, Function.update_of_ne hname] at hr
    exact h.released name r hr

lemma closed_young (host : BootstrapRecord) : Closed host .free fun d => ∃ s, Young host d s where
  store := by
    rintro d s next st ⟨s', h⟩ hs hmax ha hpoint
    obtain rfl : s = s' := some.inj (hs.symm.trans h.load)
    rcases h.fresh.point h.load hmax ha.generation hpoint with ⟨hl, hf⟩ | hst
    · exact ⟨s, hl, hf, h.released, h.marker⟩
    · exact ⟨next, hst.load, hst.fresh, h.advance ha, h.marker⟩
  add := by
    rintro d s release ⟨s', h⟩ hs hid hhost
    obtain rfl : s = s' := some.inj (hs.symm.trans h.load)
    exact ⟨s, h.addRelease hid hhost⟩

/-! ### The first activation -/

lemma wp_bootstrapPointerStatus {which : Pointer} {candidate : Text} {P : Device → Prop}
    {Q : Bool → Device → Prop} (hP : P d)
    (hQ : ∀ status : Bool, (status → which.get d = some candidate) →
      (¬status → which.get d = none) → Q status d) :
    wp (bootstrapPointerStatus which candidate) Q P P d := by
  refine wp_bind (wp_look ?_ hP hP)
  rcases hlink : which.get d with _ | target
  · exact wp_pure (hQ false (by simp) fun _ => hlink)
  refine wp_bind (wp_readPointer hP fun target htarget => ?_)
  exact wp_bind (wp_require (fun heq => wp_pure (hQ true (fun _ => heq ▸ htarget) (by simp)))
    fun _ => hP)

lemma wp_confirmBootstrap {currentStatus previousStatus : Bool} (h : Young host d s)
    (hphase : s.phase = .pendingBoot)
    (hdir : (d.releases (releaseName s.sequence s.release)).isSome)
    (hcurrent : currentStatus → d.current = some (candidateTarget s))
    (hprevious : previousStatus → d.previous = some (candidateTarget s)) :
    wp (do
      .when (¬currentStatus) (atomicPointer .current (candidateTarget s))
      .when (¬previousStatus) (atomicPointer .previous (candidateTarget s))
      let _ ← stateAdvance s .confirmed false : Prog Device Unit)
      (fun _ d' => ∃ s', Bootstrapped host d' s') (fun d' => ∃ s', Young host d' s')
      (fun d' => ∃ s', Young host d' s') d := by
  have hyoung : ∀ d', d'.store = d.store → d'.releases = d.releases → d'.marker = none →
      Young host d' s := fun d' h1 h2 h3 =>
    ⟨by unfold Device.state; rw [h1]; exact h.load, h1 ▸ h.fresh, h2 ▸ h.released, h3⟩
  have hconfirm : ∀ d', d'.store = d.store → d'.releases = d.releases → d'.marker = none →
      d'.current = some (candidateTarget s) → d'.previous = some (candidateTarget s) → wp (do
        let _ ← stateAdvance s .confirmed false : Prog Device Unit)
        (fun _ d' => ∃ s', Bootstrapped host d' s') (fun d' => ∃ s', Young host d' s')
        (fun d' => ∃ s', Young host d' s') d' := by
    intro d' h1 h2 h3 hcur hprev
    have h' := hyoung d' h1 h2 h3
    refine wp_bind (wp_stateAdvance h'.load ⟨s, h'⟩ fun hmax st b hpoint => ?_)
    rcases h'.fresh.point h'.load hmax rfl hpoint with ⟨hl, hf⟩ | hst
    · refine ⟨⟨s, hl, hf, h'.released, h'.marker⟩, fun hl' => ?_⟩
      have hc := congrArg State.phase (some.inj (hl.symm.trans hl'))
      simp [hphase, inPhase] at hc
    refine ⟨⟨_, hst.load, hst.fresh, h'.released, h'.marker⟩, fun _ => wp_pure ⟨_, hst, rfl,
      h'.released, ?_, hcur, hprev, h3⟩⟩
    rw [← h2] at hdir
    exact hdir
  refine wp_bind (wp_when (fun _ => ?_) fun hc => ?_)
  · refine wp_atomicPointer ⟨s, h⟩ ⟨s, hyoung _ rfl rfl h.marker⟩ ?_
    refine wp_bind (wp_when (fun _ => ?_) fun hp => ?_)
    · exact wp_atomicPointer ⟨s, hyoung _ rfl rfl h.marker⟩ ⟨s, hyoung _ rfl rfl h.marker⟩
        (hconfirm _ rfl rfl h.marker rfl rfl)
    · exact hconfirm _ rfl rfl h.marker rfl (hprevious (not_not.mp hp))
  · refine wp_bind (wp_when (fun _ => ?_) fun hp => ?_)
    · exact wp_atomicPointer ⟨s, h⟩ ⟨s, hyoung _ rfl rfl h.marker⟩
        (hconfirm _ rfl rfl h.marker (hcurrent (not_not.mp hc)) rfl)
    · exact hconfirm _ rfl rfl h.marker (hcurrent (not_not.mp hc)) (hprevious (not_not.mp hp))

/-- **A bootstrap activation that returns leaves a bootstrapped device.** -/
theorem wp_bootstrapActivate (h : Young host d s) :
    wp (bootstrapActivate host) (fun _ d' => ∃ s', Bootstrapped host d' s')
      (fun d' => ∃ s', Young host d' s') (fun d' => ∃ s', Young host d' s') d := by
  have hd : ∃ s', Young host d s' := ⟨s, h⟩
  refine wp_bind (wp_tick (wp_bind (wp_stateLoad h.load ?_ hd hd)) hd hd)
  refine wp_bind (wp_require (fun hphase => ?_) fun _ => hd)
  have hst := h.stored (by rcases hphase with hp | hp <;> simp [hp])
  refine wp_bind (wp_validateRelease hd fun hvalid => ?_)
  have hdir : (d.releases (releaseName s.sequence s.release)).isSome := by
    simp only [releaseValid, parseTarget_candidateTarget hst.writable.release] at hvalid
    split at hvalid
    · simp at hvalid
    · next hr => simp [hr]
  refine wp_bind (wp_bootstrapPointerStatus hd fun currentStatus hcurrent _ => ?_)
  refine wp_bind (wp_bootstrapPointerStatus hd fun previousStatus hprevious _ => ?_)
  refine wp_bind (wp_require (fun _ => ?_) fun _ => hd)
  by_cases hprepared : s.phase = .prepared
  · rw [if_pos hprepared]
    refine wp_bind (wp_stateAdvance h.load hd fun hmax st b hpoint => ?_)
    rcases h.fresh.point h.load hmax rfl hpoint with ⟨hl, hf⟩ | hst'
    · refine ⟨⟨s, hl, hf, h.released, h.marker⟩, fun hl' => ?_⟩
      have hc := congrArg State.phase (some.inj (hl.symm.trans hl'))
      simp [hprepared, inPhase] at hc
    have hyoung : Young host { d.setStore st with boots := b } (inPhase s 1 .pendingBoot) :=
      ⟨hst'.load, hst'.fresh, h.released, h.marker⟩
    exact ⟨⟨_, hyoung⟩, fun _ => wp_confirmBootstrap hyoung rfl hdir hcurrent hprevious⟩
  · rw [if_neg hprepared]
    exact wp_bind (wp_pure (wp_confirmBootstrap h (hphase.resolve_left hprepared) hdir hcurrent
      hprevious))

/-! ### Runs from the factory -/

/-- The operations before a device is in service. -/
def enrollOp : Op → Bool
  | .prepare _ | .bootstrapActivate => true
  | _ => false

lemma young_of_bootstrapped (h : Bootstrapped host d s) : Young host d s :=
  ⟨h.stored.load, h.stored.fresh, h.releases, h.marker⟩

variable (host) in
lemma young_run {steps : List Step} (hops : ∀ step ∈ steps, enrollOp step.op) :
    ∃ s, Young host (final (exec host) .factory steps) s := by
  refine final_inv (I := fun d => ∃ s, Young host d s) ⟨_, young_factory host⟩ ?_
  rintro ⟨op, replies⟩ hstep d ⟨s, h⟩
  have hop := hops _ hstep
  cases op with
  | prepare release =>
    exact wp_after (wp_prepare release (closed_young host) ⟨s, h⟩ fun _ _ _ => trivial) replies
  | bootstrapActivate =>
    exact wp_after (wp_mono (wp_bootstrapActivate h) (fun _ _ ⟨s', h'⟩ =>
      ⟨s', young_of_bootstrapped h'⟩)
      (fun _ h => h) fun _ h => h) replies
  | _ => simp [enrollOp] at hop

/-- **What enrolls a device.** After any run of preparations and bootstrap activations from
the factory, each complete or cut short, an activation that returns leaves a bootstrapped
device. -/
theorem bootstrapped_of_run {steps : List Step} (hops : ∀ step ∈ steps, enrollOp step.op)
    {replies : List Reply}
    (hret : (bootstrapActivate host replies (final (exec host) .factory steps)).1 = .done ()) :
    ∃ s, Bootstrapped host
      (exec host ⟨.bootstrapActivate, replies⟩ (final (exec host) .factory steps)) s := by
  obtain ⟨s, h⟩ := young_run host hops
  exact wp_done (wp_bootstrapActivate h) hret

end C1auncher.Update.Bootstrap
