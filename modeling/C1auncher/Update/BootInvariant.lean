import C1auncher.Update.Moves

/-!
The invariant behind boot selection.

It links the phase, both links, the marker and the release directories, and every move keeps
it: so it holds at every point at which an operation can be cut short.
-/

namespace C1auncher.Update.BootInvariant

open Durable Durable.Prog CString List Function Option
open Update.StateStore Update.StateCommit Update.CommitProgress
open Update.Protocol Update.Transaction Update.Boot
open Update.AntiRollback Update.Preparation Update.Moves

/-! ### The invariant -/

def ValidLink (host : BootstrapRecord) (releases : Text → Option Release) (link : Option Text) :
    Prop :=
  ∃ target, link = some target ∧ acceptTarget link = some target ∧
    releaseValid host releases target none

/-- Of the numbers above the one of the state at most the next one was ever used. -/
def Fresh (store : Store) (s : State) : Prop :=
  ∀ n : UInt64, s.generation.toNat + 1 < n.toNat → store.generation? (decimal n) = none

structure Stored (store : Store) (s : State) : Prop where
  load : readState store = some s
  writable : Writable s
  fresh : Fresh store s

/-- Compatible releases under their own names: older ones, and the one of the state. -/
def Released (host : BootstrapRecord) (releases : Text → Option Release) (s : State) : Prop :=
  ∀ name release, releases name = some release →
    name = releaseName release.sequence release.version ∧ checkCompatibility host release ∧
      (release.sequence < s.sequence ∨ stateIdentity s release)

/-- What the links, the marker and the release directories have to do with the state. -/
structure Linked (host : BootstrapRecord) (d : Device) (s : State) : Prop where
  releases : Released host d.releases s
  current : ValidLink host d.releases d.current
  previous : ValidLink host d.releases d.previous
  candidate : s.phase = .prepared ∨ s.phase = .pendingBoot ∨ s.phase = .confirmed →
    (d.releases (releaseName s.sequence s.release)).isSome
  pending : s.phase = .pendingBoot → d.previous ≠ some (candidateTarget s) ∧
    (d.current = some (candidateTarget s) ∨ d.current = d.previous)
  confirmed : s.phase = .confirmed → d.current = some (candidateTarget s) ∨
    (d.marker = some (markerText s) ∧ d.current = d.previous)
  settled : s.phase ≠ .pendingBoot → s.phase ≠ .confirmed →
    d.current ≠ some (candidateTarget s)
  marked : d.marker = some (markerText s) → d.previous ≠ some (candidateTarget s)

structure Inv (host : BootstrapRecord) (d : Device) (s : State) : Prop where
  stored : Stored d.store s
  linked : Linked host d s

/-- A device as its first activation leaves it. -/
structure Bootstrapped (host : BootstrapRecord) (d : Device) (s : State) : Prop where
  stored : Stored d.store s
  phase : s.phase = .confirmed
  releases : Released host d.releases s
  candidate : (d.releases (releaseName s.sequence s.release)).isSome
  current : d.current = some (candidateTarget s)
  previous : d.previous = some (candidateTarget s)
  marker : d.marker = none

variable {host : BootstrapRecord} {G : Guards} {d d' : Device} {s next : State}

lemma Inv.state (h : Inv host d s) : d.state = some s := h.stored.load

/-! ### Valid links -/

variable {releases : Text → Option Release} {st : Store}

lemma Released.identity {release : Release}
    (h : Released host releases s)
    (hr : releases (releaseName s.sequence s.release) = some release) :
    stateIdentity s release ∧ checkCompatibility host release := by
  obtain ⟨hname, hhost, hlt | hid⟩ := h _ _ hr
  · rw [(releaseName_injective hname).1] at hlt
    exact absurd hlt (UInt64.lt_irrefl _)
  · exact ⟨hid, hhost⟩

lemma acceptTarget_candidateTarget (h : Writable s) :
    acceptTarget (some (candidateTarget s)) = some (candidateTarget s) := by
  have hlen : (candidateTarget s).length < 192 := by
    have h1 := decimal_length_le s.sequence
    have h2 := length_of_safeToken h.release
    simp only [candidateTarget, releaseName, releasesPrefix, length_append,
      length_cons, length_nil]
    omega
  simp [acceptTarget, Option.filter, hlen, parseTarget_candidateTarget h.release]

lemma Released.candidateValid (h : Released host releases s)
    (hw : Writable s) (hdir : (releases (releaseName s.sequence s.release)).isSome) :
    releaseValid host releases (candidateTarget s) (some s) := by
  obtain ⟨release, hr⟩ := Option.isSome_iff_exists.mp hdir
  obtain ⟨hid, hhost⟩ := h.identity hr
  obtain ⟨h1, -, h3, -⟩ := stateIdentity_iff.mp hid
  have hname : releaseName s.sequence s.release
      = releaseName release.sequence release.version := by rw [h1, h3]
  rw [hname] at hr
  simp [releaseValid, parseTarget_candidateTarget hw.release, hname, hr, hhost, hid]

lemma validLink_of_valid {target : Text}
    {identity : Option State} (ht : acceptTarget (some target) = some target)
    (h : releaseValid host releases target identity) :
    ValidLink host releases (some target) := by
  refine ⟨target, rfl, ht, ?_⟩
  unfold releaseValid at h ⊢
  split at h
  · simp at h
  next name hname =>
  split at h
  · simp at h
  · next release hr => simp_all

lemma validLink_candidate (h : Released host releases s)
    (hw : Writable s) (hdir : (releases (releaseName s.sequence s.release)).isSome) :
    ValidLink host releases (some (candidateTarget s)) :=
  validLink_of_valid (acceptTarget_candidateTarget hw) (h.candidateValid hw hdir)

lemma ValidLink.release {link : Option Text}
    (h : ValidLink host releases link) : ∃ release,
      releases (releaseName release.sequence release.version) = some release ∧
        link = some (releasesPrefix ++ releaseName release.sequence release.version) := by
  obtain ⟨target, rfl, -, hvalid⟩ := h
  unfold releaseValid at hvalid
  split at hvalid
  · simp at hvalid
  next name hname =>
  split at hvalid
  · simp at hvalid
  next release hr =>
  simp only [Bool.and_eq_true, beq_iff_eq] at hvalid
  obtain ⟨⟨-, rfl⟩, -⟩ := hvalid
  exact ⟨release, hr, by rw [eq_of_parseTarget hname]⟩

lemma ValidLink.ne_newer {link : Option Text}
    (h : ValidLink host releases link) (hr : Released host releases s)
    (hlt : s.sequence < next.sequence) : link ≠ some (candidateTarget next) := by
  obtain ⟨release, hrel, rfl⟩ := h.release
  intro heq
  have hname := append_cancel_left (some.inj heq)
  have hseq := (releaseName_injective hname).1
  obtain ⟨-, -, hlt' | hid⟩ := hr _ _ hrel
  · exact UInt64.lt_irrefl _ (UInt64.lt_trans hlt (hseq ▸ hlt'))
  · exact UInt64.lt_irrefl _ ((stateIdentity_iff.mp hid).1 ▸ hseq ▸ hlt)

lemma ValidLink.addRelease {link : Option Text} {release : Release}
    (h : ValidLink host d.releases link) (hhost : checkCompatibility host release) :
    ValidLink host (d.addRelease release).releases link := by
  obtain ⟨target, rfl, ht, hvalid⟩ := h
  refine ⟨target, rfl, ht, ?_⟩
  unfold releaseValid at hvalid ⊢
  split at hvalid
  · simp at hvalid
  next name hname =>
  by_cases hn : name = releaseName release.sequence release.version
  · simp [Device.addRelease, hn, hhost]
  · simpa [Device.addRelease, update_of_ne hn] using hvalid

/-! ### The store -/

lemma Fresh.point (h : Fresh d.store s) (hs : d.state = some s)
    (hmax : s.generation ≠ 0xffffffffffffffff) (hgen : next.generation = s.generation + 1)
    (hpoint : CommitPoint s next d.store st) :
    (readState st = some s ∧ Fresh st s) ∨ Stored st next := by
  have hsucc := succ_toNat hmax
  have hne : ∀ n : UInt64, s.generation.toNat + 1 < n.toNat →
      decimal n ≠ decimal next.generation := by
    intro n hn hc
    have := congrArg UInt64.toNat (decimal_injective hc)
    rw [hgen, hsucc] at this
    omega
  cases hpoint with
  | kept hk => exact .inl ⟨hk.readState.trans hs, fun n hn => (hk.2 _).trans (h n hn)⟩
  | written hacc hl hw =>
    refine .inl ⟨hw.readState hl, fun n hn => ?_⟩
    rw [hw.2.2, if_neg (hne n hn)]
    exact h n hn
  | selected hacc hl hsel =>
    refine .inr ⟨hsel.readState (generation_ne_zero_of_accepts hacc), writable_of_accepts hacc,
      fun n hn => ?_⟩
    rw [hgen, hsucc] at hn
    rw [hsel.2.2 _ (hne n (by omega))]
    exact h n (by omega)

lemma Stored.point (h : Stored d.store s)
    (hmax : s.generation ≠ 0xffffffffffffffff) (hgen : next.generation = s.generation + 1)
    (hpoint : CommitPoint s next d.store st) : Stored st s ∨ Stored st next :=
  (h.fresh.point h.load hmax hgen hpoint).imp_left fun ⟨hl, hf⟩ => ⟨hl, h.writable, hf⟩

lemma Stored.of_selected (h : Stored d.store s)
    (hmax : s.generation ≠ 0xffffffffffffffff) (hgen : next.generation = s.generation + 1)
    (hacc : commitAccepts s next) (hsel : Selected next d.store st) : Stored st next := by
  rcases h.point hmax hgen (.selected hacc h.load hsel) with hst | hst
  · have heq : s = next := some.inj (hst.load.symm.trans
      (hsel.readState (generation_ne_zero_of_accepts hacc)))
    exact heq ▸ hst
  · exact hst

/-! ### Every move keeps the invariant -/

lemma Linked.of_eq (h : Linked host d s) (hr : d'.releases = d.releases)
    (hc : d'.current = d.current) (hp : d'.previous = d.previous) (hm : d'.marker = d.marker) :
    Linked host d' s where
  releases := hr ▸ h.releases
  current := hr ▸ hc ▸ h.current
  previous := hr ▸ hp ▸ h.previous
  candidate := hr ▸ h.candidate
  pending := hc ▸ hp ▸ h.pending
  confirmed := hc ▸ hp ▸ hm ▸ h.confirmed
  settled := hc ▸ h.settled
  marked := hm ▸ hp ▸ h.marked

lemma Linked.inPhase {phase : Phase} (h : Linked host d s)
    (hcandidate : phase = .prepared ∨ phase = .pendingBoot ∨ phase = .confirmed →
      (d.releases (releaseName s.sequence s.release)).isSome)
    (hpending : phase = .pendingBoot → d.previous ≠ some (candidateTarget s) ∧
      (d.current = some (candidateTarget s) ∨ d.current = d.previous))
    (hconfirmed : phase = .confirmed → d.current = some (candidateTarget s))
    (hsettled : phase ≠ .pendingBoot → phase ≠ .confirmed →
      d.current ≠ some (candidateTarget s)) :
    Linked host d (inPhase s 1 phase) :=
  ⟨h.releases, h.current, h.previous, hcandidate, hpending, fun hc => .inl (hconfirmed hc),
    hsettled, h.marked⟩

lemma Released.newer (h : Released host releases s)
    (hlt : s.sequence < next.sequence) : Released host releases next := by
  intro name r hr
  obtain ⟨hname, hhost, hlt' | hid⟩ := h name r hr
  · exact ⟨hname, hhost, .inl (UInt64.lt_trans hlt' hlt)⟩
  · exact ⟨hname, hhost, .inl ((stateIdentity_iff.mp hid).1 ▸ hlt)⟩

lemma uint64_lt_of_le_of_ne {a b : UInt64} (hle : a ≤ b) (hne : a ≠ b) : a < b := by
  have hne' : a.toNat ≠ b.toNat := fun hc => hne (UInt64.toNat_inj.mp hc)
  rw [UInt64.le_iff_toNat_le] at hle
  rw [UInt64.lt_iff_toNat_lt]
  omega

lemma opens_cases {release : Release} (h : Opens host release d s) (hg : s.generation ≠ 0) :
    (s.phase = .idle ∧ openState s release = Preparation.inPhase s 1 .downloading) ∨
      s.sequence < release.sequence := by
  obtain ⟨hle, -, hsame⟩ := admits_iff.mp h.admits hg
  rcases eq_or_ne s.sequence release.sequence with heq | hne
  · have hid := hsame heq
    obtain ⟨h1, h2, h3, h4⟩ := stateIdentity_iff.mp hid
    refine .inl ⟨h.phase.resolve_right fun hc => h.other ⟨hc, hid⟩, ?_⟩
    simp [openState, Preparation.inPhase, h1, h2, h3, h4]
  · exact .inr (uint64_lt_of_le_of_ne hle hne)

lemma Linked.download {release : Release} (h : Linked host d s) (hopens : Opens host release d s)
    (hg : s.generation ≠ 0) : Linked host d (openState s release) := by
  rcases opens_cases hopens hg with ⟨hidle, hopen⟩ | hlt
  · rw [hopen]
    exact h.inPhase (by simp) (by simp) (by simp)
      fun _ _ => h.settled (by simp [hidle]) (by simp [hidle])
  have hnewer : ∀ link, ValidLink host d.releases link →
      link ≠ some (candidateTarget (openState s release)) := fun link hl =>
    hl.ne_newer h.releases hlt
  exact ⟨h.releases.newer hlt, h.current, h.previous, by simp [openState],
    by simp [openState], by simp [openState], fun _ _ => hnewer _ h.current,
    fun _ => hnewer _ h.previous⟩

lemma Linked.advance (h : Linked host d s) (hg : s.generation ≠ 0)
    (ha : Advance host G d s next) : Linked host d next := by
  cases ha with
  | download release hopens _ => exact h.download hopens hg
  | verify hphase =>
    exact h.inPhase (by simp) (by simp) (by simp)
      fun _ _ => h.settled (by simp [hphase]) (by simp [hphase])
  | prepare hphase hdir =>
    exact h.inPhase (fun _ => hdir) (by simp) (by simp)
      fun _ _ => h.settled (by simp [hphase]) (by simp [hphase])
  | pend hphase hmarker hlink _ =>
    have hne := h.settled (by simp [hphase]) (by simp [hphase])
    exact h.inPhase (fun _ => h.candidate (.inl hphase)) (fun _ => ⟨hlink ▸ hne, .inr hlink.symm⟩)
      (by simp) (by simp)
  | confirm hphase hlink =>
    exact h.inPhase (fun _ => h.candidate (.inr (.inl hphase))) (by simp) (fun _ => hlink)
      (by simp)
  | unpend hphase hmarker hlink =>
    exact h.inPhase (fun _ => h.candidate (.inr (.inl hphase))) (by simp) (by simp)
      fun _ _ => hlink ▸ h.marked hmarker
  | drop hphase hmarker hlink =>
    exact h.inPhase (by simp) (by simp) (by simp) fun _ _ => hlink ▸ h.marked hmarker
  | abandon hphase =>
    refine h.inPhase (by simp) (by simp) (by simp) fun _ _ => h.settled ?_ ?_ <;>
      rcases hphase with h | h | h <;> simp [h]

lemma Stored.generation_ne_zero {store : Store} (h : Stored store s) : s.generation ≠ 0 := by
  rcases generation_ne_zero_of_readState h.load with rfl | hg
  · exact absurd rfl h.writable.sequence
  · exact hg

/-- **Every move keeps the invariant.** -/
theorem inv_move (h : Inv host d s) (hm : Move host G d d') : ∃ s', Inv host d' s' := by
  obtain ⟨hst, hl⟩ := h
  have hload : ∀ {s'}, d.state = some s' → s' = s := fun hs' =>
    some.inj (hs'.symm.trans hst.load)
  cases hm with
  | store hs hmax ha hpoint =>
    obtain rfl := hload hs
    rcases hst.point hmax ha.generation hpoint with hst' | hst'
    · exact ⟨_, hst', hl.of_eq rfl rfl rfl rfl⟩
    · exact ⟨_, hst', (hl.advance hst.generation_ne_zero ha).of_eq rfl rfl rfl rfl⟩
  | @addRelease _ release hs hid hhost =>
    obtain rfl := hload hs
    refine ⟨_, hst, ?_, hl.current.addRelease hhost, hl.previous.addRelease hhost, fun hp => ?_,
      hl.pending, hl.confirmed, hl.settled, hl.marked⟩
    · intro name r hr
      by_cases hname : name = releaseName release.sequence release.version
      · simp only [Device.addRelease, hname, update_self, some.injEq] at hr
        exact ⟨hr ▸ hname, hr ▸ hhost, .inr (hr ▸ hid)⟩
      · simp only [Device.addRelease, update_of_ne hname] at hr
        exact hl.releases name r hr
    · obtain ⟨h1, -, h3, -⟩ := stateIdentity_iff.mp hid
      simp [Device.addRelease, h1, h3]
  | previous hs hphase hmarker hlink _ =>
    obtain rfl := hload hs
    exact ⟨_, hst, hl.releases, hl.current, hlink ▸ hl.current, hl.candidate,
      by simp [hphase], by simp [hphase], hl.settled, by simp [hmarker]⟩
  | boot hs hphase hmarker hlink =>
    obtain rfl := hload hs
    exact ⟨_, hst, hl.releases,
      validLink_candidate hl.releases hst.writable (hl.candidate (.inr (.inl hphase))),
      hl.previous, hl.candidate, fun _ => ⟨(hl.pending hphase).1, .inl rfl⟩, fun _ => .inl rfl,
      fun hc => absurd hphase hc, hl.marked⟩
  | restore hs hmarker hlink =>
    obtain rfl := hload hs
    exact ⟨_, hst, hl.releases, hlink ▸ hl.previous, hl.previous, hl.candidate,
      fun hp => ⟨(hl.pending hp).1, .inr hlink.symm⟩, fun _ => .inr ⟨hmarker, hlink.symm⟩,
      fun _ _ => hlink ▸ hl.marked hmarker, hl.marked⟩
  | mark hs hphase =>
    obtain rfl := hload hs
    refine ⟨_, hst, hl.releases, hl.current, hl.previous, hl.candidate, hl.pending,
      fun hc => (hl.confirmed hc).imp_right fun h => ⟨rfl, h.2⟩, hl.settled, fun _ => ?_⟩
    rcases hphase with hp | ⟨hc, hne⟩
    · exact (hl.pending hp).1
    rcases hl.confirmed hc with h | ⟨-, h⟩
    · exact fun hprev => hne (h.trans hprev.symm)
    · exact absurd h hne
  | unmark hs hphase hmarker hlink =>
    obtain rfl := hload hs
    exact ⟨_, hst, hl.releases, hl.current, hl.previous, hl.candidate, hl.pending,
      by simp [hphase], hl.settled, by simp⟩
  | boots b => exact ⟨s, hst, hl.of_eq rfl rfl rfl rfl⟩

/-- **A bootstrapped device satisfies the invariant.** -/
theorem Bootstrapped.inv (h : Bootstrapped host d s) : Inv host d s := by
  have hlink := validLink_candidate h.releases h.stored.writable h.candidate
  exact ⟨h.stored, h.releases, h.current ▸ hlink, h.previous ▸ hlink, fun _ => h.candidate,
    by simp [h.phase], fun _ => .inl h.current, by simp [h.phase], by simp [h.marker]⟩

/-! ### Runs -/

lemma inv_leads (h : Inv host d s) (hl : Leads host G d d') : ∃ s', Inv host d' s' := by
  induction hl with
  | refl => exact ⟨s, h⟩
  | tail _ hm ih =>
    obtain ⟨s', h'⟩ := ih
    exact inv_move h' hm

/-- **The invariant holds after every run**, each of its operations complete or cut short. -/
theorem inv_run (h : Bootstrapped host d s) {steps : List Step}
    (hops : ∀ step ∈ steps, bootOp step.op) :
    ∃ s', Inv host (final (exec host) d steps) s' := by
  refine final_inv (I := fun d => ∃ s, Inv host d s) ⟨s, h.inv⟩ fun step hstep d ⟨s, hd⟩ => ?_
  exact inv_leads hd (leads_of_step (G := .free) (hops step hstep) (allows_free d step.op))

lemma previous_of_step {step : Step} (hop : bootOp step.op) (d : Device) :
    (exec host step d).previous = d.previous ∨ ((exec host step d).previous = d.current ∧
      ∃ s, d.state = some s ∧ s.phase = .prepared) := by
  have hleads : Leads host ⟨fun _ => True, (· = d), fun _ => True⟩ d (exec host step d) := by
    refine leads_of_step hop ?_
    cases step.op <;> simp [Allows]
  generalize exec host step d = d' at hleads
  induction hleads with
  | refl => exact .inl rfl
  | tail _ hm ih =>
    cases hm with
    | previous hs hphase _ hlink hG =>
      subst hG
      exact .inr ⟨hlink.symm, _, hs, hphase⟩
    | _ => exact ih

end C1auncher.Update.BootInvariant
