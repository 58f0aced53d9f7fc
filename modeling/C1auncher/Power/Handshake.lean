import C1auncher.Power.ShutdownLease

/-!
What the shutdown handshake guarantees, whatever the order of its steps.

The UI learns of the two leases through the acknowledgement of a begin. After a begin that failed
nothing extends a lease any more, and a lease is taken away for few reasons.
-/

namespace C1auncher.Power.Handshake

open Power.Shutdown Power.ShutdownMoves Power.ShutdownLease List Option

/-! ### What the UI is told -/

/-- What a begin that succeeded goes by. -/
def Answered (c : Client) (r : Returned) : Prop :=
  ∃ q a, r.answer = some (q, a) ∧ (q, a) ∈ c.accepted ∧ a.packet.operation = .begin ∧ a.error = 0

/-- The calls that have returned and the failure of the one under way. -/
structure Past (u : Ui) (c : Client) : Prop where
  failure : ∀ e, u.doing = .failed e ∨ u.doing = .rollingBack e → e ≠ 0
  returned : ∀ r ∈ u.returned, r.call = .begin → r.error = 0 → Answered c r

structure Reports (u : Ui) (c : Client) : Prop extends Past u c where
  requesting : u.doing = .requesting .begin → ∀ q ∈ c.pending, q.operation = .begin

variable {u u' : Ui} {now : ℤ} {error t : ℕ} {answer : Option (Packet × Ack)} {r : Returned}
  {c : Client} {e : Event} {operation : Operation} {s s' : System} {l l' : Link} {upstream : Bool}
  {ack : Packet → ℕ → Ack}

lemma told_doing {call : Call} :
    (u.told now error answer).doing ≠ .requesting call := by
  cases hd : u.doing with
  | requesting c =>
    cases c
    · by_cases hzero : error = 0 <;> simp [Ui.told, Ui.return, hd, hzero]
    · simp [Ui.told, Ui.return, hd]
    · simp [Ui.told, Ui.return, hd]
  | _ => simp [Ui.told, Ui.return, hd]

lemma told_failure {e : ℕ}
    (h : (u.told now error answer).doing = .failed e ∨
      (u.told now error answer).doing = .rollingBack e) :
    e ≠ 0 ∨ u.doing = .failed e ∨ u.doing = .rollingBack e := by
  unfold Ui.told Ui.return at h
  grind

lemma told_returned (h : r ∈ (u.told now error answer).returned) (hcall : r.call = .begin)
    (hr : r.error = 0) :
    r ∈ u.returned ∨ u.doing = .rollingBack 0 ∨
      u.doing = .requesting .begin ∧ error = 0 ∧ r.answer = answer := by
  unfold Ui.told Ui.return at h
  grind

lemma Answered.mono {c' : Client} (h : Answered c r)
    (hsub : c.accepted ⊆ c'.accepted) : Answered c' r := by
  obtain ⟨q, a, hr, hmem, hrest⟩ := h
  exact ⟨q, a, hr, hsub hmem, hrest⟩

lemma Past.mono {c' : Client} (h : Past u c) (hsub : c.accepted ⊆ c'.accepted) :
    Past u c' :=
  ⟨h.failure, fun r hr hb he => (h.returned r hr hb he).mono hsub⟩

lemma Past.told (h : Past u c) (now : ℤ)
    (hnew : ∀ r : Returned, u.doing = .requesting .begin → error = 0 → r.answer = answer →
      Answered c r) : Reports (u.told now error answer) c := by
  refine ⟨⟨fun e he => (told_failure he).elim id (h.failure e), fun r hr hb he => ?_⟩,
    fun hd => absurd hd told_doing⟩
  rcases told_returned hr hb he with hr | hr | ⟨hd, hzero, hanswer⟩
  · exact h.returned r hr hb he
  · exact absurd rfl (h.failure 0 (.inr hr))
  · exact hnew r hd hzero hanswer

lemma Past.asks (h : Past u c)
    (ha : Asks u e u' operation) : Past u' c := by
  cases ha with
  | begin hd he => exact ⟨by simp, h.returned⟩
  | keepalive hd ha => exact ⟨by simp, h.returned⟩
  | cancel hd => exact ⟨by simp, h.returned⟩
  | rollBack hd => exact ⟨by simpa using h.failure _ (.inl hd), h.returned⟩

lemma operation_of_asks (h : Asks u e u' operation)
    (hd : u'.doing = .requesting .begin) : operation = .begin := by
  cases h <;> simp_all

theorem reports_ui {outer : Link} {ui : Ui}
    (h : Reports s.ui s.outer.client) (hm : UiMoves s e outer ui) : Reports ui outer.client := by
  cases hm with
  | rests hidle =>
    refine ⟨⟨by simp [Ui.return], ?_⟩, by simp [Ui.return]⟩
    simpa [Ui.return] using h.returned
  | asks ha =>
    refine ⟨(h.toPast.asks ha).mono (Subset.refl _), fun hd => ?_⟩
    rintro q ⟨⟩
    exact operation_of_asks ha hd
  | asksInVain ha sending hr now =>
    have hsub : s.outer.client.accepted ⊆ outer.client.accepted := by
      cases sending <;> cases hr <;> exact Subset.refl _
    exact ((h.toPast.asks ha).mono hsub).told now fun r _ hzero _ => absurd hzero (PNat.ne_zero _)
  | skips hr =>
    obtain ⟨q, a, -, -, -, -, -, ho⟩ := receive_cases hr
    rcases ho with ⟨-, hc⟩ | ⟨ho, -⟩ | ⟨ho, -⟩
    · exact hc ▸ h
    · cases ho
    · cases ho
  | hears hr now =>
    obtain ⟨q, a, hq, -, -, -, -, ho⟩ := receive_cases hr
    rcases ho with ⟨ho, -⟩ | ⟨ho, hc⟩ | ⟨ho, -, hop, hc⟩ <;> cases ho
    · exact (h.toPast.mono (by simp [hc])).told now fun r _ hzero _ => by simp [eproto] at hzero
    · refine (h.toPast.mono (by simp [hc])).told now fun r hd hzero hanswer => ?_
      exact ⟨q, a, hanswer, by simp [hc], hop.trans (h.requesting hd q hq), hzero⟩
  | givesUp hr now =>
    obtain ⟨-, rfl, -⟩ := giveUp_cases hr
    have hpast : Past s.ui { s.outer.client with pending := none } := ⟨h.failure, h.returned⟩
    exact hpast.told now fun r _ hzero _ => absurd hzero (PNat.ne_zero _)

theorem reports_step (h : Reports s.ui s.outer.client)
    (hm : Moves s e s') : Reports s'.ui s'.outer.client := by
  cases hm with
  | ui hu => exact reports_ui h hu
  | launcher hs => simpa only [hs.client] using h
  | _ => exact h

/-! ### What lowers a lease -/

/-- A revocation upstream is due only after a cancellation, or a begin taken by a server that
found its own lease inactive. -/
def Due (stage : Stage) : Prop :=
  ∀ p w, stage = .revoke p w → p.operation = .cancel ∨ w = false

lemma due_step (h : Due s.outer.server.stage) (hm : Moves s e s') :
    Due s'.outer.server.stage := by
  have htold (e : ℕ) : Due (s.outer.server.stage.told e) := by
    intro p w hs
    cases hstage : s.outer.server.stage <;> simp_all [Stage.told]
  cases hm with
  | ui hu => rwa [hu.client.server]
  | launcher hs =>
    cases hs with
    | look clock hidle => simpa using h
    | take clock hidle hq hs =>
      obtain ⟨w, rfl⟩ := hs
      simp [Due]
    | settle hstage he hu => simp [Due]
    | fails hstage ha hw =>
      rintro p w ⟨⟩
      exact hw.symm
    | ends hstage ha => simp [Due]
  | asks hasks =>
    intro p w hs
    cases hstage : s.outer.server.stage <;> simp_all [Stage.asked, withStage]
  | asksInVain hasks sending hr => exact htold _
  | hears hr => exact htold _
  | givesUp hr => exact htold _
  | _ => exact h

/-- The packet a server deals with, and whether it found its lease active when it took it. -/
def Handles (stage : Stage) (p : Packet) (w : Bool) : Prop :=
  ∃ e, stage = .settled p w e ∨ stage = .forwarded p w e

/-- What can lower the lease of a server: it has run out, a look at it finds no clock, or the
server deals with a cancellation or with a begin it took without a lease. -/
def Lowered (now : ℕ) (l l' : Link) : Prop :=
  l'.server.untilMs < l.server.untilMs →
    l.server.untilMs ≤ now ∨ l'.server.unread = now :: l.server.unread ∨
      ∃ p w, Handles l.server.stage p w ∧ (p.operation = .cancel ∨ w = false)

lemma Lowered.refl {now : ℕ} (h : l'.server.untilMs = l.server.untilMs) :
    Lowered now l l' :=
  fun hlt => absurd h hlt.ne

lemma lowered_of_moves {now : ℕ}
    (hi : Sound l now) (h : ServerMoves now upstream ack l l') : Lowered now l l' := by
  have hlook {clock : Bool} (hlt : (l.server.look now clock).untilMs < l.server.untilMs) :
      l.server.untilMs ≤ now ∨ (l.server.look now clock).unread = now :: l.server.unread := by
    cases clock with
    | false => exact .inr rfl
    | true =>
      left
      by_contra hle
      simp [Server.look, hle] at hlt
  cases h with
  | look clock hidle => exact fun hlt => (hlook hlt).imp_right .inl
  | take clock hidle hq hs => exact fun hlt => (hlook hlt).imp_right .inl
  | @settle packet wasActive error error' untilMs hstage he hu =>
    intro hlt
    by_cases hcancel : packet.operation = .cancel
    · exact .inr (.inr ⟨packet, wasActive, ⟨error, .inr hstage⟩, .inl hcancel⟩)
    have := hi.lease
    rw [if_neg hcancel] at hu
    dsimp only at hlt
    split_ifs at hu <;> omega
  | @fails packet wasActive error acks hstage ha hw =>
    exact fun _ => .inr (.inr ⟨packet, wasActive, ⟨error, .inl hstage⟩, hw.symm⟩)
  | ends hstage ha => exact Lowered.refl rfl

theorem lowered_step (ho : Ordered s) (hm : Moves s e s') :
    Lowered s.now s.outer s'.outer ∧ Lowered s.now s.inner s'.inner := by
  cases hm with
  | tick ms => exact ⟨.refl rfl, .refl rfl⟩
  | ui hu => exact ⟨.refl (by rw [hu.client.server]), .refl rfl⟩
  | launcher hs => exact ⟨lowered_of_moves ho.1 hs, .refl rfl⟩
  | supervisor hs => exact ⟨.refl rfl, lowered_of_moves ho.2 hs⟩
  | asks hasks => exact ⟨.refl rfl, .refl rfl⟩
  | @asksInVain operation hasks sending inner error hr =>
    exact ⟨.refl rfl, .refl (by cases sending <;> cases hr <;> rfl)⟩
  | skips hr =>
    have hc : ClientMoves s.now s.inner _ := .receive hr
    exact ⟨.refl rfl, .refl (by rw [hc.server])⟩
  | hears hr =>
    have hc : ClientMoves s.now s.inner _ := .receive hr
    exact ⟨.refl rfl, .refl (by rw [hc.server])⟩
  | givesUp hr =>
    have hc : ClientMoves s.now s.inner _ := .giveUp hr
    exact ⟨.refl rfl, .refl (by rw [hc.server])⟩

/-- The launcher asks the supervisor to cancel only for a cancellation, or for a begin it took
without a lease. -/
theorem cancels_step (hdue : Due s.outer.server.stage)
    (hm : Moves s e s') {c : Packet} (hc : c ∈ s'.inner.requests) (hnew : c ∉ s.inner.requests)
    (hcancel : c.operation = .cancel) :
    ∃ p w, (s.outer.server.stage = .taken p w ∧ p.operation = .cancel) ∨
      (s.outer.server.stage = .revoke p w ∧ (p.operation = .cancel ∨ w = false)) := by
  cases hm with
  | @asks operation hasks =>
    have hop : operation = .cancel := by
      rcases mem_append.mp hc with hc | hc
      · exact absurd hc hnew
      · rw [← hcancel, mem_singleton.mp hc]
    unfold Stage.asks at hasks
    split at hasks
    · rename_i p w hstage
      exact ⟨p, w, .inl ⟨hstage, (some.inj hasks).trans hop⟩⟩
    · rename_i p w hstage
      exact ⟨p, w, .inr ⟨hstage, hdue p w hstage⟩⟩
    · cases hasks
  | supervisor hs =>
    exfalso
    cases hs <;> simp_all
  | @asksInVain operation hasks sending inner error hr =>
    refine absurd hc ?_
    cases sending <;> cases hr <;> exact hnew
  | skips hr =>
    obtain ⟨-, -, -, -, -, hrequests, -⟩ := receive_cases hr
    exact absurd (hrequests ▸ hc) hnew
  | hears hr =>
    obtain ⟨-, -, -, -, -, hrequests, -⟩ := receive_cases hr
    exact absurd (hrequests ▸ hc) hnew
  | givesUp hr =>
    obtain ⟨-, rfl, -⟩ := giveUp_cases hr
    exact absurd hc hnew
  | _ => exact absurd hc hnew

/-! ### After a begin that failed -/

/-- No begin is under way to the server or being dealt with. -/
structure Processed (l : Link) : Prop where
  requests : ∀ p ∈ l.requests, p.operation = .cancel
  packet : ∀ p, packetOf l.server.stage = some p → p.operation = .cancel

/-- No begin is left, and the UI makes none unless it is called to. -/
structure Spent (t : ℕ) (s : System) : Prop where
  active : s.ui.active = false
  doing : s.ui.doing ≠ .requesting .begin
  outer : Processed s.outer
  inner : Processed s.inner
  launcher : s.outer.server.untilMs ≤ t
  supervisor : s.inner.server.untilMs ≤ t

lemma told_active (ha : u.active = false) (hd : u.doing ≠ .requesting .begin) :
    (u.told now error answer).active = false := by
  unfold Ui.told Ui.return
  grind

lemma Processed.request (h : Processed l)
    (hcancel : operation = .cancel) (now : ℕ) (sending : Sending) :
    Processed (l.request operation now sending).1 := by
  cases sending with
  | sent =>
    refine ⟨fun p hp => ?_, h.packet⟩
    rcases mem_append.mp hp with hp | hp
    · exact h.requests p hp
    · rw [mem_singleton.mp hp, hcancel]
  | _ => exact ⟨h.requests, h.packet⟩

lemma requests_of_hears {now : ℕ} {o : Outcome}
    (h : l.receive = some (l', o) ∨ ∃ e, l.giveUp now e = some (l', o)) :
    l'.requests = l.requests := by
  rcases h with hr | ⟨e, hr⟩
  · obtain ⟨-, -, -, -, -, hrequests, -⟩ := receive_cases hr
    exact hrequests
  · obtain ⟨-, rfl, -⟩ := giveUp_cases hr
    rfl

lemma Processed.hears (h : Processed l) (now : ℕ) {o : Outcome}
    (hr : l.receive = some (l', o) ∨ ∃ e, l.giveUp now e = some (l', o)) : Processed l' := by
  have hserver : l'.server = l.server := by
    rcases hr with hr | ⟨e, hr⟩
    · exact (ClientMoves.receive hr : ClientMoves now l l').server
    · exact (ClientMoves.giveUp hr).server
  exact ⟨by rw [requests_of_hears hr]; exact h.requests, by rw [hserver]; exact h.packet⟩

lemma Processed.server {now : ℕ}
    (h : Processed l) (hm : ServerMoves now upstream ack l l') : Processed l' := by
  cases hm with
  | look clock hidle => exact ⟨h.requests, by simpa using h.packet⟩
  | take clock hidle hq hs =>
    obtain ⟨w, rfl⟩ := hs
    refine ⟨fun p hp => h.requests p (by simp [hq, hp]), fun p hp => ?_⟩
    refine h.requests p ?_
    cases upstream <;> simp_all [packetOf]
  | settle hstage he hu =>
    exact ⟨h.requests, fun p hp => h.packet p (by simpa [hstage, packetOf] using hp)⟩
  | fails hstage ha hw => exact ⟨h.requests, by cases upstream <;> simp [packetOf]⟩
  | ends hstage ha => exact ⟨h.requests, by simp [packetOf]⟩

lemma Processed.untilMs {now : ℕ}
    (h : Processed l) (hm : ServerMoves now upstream ack l l') (ht : l.server.untilMs ≤ t) :
    l'.server.untilMs ≤ t := by
  cases hm with
  | look clock hidle => exact (look_untilMs_le _ _ _).trans ht
  | take clock hidle hq hs => exact (look_untilMs_le _ _ _).trans ht
  | @settle packet wasActive error error' untilMs hstage he hu =>
    have hcancel := h.packet packet (by rw [hstage, packetOf])
    rw [if_pos hcancel] at hu
    exact hu.trans_le (Nat.zero_le _)
  | fails hstage ha hw => exact Nat.zero_le _
  | ends hstage ha => exact ht

lemma Processed.stage (h : Processed l) {stage : Stage}
    (hs : packetOf stage = packetOf l.server.stage) : Processed (withStage l stage) :=
  ⟨h.requests, fun p hp => h.packet p (hs ▸ hp)⟩

lemma asks_cancel (ha : u.active = false)
    (he : ∀ clock sending, e ≠ .uiCall .begin clock sending) (h : Asks u e u' operation) :
    operation = .cancel ∧ u'.active = false ∧ u'.doing ≠ .requesting .begin := by
  cases h with
  | begin hd hcall => exact absurd hcall (he _ _)
  | keepalive hd hactive => rw [ha] at hactive; cases hactive
  | cancel hd => simp
  | rollBack hd => simpa using ha

lemma spent_ui {outer : Link} {ui : Ui} (h : Spent t s)
    (he : ∀ clock sending, e ≠ .uiCall .begin clock sending) (hm : UiMoves s e outer ui) :
    ui.active = false ∧ ui.doing ≠ .requesting .begin ∧ Processed outer := by
  cases hm with
  | rests hidle => exact ⟨h.active, by simp [Ui.return], h.outer⟩
  | asks ha =>
    obtain ⟨hop, hactive, hdoing⟩ := asks_cancel h.active he ha
    exact ⟨hactive, hdoing, h.outer.request hop _ _⟩
  | @asksInVain ui operation ha sending outer error hr now =>
    obtain ⟨hop, hactive, hdoing⟩ := asks_cancel h.active he ha
    have ho := h.outer.request hop s.now sending
    rw [hr] at ho
    exact ⟨told_active hactive hdoing, told_doing, ho⟩
  | skips hr => exact ⟨h.active, h.doing, h.outer.hears s.now (.inl hr)⟩
  | hears hr now =>
    exact ⟨told_active h.active h.doing, told_doing, h.outer.hears s.now (.inl hr)⟩
  | givesUp hr now =>
    exact ⟨told_active h.active h.doing, told_doing, h.outer.hears s.now (.inr ⟨_, hr⟩)⟩

theorem spent_step (h : Spent t s)
    (he : ∀ clock sending, e ≠ .uiCall .begin clock sending) (hm : Moves s e s') :
    Spent t s' := by
  cases hm with
  | tick ms => exact { h with }
  | ui hu =>
    obtain ⟨hactive, hdoing, houter⟩ := spent_ui h he hu
    exact ⟨hactive, hdoing, houter, h.inner, by rw [hu.client.server]; exact h.launcher,
      h.supervisor⟩
  | launcher hs =>
    exact { h with outer := h.outer.server hs, launcher := h.outer.untilMs hs h.launcher }
  | supervisor hs =>
    exact { h with inner := h.inner.server hs, supervisor := h.inner.untilMs hs h.supervisor }
  | @asks operation hasks =>
    have hop : operation = .cancel := by
      unfold Stage.asks at hasks
      split at hasks
      · rename_i p w hstage
        exact (some.inj hasks).symm.trans (h.outer.packet p (by rw [hstage, packetOf]))
      · exact (some.inj hasks).symm
      · cases hasks
    exact { h with outer := h.outer.stage (packetOf_asked _), inner := h.inner.request hop _ _ }
  | @asksInVain operation hasks sending inner error hr =>
    refine ⟨h.active, h.doing, h.outer.stage (packetOf_told _ _), ?_, h.launcher, ?_⟩
    · cases sending <;> cases hr <;> exact ⟨h.inner.requests, h.inner.packet⟩
    · cases sending <;> cases hr <;> exact h.supervisor
  | skips hr =>
    have hc : ClientMoves s.now s.inner _ := .receive hr
    exact { h with inner := h.inner.hears s.now (.inl hr), supervisor := by rw [hc.server]; exact
      h.supervisor }
  | hears hr =>
    have hc : ClientMoves s.now s.inner _ := .receive hr
    exact ⟨h.active, h.doing, h.outer.stage (packetOf_told _ _),
      h.inner.hears s.now (.inl hr), h.launcher, by rw [hc.server]; exact h.supervisor⟩
  | givesUp hr =>
    have hc : ClientMoves s.now s.inner _ := .giveUp hr
    exact ⟨h.active, h.doing, h.outer.stage (packetOf_told _ _), h.inner.hears s.now (.inr ⟨_, hr⟩),
      h.launcher, by rw [hc.server]; exact h.supervisor⟩

/-! ### Runs -/

structure Invariant (s : System) : Prop where
  ordered : Ordered s
  backed : Backed s.now s.outer.server.stage s.inner
  vouches : Vouches s
  reports : Reports s.ui s.outer.client
  due : Due s.outer.server.stage

lemma invariant_initial : Invariant .initial where
  ordered := ordered_initial
  backed := by
    refine ⟨fun _ => rfl, ?_, ?_, ?_, ?_⟩ <;> simp [System.initial, Link.initial, Client.initial]
  vouches := vouches_initial
  reports := by refine ⟨⟨?_, ?_⟩, ?_⟩ <;> simp [System.initial]
  due := by simp [Due, System.initial, Link.initial]

lemma invariant_step (h : Invariant s) (hm : Moves s e s') :
    Invariant s' where
  ordered := ordered_step h.ordered hm
  backed := backed_step h.ordered h.backed hm
  vouches := vouches_step h.ordered h.backed h.vouches hm
  reports := reports_step h.reports hm
  due := due_step h.due hm

/-- What every step keeps holds at the end of a run. -/
theorem run_induction {p : System → Prop} {q : Event → Prop}
    (hstep : ∀ s e s', p s → q e → Moves s e s' → p s') {events : List Event}
    (hq : ∀ e ∈ events, q e) (h : p s) (hrun : s.run events = some s') : p s' := by
  induction events generalizing s with
  | nil => exact some.inj hrun ▸ h
  | cons e events ih =>
    obtain ⟨s₁, hs, hrest⟩ := bind_eq_some_iff.mp hrun
    exact ih (fun e he => hq e (mem_cons_of_mem _ he))
      (hstep s e s₁ h (hq e mem_cons_self) (step_moves hs)) hrest

lemma invariant_run {events : List Event}
    (hrun : System.initial.run events = some s) : Invariant s :=
  run_induction (q := fun _ => True) (fun _ _ _ h _ hm => invariant_step h hm) (fun _ _ => trivial)
    invariant_initial hrun

/-- What a begin that succeeded knows: the acknowledgement it went by was sent while both servers
held a lease, if that was within a lease of the begin, no look at the supervisor's lease
failed to read the clock in between, and the launcher's serial numbers have not wrapped. -/
def Begun (s : System) : Prop :=
  ∀ r ∈ s.ui.returned, r.call = .begin → r.error = 0 → ∃ q a, r.answer = some (q, a) ∧
    (q, a) ∈ s.outer.client.accepted ∧
    (s.inner.client.requests < 2 ^ 32 → a.sentAt < a.packet.sentAt + leaseMs →
      (∀ u ∈ s.inner.server.unread, ¬(a.packet.sentAt ≤ u ∧ u ≤ a.sentAt)) →
      a.sentAt < a.launcherUntil ∧ a.sentAt < a.supervisorUntil)

/-- After a begin that failed, once nothing of a begin is left to process, no server is active for
longer than a lease unless the UI begins again. -/
def Ebbs (s : System) : Prop :=
  (∀ e s', s.step e = some s' → ∀ r, s'.ui.returned = r :: s.ui.returned → r.call = .begin →
    r.error ≠ 0 → s'.ui.active = false ∧ s'.ui.doing = .nothing) ∧
  (s.ui.active = false → s.ui.doing ≠ .requesting .begin → Processed s.outer →
    Processed s.inner → ∀ events s', (∀ e ∈ events, ∀ clock sending,
      e ≠ .uiCall .begin clock sending) → s.run events = some s' →
    s'.outer.server.untilMs ≤ s.now + leaseMs ∧ s'.inner.server.untilMs ≤ s.now + leaseMs)

/-- No step lowers a lease but for the reasons of `Lowered`, and the launcher asks the supervisor
to cancel only for a cancellation, or for a begin it took without a lease of its own. -/
def Preserved (s : System) : Prop :=
  ∀ e s', s.step e = some s' → Lowered s.now s.outer s'.outer ∧ Lowered s.now s.inner s'.inner ∧
    ∀ c ∈ s'.inner.requests, c ∉ s.inner.requests → c.operation = .cancel →
      ∃ p w, (s.outer.server.stage = .taken p w ∧ p.operation = .cancel) ∨
        (s.outer.server.stage = .revoke p w ∧ (p.operation = .cancel ∨ w = false))

lemma Invariant.begun (h : Invariant s) : Begun s := by
  intro r hr hcall hzero
  obtain ⟨q, a, hanswer, hmem, hbegin, he⟩ := h.reports.returned r hr hcall hzero
  refine ⟨q, a, hanswer, hmem, fun hsmall hsoon hread => ?_⟩
  obtain ⟨hlauncher, hgranted⟩ := h.vouches.accepted (q, a) hmem hbegin he hsmall
  refine ⟨hsoon.trans_le hlauncher, ?_⟩
  rcases hgranted with hlease | hlate | ⟨u, hu, hbetween⟩
  · exact hsoon.trans_le hlease
  · exact absurd hlate (Nat.not_le.mpr hsoon)
  · exact absurd hbetween (hread u hu)

lemma told_begin
    (h : (u.told now error answer).returned = r :: u.returned) (hcall : r.call = .begin)
    (he : r.error ≠ 0) :
    (u.told now error answer).active = false ∧ (u.told now error answer).doing = .nothing := by
  cases hd : u.doing with
  | requesting c =>
    cases c
    · by_cases hzero : error = 0
      · simp only [Ui.told, Ui.return, hd, hzero, if_true, cons.injEq, and_true] at h
        exact absurd (h ▸ rfl) he
      · simp [Ui.told, hd, hzero] at h
    · simp only [Ui.told, Ui.return, hd, cons.injEq, and_true] at h
      simp [← h] at hcall
    · simp only [Ui.told, Ui.return, hd, cons.injEq, and_true] at h
      simp [← h] at hcall
  | rollingBack failure => simp [Ui.told, Ui.return, hd]
  | _ => simp [Ui.told, hd] at h

lemma begin_failed (hm : Moves s e s')
    (h : s'.ui.returned = r :: s.ui.returned) (hcall : r.call = .begin) (he : r.error ≠ 0) :
    s'.ui.active = false ∧ s'.ui.doing = .nothing := by
  have hsame (h : s.ui.returned = r :: s.ui.returned) : False := by simp at h
  cases hm with
  | ui hu =>
    cases hu with
    | rests hidle => grind [Ui.return]
    | asks ha => cases ha <;> exact (hsame h).elim
    | asksInVain ha sending hr now => cases ha <;> exact told_begin h hcall he
    | skips hr => exact (hsame h).elim
    | hears hr now => exact told_begin h hcall he
    | givesUp hr now => exact told_begin h hcall he
  | _ => exact (hsame h).elim

lemma Invariant.ebbs (h : Invariant s) : Ebbs s := by
  refine ⟨fun e s' hs r hr => begin_failed (step_moves hs) hr, ?_⟩
  intro hactive hdoing houter hinner events s' hcalls hrun
  have hspent : Spent (s.now + leaseMs) s :=
    ⟨hactive, hdoing, houter, hinner, h.ordered.1.lease, h.ordered.2.lease⟩
  have hend := run_induction (fun _ _ _ hs he hm => spent_step hs he hm) hcalls hspent hrun
  exact ⟨hend.launcher, hend.supervisor⟩

lemma Invariant.preserved (h : Invariant s) : Preserved s := by
  intro e s' hs
  obtain ⟨ho, hi⟩ := lowered_step h.ordered (step_moves hs)
  exact ⟨ho, hi, fun c hc hnew hcancel => cancels_step h.due (step_moves hs) hc hnew hcancel⟩

/-- **The shutdown handshake**, after any run: what a begin that succeeded knows, what is left of
one that failed, that an acknowledgement is accepted only for its own request unless the
serial numbers have wrapped, and what can take a lease away. -/
theorem shutdown_handshake {s : System} {events : List Event}
    (hrun : System.initial.run events = some s) :
    Begun s ∧ Ebbs s ∧
      (∀ x ∈ s.outer.client.accepted ++ s.inner.client.accepted, Genuine x) ∧ Preserved s := by
  have h := invariant_run hrun
  refine ⟨h.begun, h.ebbs, fun x hx => ?_, h.preserved⟩
  rcases mem_append.mp hx with hx | hx
  · exact h.ordered.1.accepted x hx
  · exact h.ordered.2.accepted x hx

/-- The launcher has passed a begin on and the supervisor has granted it. -/
def granting : List Event :=
  [.uiCall .begin true .sent, .launcherTake true, .launcherAsk .sent, .supervisorTake true,
    .supervisorSettle true, .supervisorAnswer true]

/-- The grant comes back to the UI. -/
def accepting : List Event :=
  [.launcherReceive, .launcherSettle true, .launcherAnswer true, .uiReceive true]

theorem shutdown_handshake_begin : ∃ s, System.initial.run (granting ++ accepting) = some s ∧
    s.ui.active = true ∧ Begun s ∧ Ebbs s ∧
      (∀ x ∈ s.outer.client.accepted ++ s.inner.client.accepted, Genuine x) ∧ Preserved s :=
  ⟨_, rfl, rfl, shutdown_handshake
    (show System.initial.run (granting ++ accepting) = some _ from rfl)⟩

/-- The launcher misses a renewal that the supervisor grants; when its own lease has run out it
cannot pass on the next one. -/
def lapsing : List Event :=
  [.tick 6000, .uiCall .keepalive true .sent, .launcherTake true, .launcherAsk .sent, .tick 1000,
    .launcherGiveUp etimedout, .launcherSettle true, .launcherAnswer true, .uiReceive true,
    .supervisorTake true, .supervisorSettle true, .supervisorAnswer true, .tick 23500,
    .uiCall .keepalive true .sent, .launcherTake true, .launcherAsk (.unsent 11),
    .launcherSettle true, .launcherAnswer true, .uiReceive true, .launcherAsk .sent,
    .supervisorTake true]

/-- **A begin succeeds on a lease the supervisor no longer holds**, after one look at it without a
clock; and **a renewal that fails revokes a lease that is still valid**, the supervisor's when
only the launcher's has run out. -/
theorem shutdown_handshake_fails :
    (∃ s q a, System.initial.run (granting ++ .supervisorLook false :: accepting) = some s ∧
      s.ui.returned = [⟨.begin, 0, some (q, a)⟩] ∧ a.supervisorUntil ≤ a.sentAt) ∧
    ∃ s s' answer before, System.initial.run (granting ++ accepting ++ lapsing) = some s ∧
      s.ui.returned = ⟨.keepalive, 11, answer⟩ :: before ∧ s.now < s.inner.server.untilMs ∧
      s.step (.supervisorSettle true) = some s' ∧ s'.inner.server.untilMs = 0 :=
  ⟨⟨_, _, _, rfl, rfl, by decide⟩, ⟨_, _, _, _, rfl, rfl, by decide, rfl, rfl⟩⟩

end C1auncher.Power.Handshake
