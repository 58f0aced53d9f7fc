import C1auncher.Power.ShutdownMoves

/-!
What the launcher knows of the supervisor's lease, and what its acknowledgement to the UI says
of both leases.

While the launcher waits for an acknowledgement of a begin, the supervisor's lease is no older
than the begin or has been lost for a reason on record; once it has the acknowledgement nothing
else is under way to the supervisor.
-/

namespace C1auncher.Power.ShutdownLease

open Power.Shutdown Power.ShutdownMoves List

/-! ### What the launcher knows of the supervisor's lease -/

/-- A lease granted at `t` or later, unless it has run out since or a look at it found no
clock. -/
def Granted (untilMs now : ℕ) (unread : List ℕ) (t : ℕ) : Prop :=
  t + leaseMs ≤ untilMs ∨ t + leaseMs ≤ now ∨ ∃ u ∈ unread, t ≤ u ∧ u ≤ now

abbrev Supervised (inner : Link) (now t : ℕ) : Prop :=
  Granted inner.server.untilMs now inner.server.unread t

/-- What stands behind the stages of the launcher's poll. -/
structure Backed (now : ℕ) (stage : Stage) (inner : Link) : Prop where
  alone : (∀ p w, stage ≠ .waiting p w ∧ stage ≠ .revoking p w) → inner.client.pending = none
  waiting : ∀ p w, stage = .waiting p w →
    ∀ q ∈ inner.client.pending, q.operation = p.operation ∧ p.sentAt ≤ q.sentAt
  settled : ∀ p w, inner.server.stage = .settled p w 0 → p.operation = .begin →
    Supervised inner now p.sentAt
  acked : ∀ a ∈ inner.acks, a.packet.operation = .begin → a.error = 0 →
    a.packet.number = inner.client.requests → Supervised inner now a.packet.sentAt
  done : ∀ p w, stage = .forwarded p w 0 ∨ stage = .settled p w 0 → p.operation = .begin →
    inner.client.requests < 2 ^ 32 →
    Supervised inner now p.sentAt ∧ inner.requests = [] ∧ packetOf inner.server.stage = none

variable {now t error : ℕ} {stage : Stage} {inner inner' : Link} {p : Packet} {a : Ack}
  {s s' : System}

lemma Granted.tick {untilMs now' : ℕ} {unread : List ℕ} (h : Granted untilMs now unread t)
    (hnow : now ≤ now') : Granted untilMs now' unread t := by
  rcases h with h | h | ⟨u, hu, hle, hpast⟩
  · exact .inl h
  · exact .inr (.inl (h.trans hnow))
  · exact .inr (.inr ⟨u, hu, hle, hpast.trans hnow⟩)

lemma Granted.before {untilMs t' : ℕ} {unread : List ℕ} (h : Granted untilMs now unread t)
    (ht : t' ≤ t) : Granted untilMs now unread t' := by
  rcases h with h | h | ⟨u, hu, hle, hpast⟩
  · exact .inl (by omega)
  · exact .inr (.inl (by omega))
  · exact .inr (.inr ⟨u, hu, ht.trans hle, hpast⟩)

lemma Granted.look {s : Server} (h : Granted s.untilMs now s.unread t) (ht : t ≤ now)
    (clock : Bool) : Granted (s.look now clock).untilMs now (s.look now clock).unread t := by
  unfold Server.look
  cases clock with
  | false => exact .inr (.inr ⟨now, by simp, ht, le_rfl⟩)
  | true =>
    rcases h with h | h | h
    · by_cases hout : s.untilMs ≤ now
      · exact .inr (.inl (h.trans hout))
      · exact .inl (by simpa [hout] using h)
    · exact .inr (.inl h)
    · exact .inr (.inr (by simpa using h))

lemma Backed.tick {now' : ℕ} (h : Backed now stage inner)
    (hnow : now ≤ now') : Backed now' stage inner where
  alone := h.alone
  waiting := h.waiting
  settled p w hs hp := (h.settled p w hs hp).tick hnow
  acked a ha hb he hn := (h.acked a ha hb he hn).tick hnow
  done p w hs hp hr := ((h.done p w hs hp hr).imp_left) (·.tick hnow)

lemma Backed.look {clock : Bool}
    (h : Backed now stage inner) (hi : Sound inner now)
    (huntil : inner'.server.untilMs = (inner.server.look now clock).untilMs)
    (hunread : inner'.server.unread = (inner.server.look now clock).unread)
    (hclient : inner'.client = inner.client) (hacks : inner'.acks = inner.acks)
    (hstage : ∀ p w, inner'.server.stage ≠ .settled p w 0)
    (hdone : inner.requests = [] → inner'.requests = [] ∧ packetOf inner'.server.stage = none)
    (hpast : ∀ p w, stage = .forwarded p w 0 ∨ stage = .settled p w 0 → p.sentAt ≤ now) :
    Backed now stage inner' := by
  have hkeeps {t : ℕ} (ht : t ≤ now) (hg : Supervised inner now t) : Supervised inner' now t := by
    unfold Supervised
    rw [huntil, hunread]
    exact hg.look ht clock
  refine ⟨?_, ?_, ?_, ?_, ?_⟩
  · rw [hclient]
    exact h.alone
  · rw [hclient]
    exact h.waiting
  · exact fun p w hs => absurd hs (hstage p w)
  · rw [hacks, hclient]
    intro a ha hb he hn
    exact hkeeps (hi.sent _ (by simp [flight, mem_map_of_mem ha])).past
      (h.acked a ha hb he hn)
  rw [hclient]
  intro p w hs hp hr
  obtain ⟨hg, hq, -⟩ := h.done p w hs hp hr
  exact ⟨hkeeps (hpast p w hs) hg, hdone hq⟩

lemma ack_lt {l : Link} (h : Sound l now)
    (hp : packetOf l.server.stage = some p) (ha : a ∈ l.acks) :
    a.packet.number < l.client.requests := by
  have hordered := h.ordered
  simp only [flight, hp, Option.toList_some, append_assoc, pairwise_append] at hordered
  have hlt : a.packet.number < p.number :=
    hordered.2.2 _ (mem_map_of_mem ha) p (by simp)
  exact hlt.trans_le (h.sent p (by simp [flight, hp])).le

lemma Backed.busy (h : Backed now stage inner)
    (hi : Sound inner now) (hp : packetOf inner.server.stage = some p)
    (hclient : inner'.client = inner.client)
    (hsettled : ∀ p w, inner'.server.stage = .settled p w 0 → p.operation = .begin →
      Supervised inner' now p.sentAt)
    (hacked : ∀ a ∈ inner'.acks, a ∈ inner.acks ∨ (a.packet.operation = .begin → a.error = 0 →
      Supervised inner' now a.packet.sentAt)) :
    Backed now stage inner' := by
  refine ⟨?_, ?_, hsettled, ?_, ?_⟩
  · rw [hclient]
    exact h.alone
  · rw [hclient]
    exact h.waiting
  · rw [hclient]
    intro a ha hb he hn
    rcases hacked a ha with hold | hnew
    · exact absurd hn (ack_lt hi hp hold).ne
    · exact hnew hb he
  · rw [hclient]
    intro q w hs hq hr
    obtain ⟨-, -, hnone⟩ := h.done q w hs hq hr
    rw [hp] at hnone
    cases hnone

lemma Backed.supervisor (h : Backed now stage inner) (hi : Sound inner now) {ack : Packet → ℕ → Ack}
    (hack : ∀ p e, (ack p e).packet = p ∧ (ack p e).error = e)
    (hpast : ∀ p w, stage = .forwarded p w 0 ∨ stage = .settled p w 0 → p.sentAt ≤ now)
    (hm : ServerMoves now false ack inner inner') : Backed now stage inner' := by
  cases hm with
  | look clock hidle =>
    exact h.look hi rfl rfl rfl rfl (by simp [hidle])
      (fun hq => ⟨hq, by simp [hidle, packetOf]⟩) hpast
  | take clock hidle hq hs =>
    obtain ⟨w, rfl⟩ := hs
    exact h.look hi rfl rfl rfl rfl (by simp) (by simp [hq]) hpast
  | @settle packet wasActive error error' untilMs hstage he hu =>
    have hp : packetOf inner.server.stage = some packet := by rw [hstage, packetOf]
    refine h.busy hi hp rfl ?_ fun a ha => .inl ha
    intro q w hs hq
    simp only [Stage.settled.injEq] at hs
    obtain ⟨rfl, rfl, rfl⟩ := hs
    have hpast := (hi.sent packet (by simp [flight, hp])).past
    simp only [hq, reduceCtorEq, if_false, if_true] at hu
    exact .inl (by dsimp only; omega)
  | @fails packet wasActive error acks hstage ha hw =>
    have hp : packetOf inner.server.stage = some packet := by rw [hstage, packetOf]
    refine h.busy hi hp rfl (by simp) fun a hmem => ?_
    rcases ha with rfl | ⟨he, rfl⟩
    · exact .inl hmem
    rcases mem_append.mp hmem with hmem | hmem
    · exact .inl hmem
    · rw [mem_singleton.mp hmem, (hack packet error).2]
      exact .inr fun _ hzero => absurd hzero he
  | @ends packet wasActive error acks hstage ha =>
    have hp : packetOf inner.server.stage = some packet := by rw [hstage, packetOf]
    refine h.busy hi hp rfl (by simp) fun a hmem => ?_
    rcases ha with rfl | rfl
    · exact .inl hmem
    rcases mem_append.mp hmem with hmem | hmem
    · exact .inl hmem
    rw [mem_singleton.mp hmem, (hack packet error).1, (hack packet error).2]
    right
    rintro hb rfl
    exact h.settled packet wasActive hstage hb

lemma Backed.launcher {outer outer' : Link} {ack : Packet → ℕ → Ack}
    (h : Backed now outer.server.stage inner) (hm : ServerMoves now true ack outer outer') :
    Backed now outer'.server.stage inner := by
  have hcalm {stage : Stage} (hnot : ∀ p w, stage ≠ .waiting p w)
      (halone : inner.client.pending = none)
      (hdone : ∀ p w, stage = .forwarded p w 0 ∨ stage = .settled p w 0 →
        outer.server.stage = .forwarded p w 0) :
      Backed now stage inner :=
    ⟨fun _ => halone, fun p w hs => absurd hs (hnot p w), h.settled, h.acked,
      fun p w hs => h.done p w (.inl (hdone p w hs))⟩
  cases hm with
  | look clock hidle => simpa using h
  | take clock hidle hq hs =>
    obtain ⟨w, rfl⟩ := hs
    exact hcalm (by simp) (h.alone (by simp [hidle])) (by simp)
  | settle hstage he hu =>
    refine hcalm (by simp) (h.alone (by simp [hstage])) fun p w hs => ?_
    simp only [reduceCtorEq, Stage.settled.injEq, false_or] at hs
    obtain ⟨rfl, rfl, rfl⟩ := hs
    rw [hstage, he rfl]
  | fails hstage ha hw => exact hcalm (by simp) (h.alone (by simp [hstage])) (by simp)
  | ends hstage ha => exact hcalm (by simp) (h.alone (by simp [hstage])) (by simp)

/-- A request that is under way or could not be made leaves no acknowledgement of the latest
request behind. -/
lemma Backed.request {stage' : Stage} (h : Backed now stage inner)
    (hi : Sound inner now) {operation : Operation} (sending : Sending)
    (halone : (∀ p w, stage' ≠ .waiting p w ∧ stage' ≠ .revoking p w) →
      (inner.request operation now sending).1.client.pending = none)
    (hwaiting : ∀ p w, stage' = .waiting p w →
      ∀ q ∈ (inner.request operation now sending).1.client.pending,
        q.operation = p.operation ∧ p.sentAt ≤ q.sentAt)
    (hdone : ∀ p w, ¬(stage' = .forwarded p w 0 ∨ stage' = .settled p w 0)) :
    Backed now stage' (inner.request operation now sending).1 := by
  have hserver : (inner.request operation now sending).1.server = inner.server := by
    cases sending <;> rfl
  have hacks : (inner.request operation now sending).1.acks = inner.acks := by
    cases sending <;> rfl
  refine ⟨halone, hwaiting, ?_, ?_, fun p w hs => absurd hs (hdone p w)⟩
  · simpa only [Supervised, hserver] using h.settled
  simp only [Supervised, hserver, hacks]
  intro a ha hb he hn
  refine h.acked a ha hb he ?_
  have hle := (hi.sent a.packet (by simp [flight, mem_map_of_mem ha])).le
  cases sending
  · exact hn
  all_goals
    have hnext : a.packet.number = inner.client.requests + 1 := hn
    omega

lemma Backed.told (h : Backed now stage inner) (hserver : inner'.server = inner.server)
    (hnumber : inner'.client.requests = inner.client.requests)
    (hacks : inner'.acks ⊆ inner.acks) (halone : inner'.client.pending = none)
    (hstage : ∃ p w, stage = .waiting p w ∨ stage = .revoking p w)
    (hdone : error = 0 → ∀ p w, stage = .waiting p w → p.operation = .begin →
      inner.client.requests < 2 ^ 32 →
      Supervised inner now p.sentAt ∧ inner'.requests = [] ∧ packetOf inner.server.stage = none) :
    Backed now (stage.told error) inner' := by
  refine ⟨fun _ => halone, by simp [halone], ?_, ?_, ?_⟩
  · simpa only [Supervised, hserver] using h.settled
  · simp only [Supervised, hserver, hnumber]
    exact fun a ha => h.acked a (hacks ha)
  simp only [Supervised, hserver, hnumber]
  intro p w hs hp hr
  obtain ⟨q, v, rfl | rfl⟩ := hstage
  · simp only [Stage.told, Stage.forwarded.injEq, reduceCtorEq, or_false] at hs
    obtain ⟨rfl, rfl, rfl⟩ := hs
    exact hdone rfl _ _ rfl hp hr
  · simp [Stage.told] at hs

lemma Backed.waits (h : Backed now stage inner)
    {q : Packet} (hq : inner.client.pending = some q) :
    ∃ p w, stage = .waiting p w ∨ stage = .revoking p w := by
  by_contra hnot
  push Not at hnot
  rw [h.alone hnot] at hq
  cases hq

lemma quiet_of_latest {l l' : Link} (h : Sound l now)
    (hacks : l.acks = a :: l'.acks) (hserver : l'.server = l.server)
    (hrequests : l'.requests = l.requests) (hn : a.packet.number = l.client.requests) :
    l'.requests = [] ∧ packetOf l.server.stage = none := by
  have hflight : flight l = a.packet :: flight l' := by
    simp [flight, hacks, hserver, hrequests]
  have hempty : flight l' = [] := by
    rw [eq_nil_iff_forall_not_mem]
    intro p hp
    have hlt := rel_of_pairwise_cons (hflight ▸ h.ordered) hp
    have hle := (h.sent p (by simp [hflight, hp])).le
    omega
  simp only [flight, hserver, append_eq_nil_iff, Option.toList_eq_nil_iff] at hempty
  exact ⟨hempty.2, hempty.1.2⟩

lemma Backed.hears
    {answer : Option (Packet × Ack)} (h : Backed now stage inner) (hi : Sound inner now)
    (hr : inner.receive = some (inner', .returns error answer)) :
    Backed now (stage.told error) inner' := by
  have hi' := hi.receive hr
  obtain ⟨q, a, hq, hacks, hserver, hrequests, hnumber, ho⟩ := receive_cases hr
  have hsub : inner'.acks ⊆ inner.acks := by simp [hacks]
  rcases ho with ⟨ho, -⟩ | ⟨ho, hclient⟩ | ⟨ho, -, hop, hclient⟩ <;> cases ho
  · exact h.told hserver hnumber hsub (by simp [hclient]) (h.waits hq)
      (fun he => by simp [eproto] at he)
  refine h.told hserver hnumber hsub (by simp [hclient]) (h.waits hq) ?_
  intro he p w hs hp hsmall
  obtain ⟨hop', hle⟩ := h.waiting p w hs q hq
  have hsame : a.packet = q := by
    refine (hi'.accepted (q, a) (by simp [hclient])).resolve_right fun hwrap => ?_
    have hpos := (hi.sent a.packet (by simp [flight, hacks])).pos
    have hlast := (hi.pending q hq).2.1
    dsimp only at hwrap
    omega
  have hn : a.packet.number = inner.client.requests := by rw [hsame, (hi.pending q hq).2.1]
  have hgranted := h.acked a (by simp [hacks]) (by rw [hop, hop', hp]) he hn
  exact ⟨hgranted.before (hsame ▸ hle), quiet_of_latest hi hacks hserver hrequests hn⟩

lemma Backed.givesUp {e : Errno} {o : Outcome}
    (h : Backed now stage inner) (hr : inner.giveUp now e = some (inner', o)) :
    Backed now (stage.told e) inner' := by
  obtain ⟨-, rfl, q, hq⟩ := giveUp_cases hr
  exact h.told rfl rfl (Subset.refl _) rfl (h.waits hq) (fun he => absurd he e.ne_zero)

theorem backed_step {e : Event} (ho : Ordered s)
    (h : Backed s.now s.outer.server.stage s.inner) (hm : Moves s e s') :
    Backed s'.now s'.outer.server.stage s'.inner := by
  have hpast {p : Packet} (hp : packetOf s.outer.server.stage = some p) : p.sentAt ≤ s.now :=
    (ho.1.sent p (by simp [flight, hp])).past
  cases hm with
  | tick ms => exact h.tick (Nat.le_add_right _ _)
  | ui hu => simpa only [hu.client.server] using h
  | launcher hs => exact h.launcher hs
  | supervisor hs =>
    refine h.supervisor ho.2 (fun _ _ => ⟨rfl, rfl⟩) ?_ hs
    rintro p w (hs | hs) <;> exact hpast (by rw [hs, packetOf])
  | @asks operation hasks =>
    have hstage : (∃ p w, s.outer.server.stage = .taken p w ∧ operation = p.operation) ∨
        ∃ p w, s.outer.server.stage = .revoke p w := by
      unfold Stage.asks at hasks
      split at hasks <;> simp_all
    refine h.request ho.2 .sent ?_ ?_ ?_
    all_goals rcases hstage with ⟨p, w, hstage, rfl⟩ | ⟨p, w, hstage⟩
    all_goals simp only [withStage, hstage, Stage.asked]
    · exact fun hnot => absurd rfl (hnot p w).1
    · exact fun hnot => absurd rfl (hnot p w).2
    · rintro q v ⟨⟩ r ⟨⟩
      exact ⟨rfl, hpast (by rw [hstage, packetOf])⟩
    · simp
    · simp
    · simp
  | @asksInVain operation hasks sending inner error hr =>
    have hpending : s.inner.client.pending = none := by
      refine h.alone fun p w => ⟨fun hs => ?_, fun hs => ?_⟩ <;> simp [hs, Stage.asks] at hasks
    have hnone : (s.inner.request operation s.now sending).1.client.pending = none := by
      cases sending
      · exact hpending
      · rfl
      · cases hr
    have hinner : (s.inner.request operation s.now sending).1 = inner := by rw [hr]
    have hstage : ∀ p w, ¬(s.outer.server.stage.told error = .forwarded p w 0 ∨
        s.outer.server.stage.told error = .settled p w 0) := by
      intro p w
      unfold Stage.asks at hasks
      split at hasks <;> simp_all [Stage.told]
    rw [← hinner]
    exact h.request ho.2 sending (fun _ => hnone) (by simp [hnone]) hstage
  | skips hr =>
    obtain ⟨q, a, -, hacks, hserver, hrequests, -, ho⟩ := receive_cases hr
    rcases ho with ⟨-, hclient⟩ | ⟨ho, -⟩ | ⟨ho, -⟩
    · refine ⟨hclient ▸ h.alone, hclient ▸ h.waiting, ?_, ?_, ?_⟩
      · simpa only [Supervised, hserver] using h.settled
      · simp only [Supervised, hserver, hclient]
        exact fun b hb => h.acked b (by simp [hacks, hb])
      · simpa only [Supervised, hserver, hclient, hrequests] using h.done
    · cases ho
    · cases ho
  | hears hr => exact h.hears ho.2 hr
  | givesUp hr => exact h.givesUp hr

/-! ### What an acknowledgement says -/

/-- An acknowledgement of a begin that succeeded was sent with both leases granted no earlier
than the begin. -/
def Vouched (s : System) (a : Ack) : Prop :=
  a.packet.operation = .begin → a.error = 0 → s.inner.client.requests < 2 ^ 32 →
    a.packet.sentAt + leaseMs ≤ a.launcherUntil ∧
    Granted a.supervisorUntil a.sentAt s.inner.server.unread a.packet.sentAt

structure Vouches (s : System) : Prop where
  settled : ∀ p w, s.outer.server.stage = .settled p w 0 → p.operation = .begin →
    p.sentAt + leaseMs ≤ s.outer.server.untilMs
  acks : ∀ a ∈ s.outer.acks, Vouched s a
  accepted : ∀ x ∈ s.outer.client.accepted, Vouched s x.2

lemma vouches_initial : Vouches .initial := by
  refine ⟨?_, ?_, ?_⟩ <;> simp [System.initial, Link.initial, Client.initial]

lemma Vouched.mono (h : Vouched s a) (hg : Grows s.inner s'.inner) :
    Vouched s' a := by
  intro hb he hr
  obtain ⟨hl, hs⟩ := h hb he (hg.requests.trans_lt hr)
  refine ⟨hl, hs.imp_right (.imp_right ?_)⟩
  rintro ⟨u, hu, ht⟩
  exact ⟨u, hg.unread hu, ht⟩

lemma settled_told {e : ℕ} {w : Bool}
    (h : stage.told e = .settled p w error) : stage = .settled p w error := by
  cases stage <;> simp_all [Stage.told]

lemma settled_asked {w : Bool}
    (h : stage.asked = .settled p w error) : stage = .settled p w error := by
  cases stage <;> simp_all [Stage.asked]

theorem vouches_step {e : Event} (ho : Ordered s)
    (hb : Backed s.now s.outer.server.stage s.inner) (h : Vouches s) (hm : Moves s e s') :
    Vouches s' := by
  have hgrows := hm.grows
  have hkeeps : (∀ a ∈ s.outer.acks, Vouched s' a) ∧
      ∀ x ∈ s.outer.client.accepted, Vouched s' x.2 :=
    ⟨fun a ha => (h.acks a ha).mono hgrows, fun x hx => (h.accepted x hx).mono hgrows⟩
  cases hm with
  | tick ms => exact ⟨h.settled, hkeeps.1, hkeeps.2⟩
  | ui hu =>
    obtain ⟨hacks, haccepted⟩ := hu.client.acks
    refine ⟨by simpa only [hu.client.server] using h.settled, fun a ha => hkeeps.1 a (hacks ha),
      fun x hx => ?_⟩
    exact (haccepted x hx).elim (hkeeps.2 x) (hkeeps.1 x.2)
  | supervisor hs => exact ⟨h.settled, hkeeps.1, hkeeps.2⟩
  | asks hasks => exact ⟨fun p w hs => h.settled p w (settled_asked hs), hkeeps.1, hkeeps.2⟩
  | asksInVain hasks sending hr =>
    exact ⟨fun p w hs => h.settled p w (settled_told hs), hkeeps.1, hkeeps.2⟩
  | skips hr => exact ⟨h.settled, hkeeps.1, hkeeps.2⟩
  | hears hr => exact ⟨fun p w hs => h.settled p w (settled_told hs), hkeeps.1, hkeeps.2⟩
  | givesUp hr => exact ⟨fun p w hs => h.settled p w (settled_told hs), hkeeps.1, hkeeps.2⟩
  | launcher hs =>
    cases hs with
    | look clock hidle => exact ⟨by simp [hidle], hkeeps.1, hkeeps.2⟩
    | take clock hidle hq hs =>
      obtain ⟨w, rfl⟩ := hs
      exact ⟨by simp, hkeeps.1, hkeeps.2⟩
    | @settle packet wasActive error error' untilMs hstage he hu =>
      refine ⟨fun p w hs hp => ?_, hkeeps.1, hkeeps.2⟩
      simp only [Stage.settled.injEq] at hs
      obtain ⟨rfl, rfl, rfl⟩ := hs
      have hpast := (ho.1.sent packet (by simp [flight, hstage, packetOf])).past
      simp only [hp, reduceCtorEq, if_false, if_true] at hu
      dsimp only
      omega
    | @fails packet wasActive error acks hstage ha hw =>
      refine ⟨by simp, fun a hmem => ?_, hkeeps.2⟩
      rcases ha with rfl | ⟨he, rfl⟩
      · exact hkeeps.1 a hmem
      rcases mem_append.mp hmem with hmem | hmem
      · exact hkeeps.1 a hmem
      · rw [mem_singleton.mp hmem]
        exact fun _ hzero => absurd hzero he
    | @ends packet wasActive error acks hstage ha =>
      refine ⟨by simp, fun a hmem => ?_, hkeeps.2⟩
      rcases ha with rfl | rfl
      · exact hkeeps.1 a hmem
      rcases mem_append.mp hmem with hmem | hmem
      · exact hkeeps.1 a hmem
      rw [mem_singleton.mp hmem]
      rintro hbegin (rfl : error = 0) hr
      exact ⟨h.settled packet wasActive hstage hbegin,
        (hb.done packet wasActive (.inr hstage) hbegin hr).1⟩

end C1auncher.Power.ShutdownLease
