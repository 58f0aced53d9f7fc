import C1auncher.Power.Shutdown
import Mathlib.Data.List.Pairwise

/-!
What a step of the shutdown handshake does to its two links.

On each link the packets under way carry increasing request numbers, so an acknowledgement with
the serial number of the request a client waits for is the one of that request, unless the
serial numbers have wrapped.
-/

namespace C1auncher.Power.ShutdownMoves

open Power.Shutdown List Option

/-! ### Serial numbers -/

/-- The serial number of the `n`th request: they count from 1 and skip 0. -/
def serialOf : ℕ → ℕ
  | 0 => 0
  | n + 1 => n % (2 ^ 32 - 1) + 1

variable {c : Client} {o : Outcome} {s : System}

lemma serial_next (h : c.serial.toNat = serialOf c.requests) :
    c.next.serial.toNat = serialOf c.next.requests := by
  have hsum : (c.serial + 1).toNat = (c.serial.toNat + 1) % 2 ^ 32 := by simp
  have hzero : c.serial + 1 = 0 ↔ (c.serial.toNat + 1) % 2 ^ 32 = 0 := by
    rw [← UInt32.toNat_inj, hsum]
    simp
  unfold Client.next
  by_cases hwrap : c.serial + 1 = 0
  · have h1 := hzero.mp hwrap
    cases hn : c.requests <;> simp only [hwrap, if_pos, hn, serialOf, h] at h1 ⊢
    all_goals simp only [UInt32.toNat_one]; omega
  have h1 := mt hzero.mpr hwrap
  cases hn : c.requests <;> simp only [hwrap, if_neg, hn, serialOf, h, hsum, not_false_eq_true]
      at h1 ⊢
  all_goals omega

lemma apart_of_serial {m n : ℕ} (hm : 0 < m) (hle : m ≤ n) (h : serialOf m = serialOf n) :
    m = n ∨ m + (2 ^ 32 - 1) ≤ n := by
  obtain ⟨m, rfl⟩ := Nat.exists_eq_add_of_lt hm
  obtain ⟨n, rfl⟩ := Nat.exists_eq_add_of_lt (hm.trans_le hle)
  simp only [serialOf, Nat.zero_add] at *
  omega

/-! ### What is under way on a link -/

/-- The packet a poll still has to acknowledge. -/
def packetOf : Stage → Option Packet
  | .taken p _ | .waiting p _ | .forwarded p _ _ | .settled p _ _ => some p
  | _ => none

/-- The packets under way, the oldest first: those acknowledged, the one at the server, and those
not taken yet. -/
def flight (l : Link) : List Packet :=
  l.acks.map Ack.packet ++ (packetOf l.server.stage).toList ++ l.requests

structure Sent (c : Client) (now : ℕ) (p : Packet) : Prop where
  serial : p.serial.toNat = serialOf p.number
  pos : 0 < p.number
  le : p.number ≤ c.requests
  past : p.sentAt ≤ now

/-- An acknowledgement accepted for the request it acknowledges, or for one so much later that
the serial numbers have wrapped. -/
def Genuine (x : Packet × Ack) : Prop :=
  x.2.packet = x.1 ∨ x.2.packet.number + (2 ^ 32 - 1) ≤ x.1.number

/-- A client that made no new request. -/
structure Later (c c' : Client) : Prop where
  serial : c'.serial = c.serial
  requests : c'.requests = c.requests
  pending : ∀ q ∈ c'.pending, q ∈ c.pending
  accepted : ∀ x ∈ c'.accepted, x ∈ c.accepted ∨ Genuine x

structure Sound (l : Link) (now : ℕ) : Prop where
  serial : l.client.serial.toNat = serialOf l.client.requests
  ordered : (flight l).Pairwise (·.number < ·.number)
  sent : ∀ p ∈ flight l, Sent l.client now p
  pending : ∀ q ∈ l.client.pending, Sent l.client now q ∧ q.number = l.client.requests ∧
    ∀ p ∈ flight l, p.number = q.number → p = q
  accepted : ∀ x ∈ l.client.accepted, Genuine x
  lease : l.server.untilMs ≤ now + leaseMs

lemma Later.refl (c : Client) : Later c c :=
  ⟨rfl, rfl, fun _ => id, fun _ => .inl⟩

lemma Later.done (c : Client) : Later c { c with pending := none } :=
  ⟨rfl, rfl, by simp, fun _ => .inl⟩

lemma Sent.mono {c' : Client} {now now' : ℕ} {p : Packet} (h : Sent c now p)
    (hc : c.requests ≤ c'.requests) (hnow : now ≤ now') : Sent c' now' p :=
  ⟨h.serial, h.pos, h.le.trans hc, h.past.trans hnow⟩

lemma Sound.tick {l : Link} {now now' : ℕ} (h : Sound l now) (hnow : now ≤ now') :
    Sound l now' where
  serial := h.serial
  ordered := h.ordered
  sent p hp := (h.sent p hp).mono le_rfl hnow
  pending q hq := ⟨(h.pending q hq).1.mono le_rfl hnow, (h.pending q hq).2⟩
  accepted := h.accepted
  lease := h.lease.trans (Nat.add_le_add_right hnow _)

lemma Sound.of_sublist {l l' : Link} {now : ℕ} (h : Sound l now)
    (hclient : Later l.client l'.client)
    (hflight : (flight l').Sublist (flight l)) (hlease : l'.server.untilMs ≤ now + leaseMs) :
    Sound l' now where
  serial := by rw [hclient.serial, hclient.requests, h.serial]
  ordered := h.ordered.sublist hflight
  sent p hp := (h.sent p (hflight.subset hp)).mono hclient.requests.ge le_rfl
  pending q hq := by
    obtain ⟨hs, hn, hu⟩ := h.pending q (hclient.pending q hq)
    exact ⟨hs.mono hclient.requests.ge le_rfl, hn.trans hclient.requests.symm,
      fun p hp => hu p (hflight.subset hp)⟩
  accepted x hx := (hclient.accepted x hx).elim (h.accepted x) id
  lease := hlease

lemma sent_next {l : Link} {now : ℕ} (h : Sound l now)
    (hc : c.requests = l.client.requests + 1) :
    ∀ p ∈ flight l, Sent c now p ∧ p.number < c.requests := by
  intro p hp
  have hs := h.sent p hp
  exact ⟨hs.mono (by omega) le_rfl, by have := hs.le; omega⟩

lemma Sound.request {l : Link} {now : ℕ} (h : Sound l now) (operation : Operation)
    (sending : Sending) : Sound (l.request operation now sending).1 now := by
  cases sending with
  | refused e => exact h
  | unsent e =>
    refine ⟨serial_next h.serial, h.ordered, fun p hp => (sent_next h rfl p hp).1, ?_,
      h.accepted, h.lease⟩
    simp [Link.request]
  | sent =>
    simp only [Link.request]
    have hflight : flight { l with
        client := { l.client.next with
          pending := some ⟨operation, l.client.next.serial, l.client.next.requests, now⟩ }
        requests := l.requests ++
          [⟨operation, l.client.next.serial, l.client.next.requests, now⟩] } =
        flight l ++ [⟨operation, l.client.next.serial, l.client.next.requests, now⟩] := by
      simp [flight]
    have hnew : Sent l.client.next now
        ⟨operation, l.client.next.serial, l.client.next.requests, now⟩ :=
      ⟨serial_next h.serial, Nat.succ_pos _, le_rfl, le_rfl⟩
    refine ⟨serial_next h.serial, ?_, ?_, ?_, h.accepted, h.lease⟩
    · rw [hflight, pairwise_append]
      exact ⟨h.ordered, pairwise_singleton _ _, fun p hp q hq => by
        rw [mem_singleton.mp hq]
        exact (sent_next (c := l.client.next) h rfl p hp).2⟩
    · rw [hflight]
      intro p hp
      rcases mem_append.mp hp with hp | hp
      · exact (sent_next (c := l.client.next) h rfl p hp).1.mono le_rfl le_rfl
      · rw [mem_singleton.mp hp]
        exact hnew.mono le_rfl le_rfl
    · rw [hflight]
      rintro q ⟨⟩
      refine ⟨hnew.mono le_rfl le_rfl, rfl, fun p hp hn => ?_⟩
      rcases mem_append.mp hp with hp | hp
      · exact absurd hn (sent_next (c := l.client.next) h rfl p hp).2.ne
      · exact mem_singleton.mp hp

/-- What a client finds in the acknowledgement in front. -/
theorem receive_cases {l l' : Link} (hr : l.receive = some (l', o)) :
    ∃ q a, l.client.pending = some q ∧ l.acks = a :: l'.acks ∧ l'.server = l.server ∧
      l'.requests = l.requests ∧ l'.client.requests = l.client.requests ∧
      (o = .goesOn ∧ l'.client = l.client ∨
        o = .returns eproto none ∧ l'.client = { l.client with pending := none } ∨
        o = .returns a.error (some (q, a)) ∧ a.packet.serial = q.serial ∧
          a.packet.operation = q.operation ∧
          l'.client = { l.client with
            pending := none, accepted := (q, a) :: l.client.accepted }) := by
  unfold Link.receive at hr
  split at hr
  case h_2 => cases hr
  rename_i request ack acks hpending hacks
  refine ⟨request, ack, hpending, ?_⟩
  split_ifs at hr with hserial hop <;> cases hr
  · simp [hacks]
  · simp [hacks]
  · simp [hacks, not_not.mp hserial, not_not.mp (not_or.mp hop).1]

theorem giveUp_cases {l l' : Link} {now : ℕ} {e : Errno}
    (h : l.giveUp now e = some (l', o)) :
    o = .returns e none ∧ l' = { l with client := { l.client with pending := none } } ∧
      ∃ q, l.client.pending = some q := by
  unfold Link.giveUp at h
  split at h
  · rename_i q hq
    split_ifs at h
    cases h
    exact ⟨rfl, rfl, q, hq⟩
  · cases h

lemma Sound.receive {l l' : Link} {now : ℕ} (h : Sound l now)
    (hr : l.receive = some (l', o)) : Sound l' now := by
  obtain ⟨q, a, hq, hacks, hserver, hrequests, -, ho⟩ := receive_cases hr
  have hflight : flight l = a.packet :: flight l' := by
    simp [flight, hacks, hserver, hrequests]
  have htail : (flight l').Sublist (flight l) := by
    rw [hflight]
    exact sublist_cons_self _ _
  have hlease := hserver ▸ h.lease
  rcases ho with ⟨-, hc⟩ | ⟨-, hc⟩ | ⟨-, hserial, -, hc⟩
  · exact h.of_sublist (hc ▸ Later.refl _) htail hlease
  · exact h.of_sublist (hc ▸ Later.done _) htail hlease
  obtain ⟨hrequest, hnumber, hsame⟩ := h.pending q hq
  have hack : Sent l.client now a.packet := h.sent _ (by simp [hflight])
  have hgenuine : Genuine (q, a) := by
    have hserials : serialOf a.packet.number = serialOf q.number := by
      rw [← hack.serial, ← hrequest.serial, hserial]
    rcases apart_of_serial hack.pos (hack.le.trans_eq hnumber.symm) hserials with hn | hn
    · exact .inl (hsame _ (by simp [hflight]) hn)
    · exact .inr hn
  refine h.of_sublist ⟨by rw [hc], by rw [hc], by simp [hc], fun x hx => ?_⟩ htail hlease
  rw [hc] at hx
  rcases mem_cons.mp hx with rfl | hx
  · exact .inr hgenuine
  · exact .inl hx

lemma Sound.giveUp {l l' : Link} {now : ℕ} (h : Sound l now) {e : Errno}
    (hr : l.giveUp now e = some (l', o)) : Sound l' now := by
  obtain ⟨-, rfl, -⟩ := giveUp_cases hr
  exact h.of_sublist (Later.done _) (Sublist.refl _) h.lease

lemma look_untilMs_le (s : Server) (now : ℕ) (clock : Bool) :
    (s.look now clock).untilMs ≤ s.untilMs := by
  unfold Server.look
  grind

lemma Sound.stage {l : Link} {now : ℕ} (h : Sound l now) {stage : Stage}
    (hs : packetOf stage = packetOf l.server.stage) :
    Sound { l with server := { l.server with stage := stage } } now :=
  h.of_sublist (Later.refl _) (by simp [flight, hs]) h.lease

@[simp] lemma packetOf_asked (s : Stage) : packetOf s.asked = packetOf s := by
  cases s <;> rfl

@[simp] lemma packetOf_told (e : ℕ) (s : Stage) : packetOf (s.told e) = packetOf s := by
  cases s <;> rfl

/-! ### What a step does -/

inductive ClientMoves (now : ℕ) (l : Link) : Link → Prop
  | stays : ClientMoves now l l
  | request (operation : Operation) (sending : Sending) :
    ClientMoves now l (l.request operation now sending).1
  | receive {l' : Link} {o : Outcome} (h : l.receive = some (l', o)) : ClientMoves now l l'
  | giveUp {l' : Link} {o : Outcome} {e : Errno} (h : l.giveUp now e = some (l', o)) :
    ClientMoves now l l'

inductive ServerMoves (now : ℕ) (upstream : Bool) (ack : Packet → ℕ → Ack) (l : Link) :
    Link → Prop
  | look (clock : Bool) (h : l.server.stage = .idle) :
    ServerMoves now upstream ack l { l with server := l.server.look now clock }
  | take (clock : Bool) {packet : Packet} {requests : List Packet} {stage : Stage}
      (h : l.server.stage = .idle) (hq : l.requests = packet :: requests)
      (hs : ∃ w, stage = if upstream then .taken packet w else .forwarded packet w 0) :
    ServerMoves now upstream ack l
      { l with requests := requests, server := { l.server.look now clock with stage := stage } }
  | settle {packet : Packet} {wasActive : Bool} {error error' untilMs : ℕ}
      (h : l.server.stage = .forwarded packet wasActive error) (he : error' = 0 → error = 0)
      (hu : untilMs = if packet.operation = .cancel then 0
        else if error' = 0 then now + leaseMs else l.server.untilMs) :
    ServerMoves now upstream ack l
      { l with server := { l.server with
        untilMs := untilMs, stage := .settled packet wasActive error' } }
  | fails {packet : Packet} {wasActive : Bool} {error : ℕ} {acks : List Ack}
      (h : l.server.stage = .settled packet wasActive error)
      (ha : acks = l.acks ∨ error ≠ 0 ∧ acks = l.acks ++ [ack packet error])
      (hw : wasActive = false ∨ packet.operation = .cancel) :
    ServerMoves now upstream ack l
      { l with
        acks := acks
        server := { l.server with
          untilMs := 0, stage := if upstream then .revoke packet wasActive else .idle } }
  | ends {packet : Packet} {wasActive : Bool} {error : ℕ} {acks : List Ack}
      (h : l.server.stage = .settled packet wasActive error)
      (ha : acks = l.acks ∨ acks = l.acks ++ [ack packet error]) :
    ServerMoves now upstream ack l
      { l with acks := acks, server := { l.server with stage := .idle } }

def withStage (l : Link) (stage : Stage) : Link :=
  { l with server := { l.server with stage := stage } }

/-- The UI is about to make a request. -/
inductive Asks (u : Ui) (e : Event) : Ui → Operation → Prop
  | begin {clock : Bool} {sending : Sending} (h : u.doing = .nothing)
      (he : e = .uiCall .begin clock sending) :
    Asks u e { u with doing := .requesting .begin } .begin
  | keepalive (h : u.doing = .nothing) (ha : u.active = true) :
    Asks u e { u with doing := .requesting .keepalive } .begin
  | cancel (h : u.doing = .nothing) :
    Asks u e { u with active := false, doing := .requesting .cancel } .cancel
  | rollBack {error : ℕ} (h : u.doing = .failed error) :
    Asks u e { u with doing := .rollingBack error } .cancel

inductive UiMoves (s : System) (e : Event) : Link → Ui → Prop
  | rests (h : s.ui.doing = .nothing) : UiMoves s e s.outer (s.ui.return .keepalive 0 none)
  | asks {ui : Ui} {operation : Operation} (h : Asks s.ui e ui operation) :
    UiMoves s e (s.outer.request operation s.now .sent).1 ui
  | asksInVain {ui : Ui} {operation : Operation} (h : Asks s.ui e ui operation)
      (sending : Sending) {outer : Link} {error : Errno}
      (hr : s.outer.request operation s.now sending = (outer, some error)) (now : ℤ) :
    UiMoves s e outer (ui.told now error none)
  | skips {outer : Link} (h : s.outer.receive = some (outer, .goesOn)) : UiMoves s e outer s.ui
  | hears {outer : Link} {error : ℕ} {answer : Option (Packet × Ack)}
      (h : s.outer.receive = some (outer, .returns error answer)) (now : ℤ) :
    UiMoves s e outer (s.ui.told now error answer)
  | givesUp {outer : Link} {error : Errno}
      (h : s.outer.giveUp s.now error = some (outer, .returns error none)) (now : ℤ) :
    UiMoves s e outer (s.ui.told now error none)

inductive Moves (s : System) (e : Event) : System → Prop
  | tick (ms : ℕ) : Moves s e { s with now := s.now + ms }
  | ui {outer : Link} {ui : Ui} (h : UiMoves s e outer ui) :
    Moves s e { s with outer := outer, ui := ui }
  | launcher {outer : Link} (h : ServerMoves s.now true s.ack s.outer outer) :
    Moves s e { s with outer := outer }
  | supervisor {inner : Link} (h : ServerMoves s.now false s.ack s.inner inner) :
    Moves s e { s with inner := inner }
  | asks {operation : Operation} (h : s.outer.server.stage.asks = some operation) :
    Moves s e { s with
      inner := (s.inner.request operation s.now .sent).1
      outer := withStage s.outer s.outer.server.stage.asked }
  | asksInVain {operation : Operation} (h : s.outer.server.stage.asks = some operation)
      (sending : Sending) {inner : Link} {error : Errno}
      (hr : s.inner.request operation s.now sending = (inner, some error)) :
    Moves s e { s with
      inner := inner, outer := withStage s.outer (s.outer.server.stage.told error) }
  | skips {inner : Link} (h : s.inner.receive = some (inner, .goesOn)) :
    Moves s e { s with inner := inner }
  | hears {inner : Link} {error : ℕ} {answer : Option (Packet × Ack)}
      (h : s.inner.receive = some (inner, .returns error answer)) :
    Moves s e { s with
      inner := inner, outer := withStage s.outer (s.outer.server.stage.told error) }
  | givesUp {inner : Link} {error : Errno}
      (h : s.inner.giveUp s.now error = some (inner, .returns error none)) :
    Moves s e { s with
      inner := inner, outer := withStage s.outer (s.outer.server.stage.told error) }

lemma UiMoves.client {e : Event} {outer : Link} {ui : Ui}
    (h : UiMoves s e outer ui) : ClientMoves s.now s.outer outer := by
  cases h with
  | rests hidle => exact .stays
  | asks h => exact .request _ .sent
  | @asksInVain ui operation h sending outer error hr =>
    have hc : ClientMoves s.now s.outer (s.outer.request operation s.now sending).1 :=
      .request operation sending
    rwa [hr] at hc
  | skips hr => exact .receive hr
  | hears hr => exact .receive hr
  | givesUp hr => exact .giveUp hr

lemma moves_uiRequest {e : Event} {ui : Ui} {operation : Operation}
    (h : Asks s.ui e ui operation) (clock : Bool) (sending : Sending) :
    Moves s e ({ s with ui := ui }.uiRequest operation clock sending) := by
  cases sending with
  | refused error => exact .ui (.asksInVain h (.refused error) rfl _)
  | unsent error => exact .ui (.asksInVain h (.unsent error) rfl _)
  | sent => exact .ui (.asks h)

lemma moves_uiCall (h : s.ui.doing = .nothing) (clock : Bool) (sending : Sending)
    (call : Call) : Moves s (.uiCall call clock sending) (s.uiCall clock sending call) := by
  cases call
  · exact moves_uiRequest (.begin h rfl) clock sending
  · unfold System.uiCall
    split_ifs with hdue
    · exact .ui (.rests h)
    · exact moves_uiRequest (.keepalive h (by simpa using (not_or.mp hdue).1)) clock sending
  · exact moves_uiRequest (.cancel h) clock sending

@[simp] lemma look_stage (s : Server) (now : ℕ) (clock : Bool) :
    (s.look now clock).stage = s.stage := by
  unfold Server.look
  split_ifs <;> rfl

section
variable {now : ℕ} {upstream clock sent : Bool} {ack : Packet → ℕ → Ack} {l l' : Link}

lemma moves_lookIdle (h : l.lookIdle now clock = some l') : ServerMoves now upstream ack l l' := by
  unfold Link.lookIdle at h
  split at h
  · rename_i hidle
    cases h
    exact .look clock hidle
  · cases h

lemma moves_take (h : l.take upstream now clock = some l') :
    ServerMoves now upstream ack l l' := by
  unfold Link.take at h
  split at h
  · rename_i hidle hq
    cases h
    exact .take clock hidle hq ⟨_, rfl⟩
  · cases h

lemma moves_settle (h : l.settle now clock = some l') : ServerMoves now upstream ack l l' := by
  unfold Link.settle at h
  split at h
  · rename_i error hstage
    cases h
    refine .settle hstage (fun he => ?_) rfl
    grind [eio]
  · cases h

lemma moves_answer (h : l.answer upstream ack sent = some l') :
    ServerMoves now upstream ack l l' := by
  unfold Link.answer at h
  split at h
  · rename_i packet wasActive error hstage
    cases h
    by_cases hrevokes : (!sent ∨ error ≠ 0) ∧ (!wasActive ∨ packet.operation = .cancel)
    · simp only [hrevokes, and_self, if_true, true_and]
      refine .fails hstage ?_ (by simpa using hrevokes.2)
      cases sent
      · exact .inl rfl
      · exact .inr ⟨by simpa using hrevokes.1, rfl⟩
    · simp only [hrevokes, if_false, false_and]
      refine .ends hstage ?_
      cases sent
      · exact .inl rfl
      · exact .inr rfl
  · cases h

end

theorem step_moves {s s' : System} {e : Event} (hstep : s.step e = some s') : Moves s e s' := by
  cases e with
  | tick ms => cases hstep; exact .tick ms
  | uiCall call clock sending =>
    simp only [System.step] at hstep
    split_ifs at hstep with hidle
    cases hstep
    exact moves_uiCall hidle clock sending call
  | uiRollBack clock sending =>
    simp only [System.step] at hstep
    split at hstep
    · rename_i hfailed
      cases hstep
      exact moves_uiRequest (.rollBack hfailed) clock sending
    · cases hstep
  | uiReceive clock =>
    obtain ⟨⟨outer, o⟩, hx, rfl⟩ := map_eq_some_iff.mp hstep
    cases o
    · exact .ui (.skips hx)
    · exact .ui (.hears hx _)
  | uiGiveUp clock e =>
    obtain ⟨⟨outer, o⟩, hx, rfl⟩ := map_eq_some_iff.mp hstep
    obtain ⟨rfl, -⟩ := giveUp_cases hx
    exact .ui (.givesUp hx _)
  | launcherLook clock =>
    obtain ⟨x, hx, rfl⟩ := map_eq_some_iff.mp hstep
    exact .launcher (moves_lookIdle hx)
  | launcherTake clock =>
    obtain ⟨x, hx, rfl⟩ := map_eq_some_iff.mp hstep
    exact .launcher (moves_take hx)
  | launcherAsk sending =>
    obtain ⟨operation, h, rfl⟩ := map_eq_some_iff.mp hstep
    cases sending with
    | refused e => exact .asksInVain h (.refused e) rfl
    | unsent e => exact .asksInVain h (.unsent e) rfl
    | sent => exact .asks h
  | launcherReceive =>
    obtain ⟨⟨inner, o⟩, hx, rfl⟩ := map_eq_some_iff.mp hstep
    cases o
    · exact .skips hx
    · exact .hears hx
  | launcherGiveUp e =>
    obtain ⟨⟨inner, o⟩, hx, rfl⟩ := map_eq_some_iff.mp hstep
    obtain ⟨rfl, -⟩ := giveUp_cases hx
    exact .givesUp hx
  | launcherSettle clock =>
    obtain ⟨x, hx, rfl⟩ := map_eq_some_iff.mp hstep
    exact .launcher (moves_settle hx)
  | launcherAnswer sent =>
    obtain ⟨x, hx, rfl⟩ := map_eq_some_iff.mp hstep
    exact .launcher (moves_answer hx)
  | supervisorLook clock =>
    obtain ⟨x, hx, rfl⟩ := map_eq_some_iff.mp hstep
    exact .supervisor (moves_lookIdle hx)
  | supervisorTake clock =>
    obtain ⟨x, hx, rfl⟩ := map_eq_some_iff.mp hstep
    exact .supervisor (moves_take hx)
  | supervisorSettle clock =>
    obtain ⟨x, hx, rfl⟩ := map_eq_some_iff.mp hstep
    exact .supervisor (moves_settle hx)
  | supervisorAnswer sent =>
    obtain ⟨x, hx, rfl⟩ := map_eq_some_iff.mp hstep
    exact .supervisor (moves_answer hx)

lemma Sound.client {l l' : Link} {now : ℕ} (h : Sound l now) (hm : ClientMoves now l l') :
    Sound l' now := by
  cases hm with
  | stays => exact h
  | request operation sending => exact h.request operation sending
  | receive hr => exact h.receive hr
  | giveUp hr => exact h.giveUp hr

lemma Sound.server {l l' : Link} {now : ℕ} (h : Sound l now) {upstream : Bool}
    {ack : Packet → ℕ → Ack} (hack : ∀ p e, (ack p e).packet = p)
    (hm : ServerMoves now upstream ack l l') : Sound l' now := by
  have hlook (clock : Bool) := (look_untilMs_le l.server now clock).trans h.lease
  cases hm with
  | look clock hidle =>
    exact h.of_sublist (Later.refl _) (by simp [flight]) (hlook clock)
  | take clock hidle hq hs =>
    obtain ⟨w, rfl⟩ := hs
    refine h.of_sublist (Later.refl _) ?_ (hlook clock)
    cases upstream <;> simp [flight, hidle, hq, packetOf]
  | settle hstage he hu =>
    refine h.of_sublist (Later.refl _) (by simp [flight, hstage, packetOf]) ?_
    have := h.lease
    dsimp only
    split_ifs at hu <;> omega
  | fails hstage ha hw =>
    refine h.of_sublist (Later.refl _) ?_ (Nat.zero_le _)
    rcases ha with rfl | ⟨-, rfl⟩ <;> cases upstream <;> simp [flight, hstage, packetOf, hack]
  | ends hstage ha =>
    refine h.of_sublist (Later.refl _) ?_ h.lease
    rcases ha with rfl | rfl <;> simp [flight, hstage, packetOf, hack]

def Ordered (s : System) : Prop := Sound s.outer s.now ∧ Sound s.inner s.now

lemma ordered_initial : Ordered .initial := by
  have h : Sound .initial 0 := ⟨rfl, .nil, by simp [flight, Link.initial, packetOf],
    by simp [Link.initial, Client.initial], by simp [Link.initial, Client.initial],
    Nat.zero_le _⟩
  exact ⟨h, h⟩

theorem ordered_step {s s' : System} {e : Event} (h : Ordered s) (hm : Moves s e s') :
    Ordered s' := by
  obtain ⟨ho, hi⟩ := h
  cases hm with
  | tick ms => exact ⟨ho.tick (Nat.le_add_right _ _), hi.tick (Nat.le_add_right _ _)⟩
  | ui hu => exact ⟨ho.client hu.client, hi⟩
  | launcher hs => exact ⟨ho.server (fun _ _ => rfl) hs, hi⟩
  | supervisor hs => exact ⟨ho, hi.server (fun _ _ => rfl) hs⟩
  | asks _ => exact ⟨ho.stage (packetOf_asked _), hi.request _ _⟩
  | @asksInVain operation _ sending _ _ hr =>
    have hi' := hi.request operation sending
    rw [hr] at hi'
    exact ⟨ho.stage (packetOf_told _ _), hi'⟩
  | skips hr => exact ⟨ho, hi.receive hr⟩
  | hears hr => exact ⟨ho.stage (packetOf_told _ _), hi.receive hr⟩
  | givesUp hr => exact ⟨ho.stage (packetOf_told _ _), hi.giveUp hr⟩

lemma ClientMoves.server {now : ℕ} {l l' : Link} (h : ClientMoves now l l') :
    l'.server = l.server := by
  cases h with
  | stays => rfl
  | request operation sending => cases sending <;> rfl
  | receive hr =>
    obtain ⟨-, -, -, -, hserver, -⟩ := receive_cases hr
    exact hserver
  | giveUp hr =>
    obtain ⟨-, rfl, -⟩ := giveUp_cases hr
    rfl

lemma ServerMoves.client {now : ℕ} {upstream : Bool} {ack : Packet → ℕ → Ack} {l l' : Link}
    (h : ServerMoves now upstream ack l l') : l'.client = l.client := by
  cases h <;> rfl

/-- What only grows: the request numbers of a client and the failed looks at a lease. -/
structure Grows (l l' : Link) : Prop where
  requests : l.client.requests ≤ l'.client.requests
  unread : l.server.unread ⊆ l'.server.unread

lemma Grows.refl (l : Link) : Grows l l := ⟨le_rfl, Subset.refl _⟩

lemma ClientMoves.grows {now : ℕ} {l l' : Link} (h : ClientMoves now l l') : Grows l l' := by
  refine ⟨?_, by rw [h.server]; exact Subset.refl _⟩
  cases h with
  | stays => exact le_rfl
  | request operation sending => cases sending <;> simp [Link.request, Client.next]
  | receive hr =>
    obtain ⟨-, -, -, -, -, -, hnumber, -⟩ := receive_cases hr
    exact hnumber.ge
  | giveUp hr =>
    obtain ⟨-, rfl, -⟩ := giveUp_cases hr
    exact le_rfl

lemma ServerMoves.grows {now : ℕ} {upstream : Bool} {ack : Packet → ℕ → Ack} {l l' : Link}
    (h : ServerMoves now upstream ack l l') : Grows l l' := by
  have hlook (clock : Bool) : l.server.unread ⊆ (l.server.look now clock).unread := by
    unfold Server.look
    split_ifs <;> simp
  cases h with
  | look clock hidle => exact ⟨le_rfl, hlook clock⟩
  | take clock hidle hq hs => exact ⟨le_rfl, hlook clock⟩
  | settle hstage he hu => exact ⟨le_rfl, Subset.refl _⟩
  | fails hstage ha hw => exact ⟨le_rfl, Subset.refl _⟩
  | ends hstage ha => exact ⟨le_rfl, Subset.refl _⟩

lemma Moves.grows {s s' : System} {e : Event} (h : Moves s e s') : Grows s.inner s'.inner := by
  cases h with
  | tick ms => exact Grows.refl _
  | ui hu => exact Grows.refl _
  | launcher hs => exact Grows.refl _
  | supervisor hs => exact hs.grows
  | asks hasks => exact (ClientMoves.request _ _).grows
  | @asksInVain operation hasks sending inner error hr =>
    have hg : Grows s.inner (s.inner.request operation s.now sending).1 :=
      (ClientMoves.request operation sending).grows
    rwa [hr] at hg
  | skips hr => exact (ClientMoves.receive hr : ClientMoves s.now _ _).grows
  | hears hr => exact (ClientMoves.receive hr : ClientMoves s.now _ _).grows
  | givesUp hr => exact (ClientMoves.giveUp hr).grows

lemma ClientMoves.acks {now : ℕ} {l l' : Link} (h : ClientMoves now l l') :
    l'.acks ⊆ l.acks ∧ ∀ x ∈ l'.client.accepted, x ∈ l.client.accepted ∨ x.2 ∈ l.acks := by
  cases h with
  | stays => exact ⟨Subset.refl _, fun _ => .inl⟩
  | request operation sending => cases sending <;> exact ⟨Subset.refl _, fun _ => .inl⟩
  | receive hr =>
    obtain ⟨q, a, -, hacks, -, -, -, ho⟩ := receive_cases hr
    refine ⟨by simp [hacks], fun x hx => ?_⟩
    rcases ho with ⟨-, hc⟩ | ⟨-, hc⟩ | ⟨-, -, -, hc⟩ <;> rw [hc] at hx
    · exact .inl hx
    · exact .inl hx
    rcases mem_cons.mp hx with rfl | hx
    · exact .inr (by simp [hacks])
    · exact .inl hx
  | giveUp hr =>
    obtain ⟨-, rfl, -⟩ := giveUp_cases hr
    exact ⟨Subset.refl _, fun _ => .inl⟩

end C1auncher.Power.ShutdownMoves
