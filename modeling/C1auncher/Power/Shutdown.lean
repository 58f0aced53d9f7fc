import Mathlib.Data.PNat.Basic
import Mathlib.Data.List.Basic

/-!
The shutdown handshake: the client and the server of `c1_shutdown`, the calls of the UI, and
the system of UI, launcher and supervisor they make up.

Two links carry packets, from the UI to the launcher and from the launcher to the supervisor.
The launcher answers a packet only after a request of its own to the supervisor, so a poll of
its server goes through several stages. Every step of the system is one event: a process does
one thing, its clock and its sends work or fail as the event says, and time passes only in
`tick`.
-/

namespace C1auncher.Power.Shutdown

/-- `C1_SHUTDOWN_ACK_MS` -/
def ackMs : ℕ := 1000

/-- `C1_SHUTDOWN_LEASE_MS` -/
def leaseMs : ℕ := 30000

/-- `C1_SHUTDOWN_RENEW_MS` -/
def renewMs : ℕ := 5000

/-- `INT_MAX` -/
def intMax : ℕ := 2 ^ 31 - 1

/-- An error number: zero is success. -/
abbrev Errno := ℕ+

def eio : Errno := 5
def eproto : Errno := 71
def etimedout : Errno := 110

/-! ### Packets and endpoints -/

inductive Operation | begin | cancel
  deriving DecidableEq

/-- A `shutdown_packet` as a client sends it. Its magic and version are the constants the
server asks for. The number, counting the requests of its client, and the time are not sent. -/
structure Packet where
  operation : Operation
  serial : UInt32
  number : ℕ
  sentAt : ℕ
  deriving DecidableEq

/-- The packet a server sends back, with the `SHUTDOWN_ACK` bit and its error. The rest is not
sent: when that was, and until when the two servers held a lease at that moment. -/
structure Ack where
  packet : Packet
  error : ℕ
  sentAt : ℕ
  launcherUntil : ℕ
  supervisorUntil : ℕ
  deriving DecidableEq

/-- `c1_shutdown_client`, with the request it waits for. Not in the source: how many requests it
made, and which acknowledgement it accepted for which of them. -/
structure Client where
  serial : UInt32
  requests : ℕ
  pending : Option Packet
  accepted : List (Packet × Ack)
  deriving DecidableEq

/-- Where a `c1_shutdown_server_poll` stands. It knows the packet it took and whether its lease
was active then. -/
inductive Stage
  | idle
  | taken (packet : Packet) (wasActive : Bool)
  | waiting (packet : Packet) (wasActive : Bool)
  | forwarded (packet : Packet) (wasActive : Bool) (error : ℕ)
  | settled (packet : Packet) (wasActive : Bool) (error : ℕ)
  | revoke (packet : Packet) (wasActive : Bool)
  | revoking (packet : Packet) (wasActive : Bool)
  deriving DecidableEq

/-- `c1_shutdown_server`: `until_ms` and the poll in progress. `unread` keeps the times at which
a look at the lease found no clock. -/
structure Server where
  untilMs : ℕ
  stage : Stage
  unread : List ℕ
  deriving DecidableEq

/-- A client, the server at the other end, and what is under way between them. -/
structure Link where
  client : Client
  requests : List Packet
  server : Server
  acks : List Ack
  deriving DecidableEq

/-! ### The client -/

/-- `if (++client->serial == 0) ++client->serial` -/
def Client.next (c : Client) : Client :=
  { c with
    serial := if c.serial + 1 = 0 then 1 else c.serial + 1
    requests := c.requests + 1 }

/-- How a request gets its packet out: it stops before it takes a serial number (no endpoint, no
clock), its send fails, or the packet is under way. -/
inductive Sending
  | refused (error : Errno)
  | unsent (error : Errno)
  | sent
  deriving DecidableEq

/-- The first half of `c1_shutdown_client_request`, with the error it returns if the packet is
not under way. A client waits for one request at a time. -/
def Link.request (l : Link) (operation : Operation) (now : ℕ) : Sending → Link × Option Errno
  | .refused e => (l, some e)
  | .unsent e => ({ l with client := { l.client.next with pending := none } }, some e)
  | .sent =>
    let client := l.client.next
    let packet : Packet := ⟨operation, client.serial, client.requests, now⟩
    ({ l with
      client := { client with pending := some packet }
      requests := l.requests ++ [packet] }, none)

/-- What one turn of the loop of `c1_shutdown_client_request` comes to. -/
inductive Outcome
  | goesOn
  | returns (error : ℕ) (answer : Option (Packet × Ack))
  deriving DecidableEq

/-- The client reads the acknowledgement in front. A process may be held up between its look at
the clock and its read, so this can come at any time. -/
def Link.receive (l : Link) : Option (Link × Outcome) :=
  match l.client.pending, l.acks with
  | some request, ack :: acks =>
    let l := { l with acks := acks }
    let done := { l with client := { l.client with pending := none } }
    if ack.packet.serial ≠ request.serial then
      -- a timed-out request's acknowledgement
      some (l, .goesOn)
    else if ack.packet.operation ≠ request.operation ∨ intMax < ack.error then
      some (done, .returns eproto none)
    else
      some ({ done with client := { done.client with
          accepted := (request, ack) :: l.client.accepted } },
        .returns ack.error (some (request, ack)))
  | _, _ => none

/-- The client leaves its loop without an acknowledgement: after `C1_SHUTDOWN_ACK_MS`, or at any
time when its clock, its poll or its socket fails. -/
def Link.giveUp (l : Link) (now : ℕ) (e : Errno) : Option (Link × Outcome) :=
  match l.client.pending with
  | some request =>
    if e = etimedout ∧ now < request.sentAt + ackMs then none
    else some ({ l with client := { l.client with pending := none } }, .returns e none)
  | none => none

/-! ### The server -/

/-- `c1_shutdown_server_active`: the lease after the look. -/
def Server.look (s : Server) (now : ℕ) (clock : Bool) : Server :=
  if clock then { s with untilMs := if s.untilMs ≤ now then 0 else s.untilMs }
  else { s with untilMs := 0, unread := now :: s.unread }

/-- The server takes one packet and looks at its lease. Without an upstream client its own part
comes next. -/
def Link.take (l : Link) (upstream : Bool) (now : ℕ) (clock : Bool) : Option Link :=
  match l.server.stage, l.requests with
  | .idle, packet :: requests =>
    let server := l.server.look now clock
    let wasActive := server.untilMs ≠ 0
    some { l with
      requests := requests
      server := { server with
        stage := if upstream then .taken packet wasActive else .forwarded packet wasActive 0 } }
  | _, _ => none

/-- Between two polls a process only looks at its lease. -/
def Link.lookIdle (l : Link) (now : ℕ) (clock : Bool) : Option Link :=
  match l.server.stage with
  | .idle => some { l with server := l.server.look now clock }
  | _ => none

/-- The operation the server is about to ask of its upstream. -/
def Stage.asks : Stage → Option Operation
  | .taken packet _ => some packet.operation
  | .revoke _ _ => some .cancel
  | _ => none

/-- Its packet upstream is under way. -/
def Stage.asked : Stage → Stage
  | .taken packet wasActive => .waiting packet wasActive
  | .revoke packet wasActive => .revoking packet wasActive
  | stage => stage

/-- Its request upstream has returned. -/
def Stage.told (error : ℕ) : Stage → Stage
  | .taken packet wasActive | .waiting packet wasActive => .forwarded packet wasActive error
  | .revoke _ _ | .revoking _ _ => .idle
  | stage => stage

/-- The server enters or leaves the state before it acknowledges. -/
def Link.settle (l : Link) (now : ℕ) (clock : Bool) : Option Link :=
  match l.server.stage with
  | .forwarded packet wasActive error =>
    let error := if !clock ∧ error = 0 then (eio : ℕ) else error
    let untilMs := if packet.operation = .cancel then 0
      else if error = 0 then now + leaseMs else l.server.untilMs
    some { l with server := { l.server with
      untilMs := untilMs, stage := .settled packet wasActive error } }
  | _ => none

/-- The acknowledgement goes out or fails to. A failure revokes what this packet brought about,
but a failed renewal leaves the lease alone. -/
def Link.answer (l : Link) (upstream : Bool) (ack : Packet → ℕ → Ack) (sent : Bool) :
    Option Link :=
  match l.server.stage with
  | .settled packet wasActive error =>
    let acks := if sent then l.acks ++ [ack packet error] else l.acks
    let revokes := (!sent ∨ error ≠ 0) ∧ (!wasActive ∨ packet.operation = .cancel)
    some { l with
      acks := acks
      server := { l.server with
        untilMs := if revokes then 0 else l.server.untilMs
        stage := if revokes ∧ upstream then .revoke packet wasActive else .idle } }
  | _ => none

/-! ### The UI -/

/-- `c1_shutdown_begin`, `c1_shutdown_keepalive` and `c1_shutdown_cancel` -/
inductive Call | begin | keepalive | cancel
  deriving DecidableEq

/-- What a call returned, with the acknowledgement that satisfied its request. -/
structure Returned where
  call : Call
  error : ℕ
  answer : Option (Packet × Ack)
  deriving DecidableEq

/-- What the UI thread is in: a request of a call, or the cancellation after a failed begin. -/
inductive Doing
  | nothing
  | requesting (call : Call)
  | failed (error : ℕ)
  | rollingBack (error : ℕ)
  deriving DecidableEq

/-- `ui_active`, `ui_renew_at`, and what its calls returned so far, the last one first. -/
structure Ui where
  active : Bool
  renewAt : ℤ
  doing : Doing
  returned : List Returned
  deriving DecidableEq

/-- `clock_ms` -/
def clockMs (now : ℕ) (clock : Bool) : ℤ := if clock then now else -1

def Ui.return (u : Ui) (call : Call) (error : ℕ) (answer : Option (Packet × Ack)) : Ui :=
  { u with doing := .nothing, returned := ⟨call, error, answer⟩ :: u.returned }

/-- The request of a call has returned. -/
def Ui.told (u : Ui) (now : ℤ) (error : ℕ) (answer : Option (Packet × Ack)) : Ui :=
  match u.doing with
  | .requesting .begin =>
    if error = 0 then { u.return .begin 0 answer with active := true, renewAt := now + renewMs }
    else { u with doing := .failed error }
  | .requesting .keepalive =>
    { u.return .keepalive error answer with
      renewAt := now + if error = 0 then (renewMs : ℤ) else 1000 }
  | .requesting .cancel => u.return .cancel error answer
  | .rollingBack failure => { u.return .begin failure none with active := false }
  | _ => u

/-! ### The system -/

/-- The UI and the launcher's server share the outer link, the launcher's client and the
supervisor's server the inner one. -/
structure System where
  now : ℕ
  ui : Ui
  outer : Link
  inner : Link
  deriving DecidableEq

def Client.initial : Client := ⟨0, 0, none, []⟩
def Link.initial : Link := ⟨.initial, [], ⟨0, .idle, []⟩, []⟩
def System.initial : System := ⟨0, ⟨false, 0, .nothing, []⟩, .initial, .initial⟩

/-- One step of one process. `clock` says whether the clock can be read where the step reads it,
`sent` whether the acknowledgement can be sent. -/
inductive Event
  | tick (ms : ℕ)
  | uiCall (call : Call) (clock : Bool) (sending : Sending)
  | uiRollBack (clock : Bool) (sending : Sending)
  | uiReceive (clock : Bool)
  | uiGiveUp (clock : Bool) (error : Errno)
  | launcherLook (clock : Bool)
  | launcherTake (clock : Bool)
  | launcherAsk (sending : Sending)
  | launcherReceive
  | launcherGiveUp (error : Errno)
  | launcherSettle (clock : Bool)
  | launcherAnswer (sent : Bool)
  | supervisorLook (clock : Bool)
  | supervisorTake (clock : Bool)
  | supervisorSettle (clock : Bool)
  | supervisorAnswer (sent : Bool)
  deriving DecidableEq

def System.ack (s : System) (packet : Packet) (error : ℕ) : Ack :=
  ⟨packet, error, s.now, s.outer.server.untilMs, s.inner.server.untilMs⟩

/-- The UI makes a request, and goes on at once if the packet cannot be sent. -/
def System.uiRequest (s : System) (operation : Operation) (clock : Bool) (sending : Sending) :
    System :=
  match s.outer.request operation s.now sending with
  | (outer, none) => { s with outer := outer }
  | (outer, some e) =>
    { s with outer := outer, ui := s.ui.told (clockMs s.now clock) e none }

/-- The UI goes on with what its request came to. -/
def System.uiTold (s : System) (clock : Bool) : Link × Outcome → System
  | (outer, .goesOn) => { s with outer := outer }
  | (outer, .returns error answer) =>
    { s with outer := outer, ui := s.ui.told (clockMs s.now clock) error answer }

/-- The launcher's poll goes on with what its request upstream came to. -/
def System.launcherTold (s : System) : Link × Outcome → System
  | (inner, .goesOn) => { s with inner := inner }
  | (inner, .returns error _) =>
    { s with
      inner := inner
      outer := { s.outer with
        server := { s.outer.server with stage := s.outer.server.stage.told error } } }

/-- A call of the UI: `c1_shutdown_begin`, `c1_shutdown_keepalive`, `c1_shutdown_cancel`. -/
def System.uiCall (s : System) (clock : Bool) (sending : Sending) : Call → System
  | .begin =>
    { s with ui := { s.ui with doing := .requesting .begin } }.uiRequest .begin clock sending
  | .keepalive =>
    if !s.ui.active ∨ clockMs s.now clock < s.ui.renewAt then
      { s with ui := s.ui.return .keepalive 0 none }
    else
      { s with ui := { s.ui with doing := .requesting .keepalive } }.uiRequest .begin clock
        sending
  | .cancel =>
    { s with ui := { s.ui with active := false, doing := .requesting .cancel } }.uiRequest
      .cancel clock sending

def System.launcherAsk (s : System) (operation : Operation) (sending : Sending) : System :=
  match s.inner.request operation s.now sending with
  | (inner, none) =>
    { s with
      inner := inner
      outer := { s.outer with
        server := { s.outer.server with stage := s.outer.server.stage.asked } } }
  | (inner, some e) => s.launcherTold (inner, .returns e none)

/-- One step, if its process can take it. -/
def System.step (s : System) : Event → Option System
  | .tick ms => some { s with now := s.now + ms }
  | .uiCall call clock sending =>
    if s.ui.doing = .nothing then some (s.uiCall clock sending call) else none
  | .uiRollBack clock sending =>
    match s.ui.doing with
    | .failed error =>
      some ({ s with ui := { s.ui with doing := .rollingBack error } }.uiRequest .cancel clock
        sending)
    | _ => none
  | .uiReceive clock => s.outer.receive.map (s.uiTold clock)
  | .uiGiveUp clock e => (s.outer.giveUp s.now e).map (s.uiTold clock)
  | .launcherLook clock => (s.outer.lookIdle s.now clock).map ({ s with outer := · })
  | .launcherTake clock => (s.outer.take true s.now clock).map ({ s with outer := · })
  | .launcherAsk sending => s.outer.server.stage.asks.map (s.launcherAsk · sending)
  | .launcherReceive => s.inner.receive.map s.launcherTold
  | .launcherGiveUp e => (s.inner.giveUp s.now e).map s.launcherTold
  | .launcherSettle clock => (s.outer.settle s.now clock).map ({ s with outer := · })
  | .launcherAnswer sent => (s.outer.answer true s.ack sent).map ({ s with outer := · })
  | .supervisorLook clock => (s.inner.lookIdle s.now clock).map ({ s with inner := · })
  | .supervisorTake clock => (s.inner.take false s.now clock).map ({ s with inner := · })
  | .supervisorSettle clock => (s.inner.settle s.now clock).map ({ s with inner := · })
  | .supervisorAnswer sent => (s.inner.answer false s.ack sent).map ({ s with inner := · })

def System.run (s : System) : List Event → Option System
  | [] => some s
  | e :: events => (s.step e).bind (·.run events)

end C1auncher.Power.Shutdown
