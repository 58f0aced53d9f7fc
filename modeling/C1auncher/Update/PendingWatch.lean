import C1auncher.CString

/-!
The watch over a candidate that is booted for the first time: when it may be confirmed.

The supervisor polls. In each poll it looks for a shutdown window, for the exit of the
launcher, for heartbeats the launcher passes on and for the ready marker; the watch keeps
six variables between two polls.
-/

namespace C1auncher.Update.PendingWatch

open CString

/-- `C1_UPDATE_READY_TIMEOUT_MS` -/
def readyTimeoutMs : ℤ := 60000

/-- `C1_UPDATE_READY_STABLE_MS` -/
def readyStableMs : ℤ := 30000

/-- `C1_HEARTBEAT_TIMEOUT_MS` -/
def heartbeatTimeoutMs : ℤ := 12000

/-- How many packets one poll reads at most. -/
def drainMax : ℕ := 64

/-! ### The decision of one poll -/

structure Observation where
  childExited : Bool
  stopRequested : Bool
  startedMs : ℤ
  nowMs : ℤ
  readyAtMs : ℤ

inductive PendingAction
  | wait
  | confirm
  | rollback
  | stop
  | childExit
  deriving DecidableEq

def pendingDecide (o : Observation) : PendingAction :=
  if o.childExited then .childExit
  else if o.stopRequested then .stop
  else if o.startedMs < 0 ∨ o.nowMs < o.startedMs then .rollback
  else if o.readyAtMs ≥ 0 then
    if o.readyAtMs < o.startedMs ∨ o.nowMs < o.readyAtMs ∨
        o.readyAtMs - o.startedMs ≥ readyTimeoutMs then .rollback
    else if o.nowMs - o.readyAtMs ≥ readyStableMs then .confirm
    else .wait
  else if o.nowMs - o.startedMs ≥ readyTimeoutMs then .rollback
  else .wait

/-! ### What a poll observes -/

/-- `struct c1_liveness_message` -/
structure LivenessMessage where
  monotonicMs : ℤ
  uiPid : ℤ
  deriving DecidableEq

/-- One read of the heartbeat pipe: the message, unless the packet has another size, and the
reading of the clock after it. -/
structure Packet where
  message : Option LivenessMessage
  reading : ℤ
  deriving DecidableEq

/-- What `lstat` says of the ready marker. -/
structure MarkerIdentity where
  device : ℕ
  inode : ℕ
  mtimeSeconds : ℤ
  mtimeNanoseconds : ℤ
  deriving DecidableEq

/-- `waitpid`: the child runs, it exited, the call was interrupted, or it failed. -/
inductive Waited
  | running
  | exited
  | interrupted
  | error
  deriving DecidableEq

/-- What `c1_update_confirm` answers if it is called. -/
inductive ConfirmResult
  | ok
  | busy
  | error
  deriving DecidableEq

structure Poll where
  shuttingDown : Bool
  waited : Waited
  /-- The reading of the clock after `waitpid`. -/
  clock : ℤ
  /-- What is in the heartbeat pipe. -/
  pipe : List Packet
  /-- Reading on behind these fails with something else than `EAGAIN` and `EINTR`. -/
  pipeBroken : Bool
  stop : Bool
  /-- What `c1_update_ready_matches` reads from the private regular marker file. -/
  markerContent : Option Text
  markerIdentity : Option MarkerIdentity
  confirmed : ConfirmResult

namespace Poll

def packets (p : Poll) : List Packet := p.pipe.take drainMax

def now (p : Poll) : ℤ := (p.packets.getLast?.map Packet.reading).getD p.clock

end Poll

def readyMatches (content : Option Text) (digest : Text) : Bool :=
  digest.length == 64 && content == some (digest ++ ['\n'])

def Poll.marker (digest : Text) (p : Poll) : Option MarkerIdentity :=
  if readyMatches p.markerContent digest then p.markerIdentity else none

/-! ### The watch -/

/-- The variables of `pending_watch`. -/
structure Watch where
  started : ℤ
  readyAt : ℤ
  lastBeat : ℤ
  uiPid : ℤ
  readyIdentity : MarkerIdentity
  wasShuttingDown : Bool
  deriving DecidableEq

def Watch.init (started : ℤ) : Watch := ⟨started, -1, -1, -1, ⟨0, 0, 0, 0⟩, false⟩

/-- A shutdown window that ended starts the observation anew. -/
def Watch.restart (w : Watch) (p : Poll) : Watch :=
  let w := if w.wasShuttingDown && !p.shuttingDown then
    { w with started := p.clock, readyAt := -1, lastBeat := -1, uiPid := -1 } else w
  { w with wasShuttingDown := p.shuttingDown }

/-- One packet; `none` where the watch gives up. -/
def Watch.beat (w : Watch) (packet : Packet) : Option Watch :=
  match packet.message with
  | none => none
  | some message =>
    if message.uiPid ≤ 0 ∨ message.monotonicMs > packet.reading then none
    -- a beat from before a cancelled shutdown
    else if message.monotonicMs < w.started then some w
    else if message.monotonicMs < w.lastBeat then none
    else some { w with
      readyAt := if w.uiPid ≠ message.uiPid then -1 else w.readyAt
      uiPid := message.uiPid
      lastBeat := message.monotonicMs }

def Watch.drain : Watch → List Packet → Option Watch
  | w, [] => some w
  | w, packet :: packets => (w.beat packet).bind (·.drain packets)

def Watch.mark (w : Watch) (digest : Text) (p : Poll) : Watch :=
  match p.marker digest with
  | none => { w with readyAt := -1 }
  | some identity =>
    if w.readyAt < 0 ∨ identity ≠ w.readyIdentity then
      { w with readyIdentity := identity, readyAt := p.now }
    else w

/-- What `pending_watch` returns: `0`, `1`, `2` and `-1`. -/
inductive Ended
  | confirmed
  | childExit
  | stopped
  | failed
  deriving DecidableEq

/-- What a poll comes to, and whether it called `c1_update_confirm`. -/
structure Turn where
  callsConfirm : Bool
  next : Except Ended Watch

def Watch.confirm (w : Watch) (p : Poll) : Turn :=
  if w.lastBeat < w.readyAt + readyStableMs ∨ p.now - w.lastBeat > heartbeatTimeoutMs then
    if p.now - w.readyAt ≥ readyStableMs + heartbeatTimeoutMs then ⟨false, .error .failed⟩
    else ⟨false, .ok w⟩
  else
    match p.confirmed with
    | .ok => ⟨true, .error .confirmed⟩
    | .busy => ⟨true, .ok w⟩
    | .error => ⟨true, .error .failed⟩

def Watch.decide (w : Watch) (p : Poll) : Turn :=
  match pendingDecide ⟨p.waited = .exited, p.stop, w.started, p.now, w.readyAt⟩ with
  | .childExit => ⟨false, .error .childExit⟩
  | .stop => ⟨false, .error .stopped⟩
  | .confirm => w.confirm p
  | .rollback => ⟨false, .error .failed⟩
  | .wait => ⟨false, .ok w⟩

/-- One round of the loop in `pending_watch`. -/
def Watch.turn (digest : Text) (w : Watch) (p : Poll) : Turn :=
  if p.waited = .error then ⟨false, .error .failed⟩
  else match (w.restart p).drain p.packets with
  | none => ⟨false, .error .failed⟩
  | some w =>
    if p.pipe.length < drainMax ∧ p.pipeBroken then ⟨false, .error .failed⟩
    else if p.shuttingDown then
      if p.waited = .exited then ⟨false, .error .childExit⟩
      else if p.stop then ⟨false, .error .stopped⟩
      else ⟨false, .ok { w with readyAt := -1 }⟩
    else (w.mark digest p).decide p

/-- The watch after some polls, the latest of them first, if it still goes on. -/
def watchAfter (digest : Text) (started : ℤ) : List Poll → Option Watch
  | [] => some (.init started)
  | p :: polls => (watchAfter digest started polls).bind fun w =>
    (w.turn digest p).next.toOption

end C1auncher.Update.PendingWatch
