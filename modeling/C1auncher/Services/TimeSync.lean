import C1auncher.Utf8Bytes

/-!
The time-sync worker: it asks the applet list of busybox for `ntpd` once, and runs it while nothing
else keeps the clock.

Every call of the worker is answered by its surroundings: what the child has written, what `waitpid`
and `kill` say, and what is found of a system service and of the kernel. A trace of what has
happened, which the worker does not read, is kept with the newest event in front.
-/

namespace C1auncher.Services.TimeSync

open Utf8Bytes

/-- `C1_TIME_RETRY_MS` -/
def retryMs : Int64 := 300000

/-- `C1_TIME_OBSERVE_MS` -/
def observeMs : Int64 := 5000

/-- `C1_TIME_PROBE_BYTES` -/
def probeBytesMax : ℕ := 32768

/-- `sizeof(buffer)` of `read_probe` -/
def chunkSize : ℕ := 512

/-- `sizeof(sync->probe_line)` -/
def lineSize : ℕ := 16

/-- `after_ms` -/
def afterMs (now delay : Int64) : Int64 :=
  if now > Int64.maxValue - delay then Int64.maxValue else now + delay

/-- What `system_service` finds. -/
inductive Service
  | unknown
  | none
  | system
  deriving DecidableEq

/-- `c1_time_state` -/
inductive State
  | unchecked
  | running
  | synced
  | failed
  | unavailable
  | waitingSystem
  | unverified
  | blocked
  deriving DecidableEq

/-- `c1_time_sync`. A child goes by the number of those started before it; `probeLine` is the part
of the array that counts. What has been read of the probe is only recorded in `output`. -/
structure Sync where
  pid : Option ℕ
  deadline : Int64
  nextAttempt : Int64
  nextObservation : Int64
  previousOnline : Bool
  previousEnabled : Bool
  timedOut : Bool
  cancelled : Bool
  killSent : Bool
  state : State
  probeOpen : Bool
  systemService : Service
  probing : Bool
  appletAvailable : Bool
  probeFound : Bool
  probeEof : Bool
  probeInvalid : Bool
  kernelSynced : Bool
  probeBytes : ℕ
  probeLine : Bytes
  output : Bytes

/-- `c1_time_sync_init` -/
def init : Sync where
  pid := none
  deadline := 0
  nextAttempt := 0
  nextObservation := 0
  previousOnline := false
  previousEnabled := false
  timedOut := false
  cancelled := false
  killSent := false
  state := .unchecked
  probeOpen := false
  systemService := .unknown
  probing := false
  appletAvailable := false
  probeFound := false
  probeEof := false
  probeInvalid := false
  kernelSynced := false
  probeBytes := 0
  probeLine := []
  output := []

/-- How an attempt ended that was not cancelled: whether it was a probe, the exit status if it
exited, whether it took too long, and what was read of the probe. -/
structure End where
  probing : Bool
  status : Option UInt8
  timedOut : Bool
  eof : Bool
  invalid : Bool
  output : Bytes
  now : Int64

/-- What happens. A child is gone when `waitpid` returns it or knows no such child; an attempt is
refused when no child can be started. -/
inductive Event
  | called (enabled online : Bool) (now : Int64)
  | stopped
  | observed (service : Service) (synced : Bool)
  | forked (child : ℕ) (ntpd : Bool) (now : Int64)
  | refused (now : Int64)
  | killed (child : ℕ)
  | gone (child : ℕ)
  | late (now : Int64)
  | ended (how : End)

/-- The worker with the count of the children it has started and the trace. -/
structure Worker where
  sync : Sync
  forks : ℕ
  trace : List Event

def Worker.start : Worker := ⟨init, 0, []⟩

/-- What has happened now. -/
def Worker.log (w : Worker) (event : Event) : Worker := { w with trace := event :: w.trace }

/-- What a call of `read` finds in the pipe of a probe. -/
inductive Read
  | bytes (first : UInt8) (rest : Bytes)
  | eof
  | again
  | failed

/-- What `waitpid` says of the child with `WNOHANG`. -/
inductive Wait
  | alive
  | exited (status : UInt8)
  | signaled
  | noChild
  | interrupted

/-- The surroundings of `cancel_child`: what `waitpid` says, and whether `kill` succeeds. -/
structure Cancel where
  wait : Wait
  delivered : Bool

/-- A call of `c1_time_sync_tick` with its surroundings: the pipe before and after the child is
waited for, what is observed, how a cancellation goes, and whether busybox can be executed, a pipe
be made and a child be forked. -/
structure Tick where
  enabled : Bool
  online : Bool
  now : Int64
  reads : List Read
  wait : Wait
  lastReads : List Read
  service : Service
  synced : Bool
  cancel : Cancel
  executable : Bool
  piped : Bool
  forked : Bool

def closeProbe (s : Sync) : Sync := { s with probeOpen := false }

/-- The line that `read_probe` looks for. -/
def ntpd : Bytes := [110, 116, 112, 100]

/-- The turn of `read_probe` for one byte. -/
def readByte (s : Sync) (b : UInt8) : Sync :=
  if b = 10 then
    { s with
      probeFound := s.probeFound || s.probeLine = ntpd
      probeLine := []
      output := s.output ++ [b] }
  else
    { s with
      probeInvalid := s.probeInvalid || b = 0
      probeLine := if s.probeLine.length < lineSize then s.probeLine ++ [b] else s.probeLine
      output := s.output ++ [b] }

/-- The loop of `read_probe`. Where nothing is said of a read, it finds nothing yet. -/
def readLoop : ℕ → List Read → Sync → Sync
  | 0, _, s => s
  | _ + 1, [], s => s
  | _ + 1, .eof :: _, s => { s with probeEof := true }
  | _ + 1, .again :: _, s => s
  | _ + 1, .failed :: _, s => { s with probeInvalid := true }
  | turns + 1, .bytes first rest :: reads, s =>
    let buffer := (first :: rest).take chunkSize
    let s := { s with probeBytes := s.probeBytes + buffer.length }
    if s.probeBytes > probeBytesMax then { s with probeInvalid := true }
    else readLoop turns reads (buffer.foldl readByte s)

/-- `read_probe` -/
def readProbe (reads : List Read) (s : Sync) : Sync :=
  if !s.probeOpen || s.probeInvalid then s
  else readLoop (probeBytesMax / chunkSize) reads s

/-- There is no longer a child `n`. -/
def forget (w : Worker) (n : ℕ) : Worker :=
  let s := closeProbe { w.sync with pid := none }
  { w with sync := s }.log (.gone n)

/-- `cancel_child` -/
def cancelChild (w : Worker) (cancel : Cancel) : Worker :=
  match w.sync.pid with
  | none => w
  | some n =>
    match cancel.wait with
    | .alive =>
      if !w.sync.killSent && cancel.delivered then
        { w with sync := { w.sync with killSent := true } }.log (.killed n)
      else w
    | .exited _ | .signaled | .noChild => forget w n
    | .interrupted => w

/-- `request_stop` -/
def requestStop (w : Worker) (cancel : Cancel) : Worker :=
  let w := cancelChild { w with sync := { w.sync with cancelled := true } } cancel
  { w with sync := { w.sync with state := .unchecked, previousEnabled := false } }

/-- The loop of `c1_time_sync_stop` with the turns that are left. -/
def stopLoop (attempts : ℕ → Cancel) : ℕ → Worker → Worker
  | 0, w => w
  | turns + 1, w =>
    if w.sync.pid = none then w else stopLoop attempts turns (cancelChild w (attempts turns))

/-- `c1_time_sync_stop` -/
def stop (w : Worker) (first : Cancel) (attempts : ℕ → Cancel) : Worker :=
  stopLoop attempts 20 (requestStop (w.log .stopped) first)

/-- The part of `c1_time_sync_tick` for a child that has ended: it is read to its end, and its end
noted. -/
def finish (t : Tick) (n : ℕ) (w : Worker) : Worker :=
  let s := readProbe t.lastReads w.sync
  forget { w with sync := { s with timedOut := s.timedOut || s.deadline ≤ t.now } } n

/-- The part of `c1_time_sync_tick` that looks at the child; also whether it has finished, and the
status it then exited with. -/
def collect (t : Tick) (w : Worker) : Worker × Option (Option UInt8) :=
  match w.sync.pid with
  | none => (w, none)
  | some n =>
    let w := { w with sync := readProbe t.reads w.sync }
    match t.wait with
    | .alive | .interrupted => (w, none)
    | .exited status => (finish t n w, some (some status))
    | .signaled | .noChild => (finish t n w, some none)

def observe (t : Tick) (w : Worker) : Worker :=
  { w with sync := { w.sync with
      systemService := t.service
      kernelSynced := t.synced
      nextObservation := afterMs t.now observeMs } }.log (.observed t.service t.synced)

def giveWay (t : Tick) (w : Worker) : Worker :=
  let w := cancelChild { w with sync := { w.sync with cancelled := true } } t.cancel
  { w with sync := { w.sync with
      state := if w.sync.kernelSynced then .synced
        else if w.sync.systemService = .system then .waitingSystem else .blocked } }

/-- The end of an attempt as `settle` sees it. -/
def endOf (s : Sync) (status : Option UInt8) (now : Int64) : End :=
  ⟨s.probing, status, s.timedOut, s.probeEof, s.probeInvalid, s.output, now⟩

def failedState (s : Sync) (status : Option UInt8) : State :=
  if status = some 125 then .blocked
  else if !s.timedOut && status = some 127 then .unavailable
  else .failed

/-- The part of `c1_time_sync_tick` for a child that has finished and was not cancelled. -/
def settleSync (s : Sync) (status : Option UInt8) (now : Int64) : Sync :=
  let s := { s with nextAttempt := afterMs now retryMs }
  if s.timedOut ∨ status ≠ some 0 then
    { s with
      state := failedState s status
      appletAvailable := s.probing && s.appletAvailable }
  else if s.probing then
    if !s.probeEof ∨ s.probeInvalid ∨ s.probeLine ≠ [] then { s with state := .failed }
    else if !s.probeFound then { s with state := .unavailable }
    else { s with appletAvailable := true, nextAttempt := now }
  else { s with state := .unverified }

def settle (w : Worker) (status : Option UInt8) (now : Int64) : Worker :=
  { w with sync := settleSync w.sync status now }.log (.ended (endOf w.sync status now))

/-- The part of `c1_time_sync_tick` for a child that takes too long or writes what it should not. -/
def expire (t : Tick) (w : Worker) : Worker :=
  let w := cancelChild { w with sync := { w.sync with timedOut := true } } t.cancel
  { w with sync := { w.sync with
      state := .failed
      nextAttempt := afterMs t.now retryMs } }.log (.late t.now)

/-- `start_child` of the parent, where the pipe and the fork succeed. -/
def startChild (s : Sync) (child : ℕ) (now : Int64) : Sync :=
  let probe := !s.appletAvailable
  { s with
    pid := some child
    probeOpen := probe
    probing := probe
    probeFound := false
    probeEof := false
    probeInvalid := false
    probeBytes := 0
    probeLine := []
    output := []
    timedOut := false
    cancelled := false
    killSent := false
    state := .running
    deadline := afterMs now (if probe then 3000 else 45000) }

/-- An attempt that comes to nothing. -/
def refuse (w : Worker) (state : State) (now : Int64) : Worker :=
  { w with sync := { w.sync with
      state := state
      nextAttempt := afterMs now retryMs } }.log (.refused now)

/-- The last part of `c1_time_sync_tick`. -/
def attempt (t : Tick) (w : Worker) : Worker :=
  if t.now < w.sync.nextAttempt then w
  else if !t.executable then refuse w .unavailable t.now
  else if !w.sync.appletAvailable && !t.piped || !t.forked then refuse w .failed t.now
  else
    { w with
      sync := startChild w.sync w.forks t.now
      forks := w.forks + 1 }.log (.forked w.forks w.sync.appletAvailable t.now)

/-- An observation that no longer finds what the state says. -/
def unverify (s : Sync) : Sync :=
  if s.state = .synced ∨ s.state = .waitingSystem ∨ s.state = .blocked then
    { s with state := .unverified }
  else s

/-- What a tick makes ready where nobody else keeps the clock: after a pause the next attempt is
made at once. -/
def makeReady (t : Tick) (resumed observed : Bool) (s : Sync) : Sync :=
  let s := if observed then unverify s else s
  if resumed ∧ s.pid = none then { s with nextAttempt := t.now } else s

/-- The end of a child that has finished, unless it was cancelled. -/
def settleFinished (t : Tick) (finished : Option (Option UInt8)) (w : Worker) : Worker :=
  match finished with
  | none => w
  | some status => if w.sync.cancelled then w else settle w status t.now

/-- The rest of `c1_time_sync_tick` where nobody else keeps the clock. -/
def proceed (t : Tick) (resumed observed : Bool) (finished : Option (Option UInt8)) (w : Worker) :
    Worker :=
  let w := settleFinished t finished { w with sync := makeReady t resumed observed w.sync }
  if w.sync.pid = none then attempt t w
  else if w.sync.deadline ≤ t.now ∨ w.sync.probeInvalid then expire t w
  else w

/-- `resumed` of `c1_time_sync_tick` -/
def resumes (t : Tick) (s : Sync) : Bool :=
  t.online && t.enabled && (!s.previousOnline || !s.previousEnabled)

/-- The first lines of `c1_time_sync_tick`. -/
def call (t : Tick) (w : Worker) : Worker :=
  { w with sync := { w.sync with
      previousOnline := t.online
      previousEnabled := t.enabled } }.log (.called t.enabled t.online t.now)

/-- `c1_time_sync_tick` -/
def tick (t : Tick) (w : Worker) : Worker :=
  if t.now < 0 then w
  else
    let resumed := resumes t w.sync
    let (w, finished) := collect t (call t w)
    if !t.enabled || !t.online then requestStop w t.cancel
    else
      let observed := resumed || finished.isSome || w.sync.nextObservation ≤ t.now
      let w := if observed then observe t w else w
      if w.sync.systemService ≠ .none ∨ w.sync.kernelSynced then giveWay t w
      else proceed t resumed observed finished w

inductive Call
  | tick (t : Tick)
  | stop (first : Cancel) (attempts : ℕ → Cancel)

def exec (w : Worker) : Call → Worker
  | .tick t => TimeSync.tick t w
  | .stop first attempts => TimeSync.stop w first attempts

def run (calls : List Call) : Worker := calls.foldl exec Worker.start

lemma run_inv {I : Worker → Prop} (hstart : I Worker.start) (htick : ∀ w t, I w → I (tick t w))
    (hstop : ∀ w first attempts, I w → I (stop w first attempts)) (calls : List Call) :
    I (run calls) := by
  suffices h : ∀ w, I w → I (calls.foldl exec w) from h _ hstart
  induction calls with
  | nil => exact fun _ h => h
  | cons call calls ih =>
    intro w h
    refine ih _ ?_
    cases call with
    | tick t => exact htick w t h
    | stop first attempts => exact hstop w first attempts h

end C1auncher.Services.TimeSync
