import C1auncher.Utf8Bytes
import C1auncher.Traces

/-!
The refresh of the package list: a worker of its own checks the cached list and then the
repository's, and sends both replies through one pipe.

The pipe holds less than a reply. The worker goes on between any two system calls of the program,
and may die anywhere. What it reports of its progress takes another pipe and is left out. The
record of what happens is kept with the newest event in front; nobody reads it.
-/

namespace C1auncher.Package.GuiRefresh

open Utf8Bytes

/-- `C1PKG_MAX_PACKAGES` -/
def maxPackages : ℕ := 128

/-- `sizeof(struct c1pkg_package)` -/
def packageSize : ℕ := 624

/-- `sizeof(struct c1pkg_index)`: the sequence, the packages and their count. -/
def indexSize : ℕ := 8 + maxPackages * packageSize + 8

/-- `sizeof(struct gui_refresh_result)` -/
def replySize : ℕ := 16 + indexSize

/-- What a pipe holds. -/
def capacity : ℕ := 65536

/-- The bytes of a `struct c1pkg_index`. -/
abbrev Index : Type := { bytes : Bytes // bytes.length = indexSize }

/-- The bytes of an `uint32_t`. -/
def le32 (n : UInt32) : Bytes :=
  [n.toUInt8, (n >>> 8).toUInt8, (n >>> 16).toUInt8, (n >>> 24).toUInt8]

/-- `GUI_REFRESH_MAGIC` -/
def magic : UInt32 := 0x43315246

/-- `struct gui_refresh_result` -/
structure Reply where
  result : UInt32
  cached : Bool
  initial : Bool
  index : Index

def flag (b : Bool) : UInt32 := if b then 1 else 0

def Reply.bytes (r : Reply) : Bytes :=
  le32 magic ++ le32 r.result ++ le32 (flag r.cached) ++ le32 (flag r.initial) ++ r.index.val

def field (buffer : Bytes) (offset : ℕ) : Bytes := (buffer.drop offset).take 4

/-- `result->initial` -/
def initialField (buffer : Bytes) : Bool := field buffer 12 != le32 0

/-- The number of a `size_t`, the lowest byte first. -/
def sizeOf (bytes : Bytes) : ℕ := bytes.foldr (fun b n => b.toNat + 256 * n) 0

/-- `result->magic == GUI_REFRESH_MAGIC && result->index.count <= C1PKG_MAX_PACKAGES` -/
def validFields (buffer : Bytes) : Bool :=
  field buffer 0 == le32 magic && sizeOf (field buffer (replySize - 8)) ≤ maxPackages

/-- `struct gui_refresh_job`: whether `pid` is that of a worker, and which descriptors are open;
`buffer` is the part of the result that was received. -/
structure Job where
  pid : Bool
  resultFd : Bool
  progressFd : Bool
  cancelFd : Bool
  cancelling : Bool
  buffer : Bytes
  deriving DecidableEq

/-- `gui_refresh_init` -/
def Job.init : Job := ⟨false, false, false, false, false, []⟩

/-- Where the worker is: in a call of the repository, or in the loop that sends a reply, before it
asks whether to stop or before it writes. -/
inductive Worker
  | loading
  | checking (reply : Reply) (sent : ℕ)
  | writing (reply : Reply) (sent : ℕ)
  | refreshing
  | ended (status : Option UInt8)
  | gone

inductive Event
  | started
  | published (reply : Reply)
  | wrote (bytes : Bytes)
  | exited (status : Option UInt8)
  | cancelled
  | reaped (status : Option UInt8)
  | consumed
  | returned (result : ℤ) (buffer : Bytes)

structure World where
  job : Job
  pipe : Bytes
  worker : Worker
  log : List Event

def World.idle : World := ⟨.init, [], .gone, []⟩

inductive How
  | ok
  | interrupted
  | failed
  deriving DecidableEq

/-- What a turn of the worker comes to: the index and the result of a call of the repository, how
`write` goes and how much it takes at most; whether a signal has come. -/
structure Outcome where
  index : Index
  result : UInt32
  how : How
  limit : ℕ
  signalled : Bool

/-- What the worker does. -/
inductive Act
  | turn (outcome : Outcome)
  | die

/-- A system call of the program: what has happened before it, how it goes, and how much it reads
at most. -/
structure Moment where
  acts : List Act
  how : How
  limit : ℕ

def Index.zero : Index := ⟨List.replicate indexSize 0, List.length_replicate⟩

namespace World

variable (w : World)

def tell (event : Event) : World := { w with log := event :: w.log }

/-- `_exit` -/
def exit (status : Option UInt8) : World :=
  { w with worker := .ended status }.tell (.exited status)

/-- A reply is made, and its loop begins. -/
def publish (reply : Reply) : World :=
  { w with worker := .checking reply 0 }.tell (.published reply)

/-- The condition of the loop: the second reply is followed by the end, and so is one that is not
sent to its end. -/
def check (reply : Reply) (sent : ℕ) (signalled : Bool) : World :=
  if sent < replySize then
    if signalled || !w.job.cancelFd then w.exit (some 1)
    else { w with worker := .writing reply sent }
  else if reply.initial then { w with worker := .refreshing }
  else w.exit (some 0)

/-- `write` to the pipe, which does not wait. -/
def write (reply : Reply) (sent : ℕ) (outcome : Outcome) : World :=
  match outcome.how with
  | .interrupted => { w with worker := .checking reply sent }
  | .failed => w.exit (some 1)
  | .ok =>
    if capacity ≤ w.pipe.length then { w with worker := .checking reply sent }
    else
      let amount := min (max 1 outcome.limit) (min (replySize - sent) (capacity - w.pipe.length))
      let bytes := (reply.bytes.drop sent).take amount
      { w with pipe := w.pipe ++ bytes, worker := .checking reply (sent + amount) }.tell
        (.wrote bytes)

def turn (outcome : Outcome) : World :=
  match w.worker with
  | .loading => w.publish ⟨0xffffffff, outcome.result = 0, true, outcome.index⟩
  | .checking reply sent => w.check reply sent outcome.signalled
  | .writing reply sent => w.write reply sent outcome
  | .refreshing => w.publish ⟨outcome.result, false, false,
      if outcome.result = 0 then outcome.index else .zero⟩
  | .ended _ | .gone => w

def act : Act → World
  | .turn outcome => w.turn outcome
  | .die =>
    match w.worker with
    | .ended _ | .gone => w
    | _ => w.exit none

def acts (as : List Act) : World := as.foldl act w

/-- `gui_refresh_start`, where memory, pipes and a worker can be had. -/
def start (possible : Bool) : World :=
  if w.job.pid then w
  else if !possible then { w with job := .init }
  else
    { w with
      job := ⟨true, true, true, true, false, []⟩
      pipe := []
      worker := .loading }.tell .started

/-- `gui_refresh_cancel` -/
def cancel : World :=
  if !w.job.pid then w
  else { w with job := { w.job with cancelling := true, cancelFd := false } }.tell .cancelled

/-- `read` of what is still missing of a reply. -/
def receive (limit : ℕ) : World :=
  let amount := min limit (replySize - w.job.buffer.length)
  { w with
    job := { w.job with buffer := w.job.buffer ++ w.pipe.take amount }
    pipe := w.pipe.drop amount }

/-- The loop that reads a reply. Where nothing is said of a read, it finds what there is. -/
def drain : List Moment → World → World
  | [], w => w.receive w.pipe.length
  | moment :: moments, w =>
    if w.job.buffer.length < replySize then
      let w := w.acts moment.acts
      match moment.how with
      | .interrupted => drain moments w
      | .failed => w
      | .ok => if w.pipe = [] then w else drain moments (w.receive (max 1 moment.limit))
    else w

/-- The end of `gui_refresh_poll`: all is closed. -/
def finish (status : Option (Option UInt8)) (moments : List Moment) : World :=
  let w := drain moments w
  let success := status == some (some 0) && !w.job.cancelling &&
    w.job.buffer.length == replySize && validFields w.job.buffer
  { w with job := { w.job with
      pid := false, resultFd := false, progressFd := false, cancelFd := false } }.tell
    (.returned (if success then 1 else -1) w.job.buffer)

/-- A reply that is not the last one; the loop begins anew. -/
def consume : World :=
  let result : ℤ := if validFields w.job.buffer && !w.job.cancelling then 2 else 0
  let buffer := w.job.buffer
  ({ w with job := { w.job with buffer := [] } }.tell .consumed).tell (.returned result buffer)

/-- `waitpid` and what follows it. -/
def await (wait : Moment) (moments : List Moment) : World :=
  let w := w.acts wait.acts
  match wait.how, w.worker with
  | .interrupted, _ => w.tell (.returned 0 [])
  | _, .ended status =>
    ({ w with worker := .gone }.tell (.reaped status)).finish (some status) moments
  | _, .gone => w.finish none moments
  | _, _ => w.tell (.returned 0 [])

/-- `gui_refresh_poll` -/
def poll (first : List Moment) (wait : Moment) (last : List Moment) : World :=
  if !w.job.pid then w.tell (.returned 0 [])
  else
    let w := drain first w
    if w.job.buffer.length = replySize ∧ initialField w.job.buffer then w.consume
    else w.await wait last

end World

/-- What the program does, and what the worker does in between. -/
inductive Call
  | start (possible : Bool)
  | cancel
  | poll (first : List Moment) (wait : Moment) (last : List Moment)
  | happen (act : Act)

def Call.run (w : World) : Call → World
  | .start possible => w.start possible
  | .cancel => w.cancel
  | .poll first wait last => w.poll first wait last
  | .happen act => w.act act

def run (w : World) (calls : List Call) : World := calls.foldl Call.run w

end C1auncher.Package.GuiRefresh
