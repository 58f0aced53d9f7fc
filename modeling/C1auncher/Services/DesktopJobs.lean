import C1auncher.Utf8Bytes
import C1auncher.Traces

/-!
The background jobs of the desktop: a child of its own whose output is read a little at a time.

What the child and those who hold its pipe do happens between any two system calls. The record of
all that happens is kept with the newest event in front; the job does not read it.
-/

namespace C1auncher.Services.DesktopJobs

open Utf8Bytes

/-- `C1_DESKTOP_JOB_OUTPUT_CAPACITY` -/
def outputCapacity : ℕ := 256

/-- `c1_desktop_job_start`: 1 is `c1pkg desktop-summary`, 2 is `c1updater check-configured`. -/
inductive Kind
  | package
  | core
  deriving DecidableEq

/-- `C1_DESKTOP_CORE_JOB_TIMEOUT_MS`, `C1_DESKTOP_PACKAGE_JOB_TIMEOUT_MS` -/
def timeoutMs : Kind → Int64
  | .core => 100000
  | .package => 35000

/-- `C1_DESKTOP_CORE_CANCEL_GRACE_MS`, `C1_DESKTOP_PACKAGE_CANCEL_GRACE_MS` -/
def graceMs : Kind → Int64
  | .core => 10000
  | .package => 2000

def after (now interval : Int64) : Int64 :=
  if now > Int64.maxValue - interval then Int64.maxValue else now + interval

/-- `c1_desktop_job`: whether `pid` is that of a child, and `fd` is open; `output` is the part of
the array that is used. -/
structure Job where
  pid : Bool
  fd : Bool
  kind : Kind
  cancelled : Bool
  killed : Bool
  failed : Bool
  deadline : Int64
  output : Bytes
  deriving DecidableEq

/-- `c1_desktop_job_init` -/
def Job.init (kind : Kind) : Job := ⟨false, false, kind, false, false, false, 0, []⟩

/-- The child of the job; one that has ended has its status if it exited. -/
inductive Child
  | none
  | running
  | ended (status : Option UInt8)
  deriving DecidableEq

inductive Signal
  | term
  | kill
  deriving DecidableEq

inductive Event
  | started (kind : Kind) (now : Int64)
  | wrote (bytes : Bytes)
  | closed
  | exited (status : Option UInt8)
  | reaped (status : Option UInt8)
  | cancelled (now : Int64)
  | signalled (signal : Signal) (now : Int64)
  | returned (result : ℤ) (output : Bytes) (now : Int64)
  deriving DecidableEq

/-- The job and what is around it: what is in the pipe, whether anyone holds its other end, and the
child. -/
structure World where
  job : Job
  pipe : Bytes
  writers : Bool
  child : Child
  log : List Event

def World.idle : World := ⟨.init .package, [], false, .none, []⟩

/-- What the child, or a descendant of it, does. -/
inductive Act
  | write (bytes : Bytes)
  | close
  | exit (status : Option UInt8)

inductive How
  | ok
  | interrupted
  | failed
  deriving DecidableEq

/-- A system call: what has happened before it, how it goes, and how much it reads at most. -/
structure Moment where
  acts : List Act
  how : How
  limit : ℕ

namespace World

variable (w : World)

def tell (event : Event) : World := { w with log := event :: w.log }

def act : Act → World
  | .write bytes =>
    if w.writers then { w with pipe := w.pipe ++ bytes }.tell (.wrote bytes) else w
  | .close => if w.writers then { w with writers := false }.tell .closed else w
  | .exit status =>
    if w.child = .running then { w with child := .ended status }.tell (.exited status) else w

def acts (as : List Act) : World := as.foldl act w

/-- `c1_desktop_job_start` where a pipe and a child can be made. -/
def start (kind : Kind) (now : Int64) (forked : Bool) : World :=
  if w.job.pid || w.job.fd || now < 0 || !forked then w
  else
    { w with
      job := { Job.init kind with pid := true, fd := true, deadline := after now (timeoutMs kind) }
      pipe := []
      writers := true
      child := .running }.tell (.started kind now)

/-- `signal_owned_child`: the signal goes to the group, or to the child where there is none yet. -/
def signalOwnedChild (signal : Signal) (now : Int64) : World :=
  if w.job.pid then w.tell (.signalled signal now) else w

/-- `c1_desktop_job_cancel` -/
def cancel (now : Int64) : World :=
  if !w.job.pid || w.job.cancelled then w
  else
    let w := ({ w with job := { w.job with cancelled := true } }.tell (.cancelled now))
    let w := w.signalOwnedChild .term now
    { w with job := { w.job with
      deadline := after (if now < 0 then 0 else now) (graceMs w.job.kind) } }

/-- The output cannot be used. -/
def fail (now : Int64) : World := { w with job := { w.job with failed := true } }.cancel now

/-- What `read` has put into the buffer goes behind the output, if it fits. -/
def take (buffer : Bytes) (now : Int64) : World :=
  if outputCapacity ≤ w.job.output.length ∨
      outputCapacity - 1 - w.job.output.length < buffer.length ∨ 0 ∈ buffer then w.fail now
  else { w with job := { w.job with output := w.job.output ++ buffer } }

/-- The loop of `drain` with the attempts that are left. -/
def drain (reads : ℕ → Moment) (now : Int64) : ℕ → World → World
  | 0, w => w
  | left + 1, w =>
    if !w.job.fd || w.job.failed then w
    else
      let w := w.acts (reads left).acts
      match (reads left).how with
      | .interrupted => drain reads now left w
      | .failed => w.fail now
      | .ok =>
        if w.pipe = [] then
          -- the end of the file, or `EAGAIN`
          if w.writers then w else { w with job := { w.job with fd := false } }
        else
          let amount := min outputCapacity (max 1 (reads left).limit)
          let buffer := w.pipe.take amount
          drain reads now left ({ w with pipe := w.pipe.drop amount }.take buffer now)

/-- What `waitpid` says, with the child it has reaped gone. -/
inductive Wait
  | alive
  | interrupted
  | reaped (status : Option UInt8)
  | failed
  deriving DecidableEq

def waitpid (moment : Moment) : World × Wait :=
  let w := w.acts moment.acts
  match moment.how with
  | .interrupted => (w, .interrupted)
  | .failed => (w, .failed)
  | .ok =>
    match w.child with
    | .none => (w, .failed)
    | .running => (w, .alive)
    | .ended status => ({ w with child := .none }.tell (.reaped status), .reaped status)

/-- The end of a job whose child is no longer its own. -/
def finish (status : Option (Option UInt8)) (reads : ℕ → Moment) (now : Int64) : World :=
  let w := drain reads now 4 { w with job := { w.job with pid := false } }
  let success := status == some (some 0) && now < w.job.deadline && !w.job.cancelled &&
    !w.job.failed && !w.job.fd
  let output := if success then w.job.output else []
  { w with job := { w.job with fd := false, output := output } }.tell
    (.returned (if success then 1 else -1) output now)

/-- What a poll does about the deadline. -/
def overdue (now : Int64) : World :=
  if w.job.deadline ≤ now then
    if !w.job.cancelled then w.cancel now
    else if !w.job.killed then
      let w := w.signalOwnedChild .kill now
      { w with job := { w.job with killed := true } }
    else w
  else w

/-- `c1_desktop_job_poll` -/
def poll (wait : Moment) (reads : ℕ → Moment) (now : Int64) : World :=
  if !w.job.pid then w.tell (.returned 0 [] now)
  else
    match w.waitpid wait with
    | (w, .reaped status) => w.finish (some status) reads now
    | (w, .failed) => w.finish none reads now
    | (w, _) => ((drain reads now 4 w).overdue now).tell (.returned 0 [] now)

end World

inductive Call
  | start (kind : Kind) (now : Int64) (forked : Bool)
  | cancel (now : Int64)
  | poll (wait : Moment) (reads : ℕ → Moment) (now : Int64)
  | happen (act : Act)

def Call.run (w : World) : Call → World
  | .start kind now forked => w.start kind now forked
  | .cancel now => w.cancel now
  | .poll wait reads now => w.poll wait reads now
  | .happen act => w.act act

def run (calls : List Call) : World := calls.foldl Call.run .idle

end C1auncher.Services.DesktopJobs
