import Mathlib.Data.List.Basic

/-!
The run lock of external applications and the mode that goes with it: which application may use
the terminal.

Processes take turns; a turn is one system call, and a process may die at any of them. Its locks
go with it, and the file it leaves are those the next one finds. `open` and the `fstat` behind it
are one turn, as nothing of what `fstat` looks at changes; so are the last two calls of `close`
where only the second one lets go of a lock.
-/

namespace C1auncher.Platform.AppLease

abbrev Bytes := List UInt8

/-- What `open_lease` looks at. -/
structure Information where
  regular : Bool
  links : ℕ
  owner : ℕ
  mode : ℕ
  deriving DecidableEq

structure File where
  information : Information
  bytes : Bytes
  deriving DecidableEq

inductive Lock
  | shared
  | exclusive
  deriving DecidableEq

/-- The calls that take the guard for themselves. -/
inductive Call
  | acquire
  | write (mode : Bytes)
  | clear
  deriving DecidableEq

/-- Where a process is. A number is an index of a file, or how many attempts are left. -/
inductive Place
  | idle
  | dead
  | guarding (call : Call) (attempts : ℕ)
  | opening
  | locking
  | unlinking
  | dropping
  | openingMode (mode : Bytes)
  | truncating (mode : Bytes) (file : ℕ)
  | writing (mode : Bytes) (file : ℕ)
  | clearing
  | leaving
  | looking
  | reading (file : ℕ)
  | answering (answer : Bool)
  deriving DecidableEq

/-- A process: the lock its guard descriptor has, and the chain whose run lock it has, by the
descriptor that was locked. -/
structure Process where
  place : Place
  guard : Option Lock
  run : Option ℕ
  deriving DecidableEq

/-- What happens to the permission, as far as it is told of it. -/
inductive Action
  | obtained (chain : ℕ)
  | took (chain : ℕ)
  | changed (chain : ℕ)
  | wrote (chain : ℕ) (mode : Bytes)
  | cleared
  | answered (process : ℕ) (answer : Bool)
  | returned (process : ℕ) (answer : Bool)
  deriving DecidableEq

/-- The processes, the files under the three paths, all files that ever were under the path of
the mode, how many chains there were, and what happened, the last first. -/
structure State where
  processes : List Process
  guardFile : Option File
  runFile : Option File
  modePath : Option ℕ
  files : List File
  chains : ℕ
  log : List Action
  deriving DecidableEq

/-- How a system call ends, if locks are not against it. -/
inductive Outcome
  | ok
  | interrupted
  | failed
  | short (n : ℕ)
  deriving DecidableEq

/-- What a process does or suffers next. -/
inductive Event
  | start (call : Call) (outcome : Outcome)
  | look (outcome : Outcome)
  | turn (outcome : Outcome)
  | fork
  | exec
  | release
  | die
  deriving DecidableEq

/-- `"terminal"` -/
def terminal : Bytes := [0x74, 0x65, 0x72, 0x6d, 0x69, 0x6e, 0x61, 0x6c]

/-- `"direct"` -/
def direct : Bytes := [0x64, 0x69, 0x72, 0x65, 0x63, 0x74]

/-- `geteuid`: there is one user. -/
def euid : ℕ := 0

/-- A file that `open` makes with `O_CREAT` and 0600. -/
def created : File := ⟨⟨true, 1, euid, 0o600⟩, []⟩

/-- What `open_lease` and `c1_app_lease_terminal_mode` ask of a file. -/
def accepted (file : File) : Bool :=
  file.information.regular && file.information.links == 1 && file.information.owner == euid &&
    (file.information.mode &&& 0o777) == 0o600

/-- What `write` at the start of a file makes of it. -/
def overwrite (old new : Bytes) : Bytes := new ++ old.drop new.length

namespace State

variable (s : State)

def guardFree : Bool := s.processes.all fun p => p.guard.isNone

def guardShared : Bool := s.processes.all fun p => p.guard != some .exclusive

def runFree : Bool := s.processes.all fun p => p.run.isNone

def put (i : ℕ) (p : Process) : State := { s with processes := s.processes.set i p }

def tell (action : Action) : State := { s with log := action :: s.log }

/-- `open` of the path of the mode with `O_CREAT`, and the index of the file. -/
def createMode : State × ℕ :=
  match s.modePath with
  | some file => (s, file)
  | none => ({ s with modePath := some s.files.length, files := s.files ++ [created] },
      s.files.length)

def mode (file : ℕ) : File := s.files.getD file created

def setMode (file : ℕ) (bytes : Bytes) : State :=
  { s with files := s.files.modify file fun f => { f with bytes := bytes } }

/-- `unlink` of the path of the mode; that there is no such file is no error. -/
def unlinkMode : State := { s with modePath := none }

end State

/-- The calls as they start, up to the first lock: what is wrong with the arguments. -/
def Call.valid : Call → Bool
  | .write mode => mode = terminal || mode = direct
  | _ => true

def Call.writes : Call → Bool
  | .write _ => true
  | _ => false

/-- What comes behind the guard. -/
def Call.next : Call → Place
  | .acquire => .opening
  | .write mode => .openingMode mode
  | .clear => .clearing

namespace State

variable (s : State)

/-- The loop of `mode_write_guard`: an attempt to lock the guard. -/
def guardTurn (i : ℕ) (p : Process) (call : Call) (attempts : ℕ) (outcome : Outcome) : State :=
  if outcome = .failed then s.put i { p with place := .idle }
  else if outcome ≠ .interrupted ∧ s.guardFree then
    s.put i { p with place := call.next, guard := some .exclusive }
  else if attempts ≤ 1 then s.put i { p with place := .idle }
  else s.put i { p with place := .guarding call (attempts - 1) }

/-- `c1_app_run_acquire` behind the guard. -/
def openTurn (i : ℕ) (p : Process) (outcome : Outcome) : State :=
  let file := s.runFile.getD created
  let s := { s with runFile := some file }
  if outcome = .ok ∧ accepted file then s.put i { p with place := .locking }
  else s.put i { p with place := .leaving }

def lockTurn (i : ℕ) (p : Process) (outcome : Outcome) : State :=
  if outcome = .ok ∧ s.runFree then
    ({ s with chains := s.chains + 1 }.put i
      { p with place := .unlinking, run := some s.chains }).tell (.obtained s.chains)
  else s.put i { p with place := .leaving }

def unlinkTurn (i : ℕ) (p : Process) (chain : ℕ) (outcome : Outcome) : State :=
  if outcome = .ok then (s.unlinkMode.put i { p with place := .leaving }).tell (.took chain)
  else s.put i { p with place := .dropping }

/-- `c1_app_lease_write_mode` behind the guard. -/
def openModeTurn (i : ℕ) (p : Process) (mode : Bytes) (outcome : Outcome) : State :=
  let (s, file) := s.createMode
  if outcome = .ok ∧ accepted (s.mode file) then s.put i { p with place := .truncating mode file }
  else s.put i { p with place := .leaving }

def truncateTurn (i : ℕ) (p : Process) (chain : ℕ) (mode : Bytes) (file : ℕ)
    (outcome : Outcome) : State :=
  if outcome = .ok then
    ((s.setMode file []).put i { p with place := .writing mode file }).tell (.changed chain)
  else s.put i { p with place := .leaving }

def writeTurn (i : ℕ) (p : Process) (chain : ℕ) (mode : Bytes) (file : ℕ)
    (outcome : Outcome) : State :=
  let left := { p with place := .leaving }
  match outcome with
  | .ok => ((s.setMode file (overwrite (s.mode file).bytes mode)).put i left).tell
      (.wrote chain mode)
  | .short n => (s.setMode file (overwrite (s.mode file).bytes
      (mode.take (min n (mode.length - 1))))).put i left
  | _ => s.put i left

/-- `c1_app_lease_clear_mode` behind the guard. -/
def clearTurn (i : ℕ) (p : Process) (outcome : Outcome) : State :=
  if outcome = .ok then (s.unlinkMode.put i { p with place := .leaving }).tell .cleared
  else s.put i { p with place := .leaving }

/-- `c1_app_lease_terminal_mode` behind the guard. -/
def lookTurn (i : ℕ) (p : Process) (outcome : Outcome) : State :=
  match s.modePath with
  | some file =>
    if outcome = .ok then s.put i { p with place := .reading file }
    else (s.put i { p with place := .answering false }).tell (.answered i false)
  | none => (s.put i { p with place := .answering false }).tell (.answered i false)

/-- At most sixteen bytes are read. -/
def readTurn (i : ℕ) (p : Process) (file : ℕ) (outcome : Outcome) : State :=
  let read := (s.mode file).bytes.take 16
  let answer := outcome = .ok && accepted (s.mode file) && read = terminal
  (s.put i { p with place := .answering answer }).tell (.answered i answer)

/-- The next system call of a call. -/
def turn (i : ℕ) (p : Process) (outcome : Outcome) : State :=
  match p.place with
  | .idle | .dead => s
  | .guarding call attempts => s.guardTurn i p call attempts outcome
  | .opening => s.openTurn i p outcome
  | .locking => s.lockTurn i p outcome
  | .unlinking => s.unlinkTurn i p (p.run.getD 0) outcome
  | .dropping => s.put i { p with place := .leaving, run := none }
  | .openingMode mode => s.openModeTurn i p mode outcome
  | .truncating mode file => s.truncateTurn i p (p.run.getD 0) mode file outcome
  | .writing mode file => s.writeTurn i p (p.run.getD 0) mode file outcome
  | .clearing => s.clearTurn i p outcome
  | .leaving => s.put i { p with place := .idle, guard := none }
  | .looking => s.lookTurn i p outcome
  | .reading file => s.readTurn i p file outcome
  | .answering answer =>
    (s.put i { p with place := .idle, guard := none }).tell (.returned i answer)

/-- A call of `c1_app_run_acquire`, `c1_app_lease_write_mode` or `c1_app_lease_clear_mode`, up to
the loop of `mode_write_guard`; only who has the run lock writes the mode. -/
def start (i : ℕ) (p : Process) (call : Call) (outcome : Outcome) : State :=
  if !call.valid || (call.writes && p.run.isNone) then s
  else
    let file := s.guardFile.getD created
    let s := { s with guardFile := some file }
    if outcome = .ok ∧ accepted file then s.put i { p with place := .guarding call 100 } else s

/-- A call of `c1_app_lease_terminal_mode`, up to the lock of the guard. -/
def look (i : ℕ) (p : Process) (outcome : Outcome) : State :=
  let file := s.guardFile.getD created
  let s := { s with guardFile := some file }
  if outcome = .ok ∧ accepted file ∧ s.guardShared then
    s.put i { p with place := .looking, guard := some .shared }
  else s

/-- Between its calls a process forks, executes an application or closes the run lock. -/
def between (i : ℕ) (p : Process) : Event → State
  | .start call outcome => s.start i p call outcome
  | .look outcome => s.look i p outcome
  | .fork => { s with processes := s.processes ++ [p] }
  -- the guard is closed on exec, the run lock is not
  | .exec => s.put i { p with guard := none }
  | .release => s.put i { p with run := none }
  | _ => s

def step (i : ℕ) (event : Event) : State :=
  match s.processes[i]? with
  | none => s
  | some p =>
    match event with
    | .turn outcome => s.turn i p outcome
    -- the kernel closes what the process had open
    | .die => s.put i ⟨.dead, none, none⟩
    | event => if p.place = .idle then s.between i p event else s

end State

/-- Some processes before any of them has made a call. -/
def initial (n : ℕ) : State :=
  ⟨List.replicate n ⟨.idle, none, none⟩, none, none, none, [], 0, []⟩

/-- A run in which the processes take turns in any order. -/
def run (s : State) (events : List (ℕ × Event)) : State :=
  events.foldl (fun s e => s.step e.1 e.2) s

end C1auncher.Platform.AppLease
