import C1auncher.Durable
import C1auncher.Utf8Bytes

/-!
The log of the supervised program: a file under the log's name, and older ones behind it under
the same name with a number, each of a bounded length.

Only the names of the log matter of its directory, which is private to this process and locked.
Every file operation may fail, and the process may die at it.
-/

namespace C1auncher.Update.Log

open Function Durable Durable.Prog Utf8Bytes

/-- A file under one of the log's names, and whether it is one as `private_file` wants it. -/
structure File where
  isPrivate : Bool
  bytes : Bytes
  deriving DecidableEq

/-- The files of the directory, by the number `filename` puts behind the name; 0 puts none. -/
abbrev Files : Type := ℕ → Option File

/-- `log_sink` with its directory: what is in it, and the count of the bytes in the active file
while the sink is enabled. -/
structure Sink where
  files : Files
  used : Option ℕ

/-- What a call of `write` that does not fail comes to; it takes no more than it is given. -/
inductive Written
  | took (k : ℕ)
  | interrupted

section Operations

/-- `unlinkat`; that there is no such file is no error to those who call it. -/
def unlink (index : ℕ) (files : Files) : Files := update files index none

/-- `renameat` to the next number; that there is no such file is no error to those who call it. -/
def rename (index : ℕ) (files : Files) : Files :=
  match files index with
  | none => files
  | some file => update (update files (index + 1) (some file)) index none

/-- `openat` with `O_CREAT` -/
def create (files : Files) : Files :=
  match files 0 with
  | none => update files 0 (some ⟨true, []⟩)
  | some _ => files

/-- `write` with `O_APPEND` -/
def append (data : Bytes) (files : Files) : Files :=
  update files 0 ((files 0).map fun file => { file with bytes := file.bytes ++ data })

end Operations

variable (limit rotations : ℕ)

/-- The turn of the loop of `validate_files` for one name. -/
def validateFile (trim : Bool) (index : ℕ) : Prog Files Unit := do
  match ← look fun files => files index with
  | none => pure ()
  | some file =>
    require (file.isPrivate = true)
    when (limit < file.bytes.length) do
      require (trim = true)
      act (unlink index)

/-- The loop of `validate_files` over the names that are left. -/
def validateNames (trim : Bool) : List ℕ → Prog Files Unit
  | [] => pure ()
  | index :: indices => do
    validateFile limit trim index
    validateNames trim indices

/-- `validate_files` -/
def validateFiles (trim : Bool) : Prog Files Unit := do
  tick
  validateNames limit trim (List.range (rotations + 1))

/-- `open_log`; it returns what it sets `used` to. -/
def openLog : Prog Files ℕ := do
  act create
  let file ← get (← look fun files => files 0)
  require (file.isPrivate = true ∧ file.bytes.length ≤ limit)
  pure file.bytes.length

/-- The loop of `rotate` from one number down. -/
def renames : ℕ → Prog Files Unit
  | 0 => pure ()
  | index + 1 => do
    act (rename index)
    renames index

/-- `rotate` -/
def rotate : Prog Files ℕ := do
  validateFiles limit rotations false
  act (unlink rotations)
  renames rotations
  openLog limit

/-- A full active file makes room before anything is written. -/
def makeRoom (used : ℕ) : Prog Files ℕ := if used = limit then rotate limit rotations else pure used

/-- The loop of `collect` with what the calls of `write` come to. A call after those that are
given takes nothing. -/
def collectLoop : List Written → ℕ → Bytes → Prog Files ℕ
  | _, used, [] => pure used
  | [], _, _ :: _ => Prog.fail
  | outcome :: outcomes, used, data => do
    let used ← makeRoom limit rotations used
    let amount := min (limit - used) data.length
    match outcome with
    | .interrupted => collectLoop outcomes used data
    | .took k =>
      let written := min (k + 1) amount
      require (0 < written)
      act (append (data.take written))
      collectLoop outcomes (used + written) (data.drop written)

/-- `collect` of an enabled sink. The file that is open is the one under the log's name. -/
def collectBlock (writes : List Written) (used : ℕ) (data : Bytes) : Prog Files ℕ := do
  validateFiles limit rotations false
  let opened ← get (← look fun files => files 0)
  tick
  require (opened.bytes.length = used)
  collectLoop limit rotations writes used data

/-- What is left of the sink behind a program; when it fails, or the process dies, the sink is
disabled. -/
def leave : Outcome ℕ × Files × List Reply → Sink
  | (.done used, files, _) => ⟨files, some used⟩
  | (_, files, _) => ⟨files, none⟩

/-- One call of `collect`: the block, and how the surroundings answer. -/
structure Call where
  data : Bytes
  writes : List Written
  replies : List Reply

/-- `collect` -/
def collect (sink : Sink) (call : Call) : Sink :=
  match sink.used with
  | none => sink
  | some used =>
    leave (collectBlock limit rotations call.writes used call.data call.replies sink.files)

/-- `initialize_sink` in an open directory -/
def initializeSink (files : Files) (replies : List Reply) : Sink :=
  leave ((do validateFiles limit rotations true; openLog limit : Prog Files ℕ) replies files)

/-- One block after the other. -/
def collects (sink : Sink) (calls : List Call) : Sink := calls.foldl (collect limit rotations) sink

end C1auncher.Update.Log
