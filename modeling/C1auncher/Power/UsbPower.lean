import C1auncher.CString
import C1auncher.Traces

/-!
USB around a suspend: what is captured before, and the bounded attempts to restore it afterwards.

All I/O is injected. What the operations return is a script; the trace of a run has each operation
together with what it returned, the newest one in front.
-/

namespace C1auncher.Power.UsbPower

open C1auncher.CString (Text)

/-! ### The injected operations -/

/-- The files of `c1_usb_power_paths`. -/
inductive Path where
  | udc
  | adbLink
  | mtpLink
  | adbEndpoint (index : Fin 2)
  | mtpEndpoint (index : Fin 3)
  deriving DecidableEq

/-- The scripts of `c1_usb_power_paths`. -/
inductive Script where
  | adbScript
  | mtpScript
  deriving DecidableEq

inductive Action where
  | stop
  | start
  | suspendoff
  deriving DecidableEq

/-- An operation and what it returned. Not an operation is `captured`: it stands where the context
takes note of what is enabled and bound. -/
inductive Event where
  | exists_ (path : Path) (found : ℤ)
  | readUdc (ok : Bool) (value : Text)
  | writeUdc (value : Text) (ok : Bool)
  | run (script : Script) (action : Action) (ok : Bool)
  | pauseMs (milliseconds : ℕ)
  | heartbeat
  | captured (adb mtp : Bool) (udc : Text)
  deriving DecidableEq

/-- What an operation returns, of whatever kind it is: a text is what the buffer holds up to its
end. -/
structure Answer where
  found : ℤ
  ok : Bool
  value : Text
  deriving DecidableEq

/-- `c1_usb_power_context` -/
@[ext] structure Context where
  captured : Bool
  adbEnabled : Bool
  mtpEnabled : Bool
  restorePending : Bool
  adbStartAttempted : Bool
  adbStarted : Bool
  mtpStarted : Bool
  udc : Text
  deriving DecidableEq

/-- The context of static storage, which is also what `memset` leaves. -/
def Context.zero : Context := ⟨false, false, false, false, false, false, false, []⟩

@[ext] structure State where
  context : Context
  trace : List Event
  deriving DecidableEq

abbrev Op : Type → Type := StateM State

def State.log (s : State) (new : List Event) : State := { s with trace := new ++ s.trace }

@[simp] lemma State.log_context (s : State) (new : List Event) :
    (s.log new).context = s.context := rfl

@[simp] lemma State.log_trace (s : State) (new : List Event) :
    (s.log new).trace = new ++ s.trace := rfl

lemma State.log_log (s : State) (new more : List Event) :
    (s.log new).log more = s.log (more ++ new) :=
  State.ext rfl (List.append_assoc _ _ _).symm

def change (f : Context → Context) : Op Unit := fun s => ((), { s with context := f s.context })

section
variable (answers : ℕ → Answer)

/-- One operation, with the next answer of the script. -/
def perform {α : Type} (result : Answer → α) (event : Answer → Event) : Op α := fun s =>
  (result (answers s.trace.length), s.log [event (answers s.trace.length)])

/-- `ops->exists` -/
def exists_ (path : Path) : Op ℤ := perform answers (·.found) fun a => .exists_ path a.found

/-- `ops->read_udc`, with what it leaves in the buffer. -/
def readUdc : Op (Bool × Text) :=
  perform answers (fun a => (a.ok, a.value)) fun a => .readUdc a.ok a.value

/-- `ops->write_udc` -/
def writeUdc (value : Text) : Op Bool := perform answers (·.ok) fun a => .writeUdc value a.ok

/-- `ops->run` -/
def run (script : Script) (action : Action) : Op Bool :=
  perform answers (·.ok) fun a => .run script action a.ok

/-- `ops->pause_ms` -/
def pauseMs (milliseconds : ℕ) : Op Unit := fun s => ((), s.log [.pauseMs milliseconds])

/-- `ops->heartbeat` -/
def heartbeat : Op Unit := fun s => ((), s.log [.heartbeat])

/-! ### Before the suspend -/

/-- The context takes note of the functions and the binding. -/
def capture (adb mtp : Bool) (udc : Text) : Op Unit := fun s =>
  ((), State.log { s with context := { s.context with
      adbEnabled := adb
      mtpEnabled := mtp
      captured := true
      restorePending := adb || mtp } } [.captured adb mtp udc])

/-- The part of `c1_usb_power_prepare` behind the tests for the files. -/
def captureAndStop (adb mtp : ℤ) : Op Bool := do
  let (ok, value) ← readUdc answers
  change fun context => { context with udc := value }
  if !ok then pure false
  else
    capture (adb ≠ 0) (mtp ≠ 0) value
    heartbeat
    if adb ≠ 0 then run answers .adbScript .stop else pure true

/-- `c1_usb_power_prepare` -/
def c1UsbPowerPrepare : Op Bool := do
  if (← get).context.restorePending then pure false
  else
    change fun _ => .zero
    let adb ← exists_ answers .adbLink
    let mtp ← exists_ answers .mtpLink
    let udc ← exists_ answers .udc
    if adb < 0 ∨ mtp < 0 ∨ udc < 0 then pure false
    else if udc = 0 then pure (adb = 0 ∧ mtp = 0)
    else captureAndStop answers adb mtp

/-! ### After it -/

/-- The loop of `function_ready`, over the link and the endpoints. -/
def allExist : List Path → Op Bool
  | [] => pure true
  | path :: paths => do
    if (← exists_ answers path) ≠ 1 then pure false else allExist paths

def adbPaths : List Path := [.adbLink, .adbEndpoint 0, .adbEndpoint 1]

def mtpPaths : List Path := [.mtpLink, .mtpEndpoint 0, .mtpEndpoint 1, .mtpEndpoint 2]

/-- `function_ready`, or that the function is not there if it is not enabled. -/
def functionReady (enabled : Bool) (link : Path) (paths : List Path) : Op Bool :=
  if enabled then allExist answers paths
  else do pure ((← exists_ answers link) = 0)

/-- `functions_ready` -/
def functionsReady : Op Bool := do
  let context := (← get).context
  let adb ← functionReady answers context.adbEnabled .adbLink adbPaths
  let mtp ← functionReady answers context.mtpEnabled .mtpLink mtpPaths
  pure (adb && mtp)

/-- A retry first looks whether a start that failed has been enough. -/
def alreadyUp (attempted : Bool) : Op Bool :=
  if attempted then allExist answers adbPaths else pure false

/-- The part of `c1_usb_power_resume` for ADB, which returns whether `scripts_ok` stays. -/
def startAdb : Op Bool := do
  let context := (← get).context
  if context.adbEnabled && !context.adbStarted then
    if ← alreadyUp answers context.adbStartAttempted then
      change fun context => { context with adbStarted := true }
      pure true
    else
      change fun context => { context with adbStartAttempted := true }
      let started ← run answers .adbScript .start
      change fun context => { context with adbStarted := started }
      pure started
  else pure true

/-- The part of `c1_usb_power_resume` for MTP. -/
def startMtp : Op Bool := do
  let context := (← get).context
  if context.mtpEnabled && !context.mtpStarted then
    let started ← run answers .mtpScript .suspendoff
    change fun context => { context with mtpStarted := started }
    pure started
  else pure true

/-- `USB_READY_POLLS` -/
def readyPolls : ℕ := 100

/-- The loop that waits for the functions, with so many polls left after this one. -/
def waitReady : ℕ → Op Bool
  | 0 => do
    heartbeat
    functionsReady answers
  | left + 1 => do
    heartbeat
    if ← functionsReady answers then pure true
    else
      pauseMs 50
      waitReady left

/-- The binding, where it was lost and nothing else is bound. -/
def restoreBinding : Op Bool := do
  let udc := (← get).context.udc
  let (ok, current) ← readUdc answers
  if !ok then pure false
  else if current ≠ [] ∧ current ≠ udc then pure false
  else if current = [] ∧ udc ≠ [] then
    if ← writeUdc answers udc then
      pauseMs 100
      heartbeat
      pure true
    else pure false
  else pure true

/-- The last look at the binding and the functions. -/
def confirm : Op Bool := do
  let udc := (← get).context.udc
  let (ok, current) ← readUdc answers
  if !ok || current ≠ udc then pure false
  else if ← functionsReady answers then
    change fun context => { context with restorePending := false }
    pure true
  else pure false

/-- The part of `c1_usb_power_resume` behind the scripts. -/
def awaitAndBind : Op Bool := do
  if ← waitReady answers readyPolls then
    if ← restoreBinding answers then confirm answers else pure false
  else pure false

/-- `c1_usb_power_resume` -/
def c1UsbPowerResume : Op Bool := do
  let context := (← get).context
  if !context.captured || !context.restorePending then pure true
  else
    heartbeat
    let adb ← startAdb answers
    let mtp ← startMtp answers
    if adb && mtp then awaitAndBind answers else pure false

/-! ### Calls -/

inductive Call where
  | prepare
  | resume
  deriving DecidableEq

def Call.perform : Call → Op Bool
  | .prepare => c1UsbPowerPrepare answers
  | .resume => c1UsbPowerResume answers

def afterCalls (calls : List Call) : State :=
  calls.foldl (fun s call => (call.perform answers s).2) ⟨.zero, []⟩

end

end C1auncher.Power.UsbPower
