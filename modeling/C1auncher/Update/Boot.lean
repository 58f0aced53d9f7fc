import C1auncher.Update.Transaction

/-!
Selecting the release to boot: activation, recovery, confirmation and rollback.

Five durable objects change one after another: the state, the links `current` and
`previous`, the rollback marker and the record of pending boots.
-/

namespace C1auncher.Update.Boot

open Durable CString
open Update.StateStore Update.Protocol Update.Transaction

/-! ### Links -/

/-- The two links of the core directory. -/
inductive Pointer
  | current
  | previous
  deriving DecidableEq

def Pointer.get (d : Device) : Pointer → Option Text
  | .current => d.current
  | .previous => d.previous

def Pointer.set (target : Text) (d : Device) : Pointer → Device
  | .current => { d with current := some target }
  | .previous => { d with previous := some target }

/-- A target `read_pointer` accepts. -/
def acceptTarget (target : Option Text) : Option Text :=
  target.filter fun target => target.length < 192 && (parseTarget target).isSome

def readPointer (which : Pointer) : Prog Device Text := do
  let target ← .look (which.get ·)
  .get (acceptTarget target)

/-- A temporary link, renamed over the old one. -/
def atomicPointer (which : Pointer) (target : Text) : Prog Device Unit := do
  .require (parseTarget target).isSome
  .tick -- `lstat`
  .tick -- the temporary link
  .act fun d => which.set target d
  .tick

/-! ### Releases -/

/-- What `c1_update_validate_release` accepts. -/
def releaseValid (host : BootstrapRecord) (releases : Text → Option Release) (target : Text)
    (identity : Option State) : Bool :=
  match parseTarget target with
  | none => false
  | some name =>
    match releases name with
    | none => false
    | some release => checkCompatibility host release &&
        name == releaseName release.sequence release.version &&
        identity.all (stateIdentity · release)

def validateRelease (host : BootstrapRecord) (target : Text) (identity : Option State) :
    Prog Device Unit := do
  let valid ← .look fun d => releaseValid host d.releases target identity
  .require valid

/-! ### Pending boots -/

/-- `C1_UPDATE_PENDING_BOOT_LIMIT` -/
def pendingBootLimit : ℕ := 3

def validBootId (id : Text) : Bool :=
  id.length == 36 && (id.zipIdx).all fun (c, i) =>
    if i == 8 || i == 13 || i == 18 || i == 23 then c == '-'
    else ('0' ≤ c && c ≤ '9') || ('a' ≤ c && c ≤ 'f')

/-- The text of `pending-boots.v1`. -/
def pendingBootsText (digest bootId : Text) (attempts : ℕ) : Text :=
  digest ++ ['\n'] ++ bootId ++ ['\n'] ++ Nat.toDigits 10 attempts ++ ['\n']

/-- Only the canonical text of a record is accepted, so the record is read off it. -/
def parsePendingBoots (data : Text) : Option (Text × Text × ℕ) := do
  let digest := data.take 64
  let bootId := (data.drop 65).take 36
  guard (validDigest digest && validBootId bootId)
  let attempts ← [1, 2, 3].find? fun attempts => data == pendingBootsText digest bootId attempts
  some (digest, bootId, attempts)

/-- A temporary file, renamed into place and synced. -/
def atomicWrite (write : Device → Device) : Prog Device Unit := do
  .tick
  .act write
  .tick

def clearPendingBoots : Prog Device Unit := do
  match ← .look Device.boots with
  | none => pure ()
  | some _ => do
    .act fun d => { d with boots := none }
    .tick

/-- Count a boot of the candidate; `true` where it has had its boots. -/
def countPendingBoot (state : State) (bootId : Text) : Prog Device Bool := do
  .require (validBootId bootId)
  let attempts ← (do
    match ← .look Device.boots with
    | none => pure (some 0)
    | some data =>
      let (digest, previousBoot, attempts) ← .get (parsePendingBoots data)
      if digest ≠ state.digest then pure (some 0)
      else if previousBoot = bootId then pure none
      else pure (some attempts) : Prog Device (Option ℕ))
  match attempts with
  | none => pure false -- this very boot was counted before
  | some attempts =>
    if attempts ≥ pendingBootLimit then pure true
    else do
      atomicWrite fun d => { d with
        boots := some (pendingBootsText state.digest bootId (attempts + 1)) }
      pure false

/-! ### The rollback marker -/

def markerText (state : State) : Text := state.digest ++ ['\n']

def rollbackMarkerStatus (state : State) : Prog Device Bool := do
  match ← .look Device.marker with
  | none => pure false
  | some data => do
    .require (state.digest.length = 64 ∧ data = markerText state)
    pure true

def markRollback (state : State) : Prog Device Unit := do
  .require (state.digest.length = 64)
  atomicWrite fun d => { d with marker := some (markerText state) }

def clearRollbackMarker : Prog Device Unit := do
  .act fun d => { d with marker := none }
  .tick

/-! ### The operations -/

def stateAdvance (state : State) (phase : Phase) (failed : Bool) : Prog Device State := do
  let next ← .get (updateTransition (some state) phase state.sequence state.securityEpoch
    state.release state.digest failed)
  stateCommit state next
  .when (phase = .confirmed ∨ phase = .idle) clearPendingBoots
  pure next

def rollbackLocked (previous : Text) (state : State) : Prog Device State := do
  markRollback state
  atomicPointer .current previous
  let state ← (if state.phase = .pendingBoot then stateAdvance state .prepared false
    else pure state)
  let state ← (if state.phase = .prepared ∨ state.phase = .confirmed then
      stateAdvance state .idle true
    else pure state)
  .require (state.phase = .idle)
  clearRollbackMarker
  pure state

/-- The part of `recover_locked` behind a marker. -/
def resumeRollback (host : BootstrapRecord) (state : State) : Prog Device State := do
  .require (state.phase = .pendingBoot ∨ state.phase = .prepared ∨ state.phase = .idle ∨
    state.phase = .confirmed)
  let previous ← readPointer .previous
  validateRelease host previous none
  match state.phase with
  | .idle =>
    atomicPointer .current previous
    clearRollbackMarker
    pure state
  | .confirmed =>
    atomicPointer .current previous
    let state ← stateAdvance state .idle true
    clearRollbackMarker
    pure state
  | _ => rollbackLocked previous state

/-- The part of `recover_locked` for a pending boot. -/
def recoverPending (host : BootstrapRecord) (state : State) : Prog Device State := do
  let candidate := candidateTarget state
  let previous ← readPointer .previous
  validateRelease host previous none
  let candidateValid ← .attempt (validateRelease host candidate (some state))
  let current ← (if candidateValid.isSome then .attempt (readPointer .current) else pure none)
  if current = some candidate then pure state
  else if current = some previous then do
    atomicPointer .current candidate
    pure state
  else rollbackLocked previous state

/-- The state afterwards is the one the function leaves in its argument. -/
def recoverLocked (host : BootstrapRecord) (state : State) : Prog Device State := do
  let marked ← rollbackMarkerStatus state
  if marked then resumeRollback host state
  else if state.phase ≠ .pendingBoot then pure state
  else recoverPending host state

def activate (host : BootstrapRecord) : Prog Device Unit := do
  .tick -- the transaction lock
  let state ← stateLoad
  let marked ← rollbackMarkerStatus state
  if marked ∨ state.phase = .pendingBoot then
    let _ ← recoverLocked host state
  else
    .require (state.phase = .prepared)
    let candidate := candidateTarget state
    validateRelease host candidate (some state)
    let current ← readPointer .current
    validateRelease host current none
    atomicPointer .previous current
    let _ ← stateAdvance state .pendingBoot false
    atomicPointer .current candidate

/-- Whether a link is there; one that selects another release is refused. -/
def bootstrapPointerStatus (which : Pointer) (candidate : Text) : Prog Device Bool := do
  match ← .look (which.get ·) with
  | none => pure false
  | some _ => do
    let target ← readPointer which
    .require (target = candidate)
    pure true

def bootstrapActivate (host : BootstrapRecord) : Prog Device Unit := do
  .tick -- the transaction lock
  let state ← stateLoad
  .require (state.phase = .prepared ∨ state.phase = .pendingBoot)
  let candidate := candidateTarget state
  validateRelease host candidate (some state)
  let currentStatus ← bootstrapPointerStatus .current candidate
  let previousStatus ← bootstrapPointerStatus .previous candidate
  .require ¬(state.phase = .prepared ∧ (currentStatus ∨ previousStatus))
  let state ← (if state.phase = .prepared then stateAdvance state .pendingBoot false
    else pure state)
  .when (¬currentStatus) (atomicPointer .current candidate)
  .when (¬previousStatus) (atomicPointer .previous candidate)
  let _ ← stateAdvance state .confirmed false

def recoverBoot (host : BootstrapRecord) (bootId : Text) : Prog Device Unit := do
  .require (validBootId bootId)
  .tick -- the transaction lock
  let state ← stateLoad
  let state ← recoverLocked host state
  if state.phase = .pendingBoot then
    let counted ← .attempt (countPendingBoot state bootId)
    if counted = some false then pure ()
    else do
      let previous ← readPointer .previous
      validateRelease host previous none
      let _ ← rollbackLocked previous state
  else clearPendingBoots

def confirm (host : BootstrapRecord) : Prog Device Unit := do
  .tick -- the transaction lock
  let state ← stateLoad
  .require (state.phase = .pendingBoot)
  let current ← readPointer .current
  .require (current = candidateTarget state)
  validateRelease host current (some state)
  let _ ← stateAdvance state .confirmed false

def rollback (host : BootstrapRecord) : Prog Device Unit := do
  .tick -- the transaction lock
  let state ← stateLoad
  .require (state.phase = .pendingBoot ∨ state.phase = .confirmed)
  let previous ← readPointer .previous
  .when (state.phase = .confirmed) do
    let current ← readPointer .current
    .require (current ≠ previous)
  validateRelease host previous none
  let _ ← rollbackLocked previous state

/-- Up to the `fexecve` of the verified updater. -/
def recoveryExec (host : BootstrapRecord) (which : Pointer) : Prog Device Unit := do
  .tick -- the transaction lock
  let state ← stateLoad
  let target ← readPointer which
  validateRelease host target
    (if which = .current ∧ (state.phase = .confirmed ∨ state.phase = .pendingBoot) then some state
      else none)
  .tick -- the updater of the release, opened and hashed
  .when (which = .previous)
    (if state.phase = .pendingBoot ∨ state.phase = .confirmed ∨ state.phase = .prepared then do
      let _ ← rollbackLocked target state
    else atomicPointer .current target)
  .tick -- `fexecve`

/-! ### Runs -/

/-- The operations on the updater's durable objects. -/
inductive Op
  | prepare (release : Release)
  | activate
  | bootstrapActivate
  | recover (bootId : Text)
  | confirm
  | rollback
  | recoveryExec (which : Pointer)

def program (host : BootstrapRecord) : Op → Prog Device Unit
  | .prepare release => prepare host release
  | .activate => activate host
  | .bootstrapActivate => bootstrapActivate host
  | .recover bootId => recoverBoot host bootId
  | .confirm => confirm host
  | .rollback => rollback host
  | .recoveryExec which => recoveryExec host which

/-- An operation, complete or cut short: what the file operations in it come to. -/
structure Step where
  op : Op
  replies : List Reply

def exec (host : BootstrapRecord) (step : Step) (d : Device) : Device :=
  (program host step.op).after step.replies d

end C1auncher.Update.Boot
