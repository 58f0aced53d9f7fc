import C1auncher.Routines
import C1auncher.Wifi.Control

/-!
The Wi-Fi service of one process: its static variables, its I/O boundary, and its operations.

Everything outside the process (the supplicant, the DHCP client, the clock, the other processes)
is a device of some type `D`, which any call of the boundary may change. A loop takes at most
`fuel` turns; a call that takes more does not return.
-/

namespace C1auncher.Wifi.Service

open CString Routines Wifi.Control

/-- `C1_WIFI_OBSERVE_MS` -/
def observeMs : ℤ := 40

/-- `C1_WIFI_OBSERVE_CACHE_MS` -/
def observeCacheMs : ℤ := 1000

/-- `C1_WIFI_CONNECT_MS` -/
def connectMs : ℤ := 45000

/-- `C1_WIFI_SCAN_MS` -/
def scanMs : ℤ := 20000

/-- `C1_WIFI_ROLLBACK_MS` -/
def rollbackMs : ℤ := 10000

/-- `C1_WIFI_HARDWARE_MS` -/
def hardwareMs : ℤ := 6000

/-- `c1_wifi_state` -/
inductive WifiState
  | disabled
  | ready
  | scanning
  | connecting
  | connected
  | error
  deriving DecidableEq

/-- `c1_wifi_phase` -/
inductive Phase
  | idle
  | preparing
  | scanning
  | authenticating
  | acquiringAddress
  | saving
  | restoring
  | done
  | cancelled
  | failed
  deriving DecidableEq

/-- The values of `c1_status` the service returns. -/
inductive Status
  | ok
  | invalidArgument
  | unsupported
  | unavailable
  | ioError
  | interrupted
  deriving DecidableEq

/-- `c1_wifi_snapshot` -/
structure Snapshot where
  state : WifiState
  networks : List Network
  connectedSsid : Text
  ipv4 : Text
  error : Text
  phase : Phase
  deriving DecidableEq

/-- A command to the supplicant. The constructors take the words that follow the verb. -/
inductive Command
  | ping
  | status
  | listNetworks (lastId : Option ℤ)
  | addNetwork
  | setNetwork (id : ℤ) (name : Text) (value : Text)
  | getNetwork (id : ℤ) (name : Text)
  | removeNetwork (id : ℤ)
  | selectNetwork (id : ℤ)
  | enableNetwork (id : ℤ)
  | disableNetwork (id : ℤ)
  | disconnect
  | reconnect
  | saveConfig
  | bssFlush
  | scan
  | bss (previous : Option ℤ)
  deriving DecidableEq

/-- What `wifi_io.events_wait` returns. -/
inductive ScanEvent
  | none
  | results
  | failed
  deriving DecidableEq

/-- What `ensure_wifi_ready` does to the process besides its result: the error it sets, the control
directory it settles on, and whether it heard that the operation is cancelled. -/
structure Ready where
  ok : Bool
  error : Option Text
  factory : Bool
  stop : Bool
  deriving DecidableEq

/-- The I/O boundary, `wifi_io` and what is called beside it. The calls that wait also return
whether the progress callback asked to stop in the meantime. -/
structure WifiIo (D : Type) where
  now : D → ℤ × D
  sleep : ℤ → D → D
  /-- `active_options->progress` -/
  progress : Phase → D → Bool × D
  disabledMarker : D → Bool × D
  setDisabledMarker : Bool → D → Bool × D
  /-- `control_ready_at`, of the factory directory or the private one -/
  controlReady : Bool → ℤ → D → (Bool × Bool) × D
  ready : D → Ready × D
  command : Bool → Command → ℕ → ℤ → D → Option Text × D
  observeStatus : Bool → ℤ → D → Option Text × D
  /-- The address that `SIOCGIFADDR` returns for `wlan0`. -/
  address : D → Option ℕ × D
  dhcpAvailable : D → Bool × D
  dhcp : ℤ → D → (Bool × Bool) × D
  stopDhcp : D → (Bool × Bool) × D
  clearAddress : D → Bool × D
  secureConfig : D → Bool × D
  backupConfig : D → Option Text × D
  restoreConfig : Text → D → Bool × D
  enable : Bool → D → Bool × D
  eventsOpen : D → (Bool × Bool) × D
  eventsWait : ℤ → D → ScanEvent × D
  eventsClose : D → D
  /-- The key that `derive_wpa_psk` computes of an SSID and a password. -/
  psk : Text → Text → Text

/-- The last observation that `c1_wifi_read_snapshot` made or was given. -/
structure Observation where
  valid : Bool
  connected : Bool
  controlAvailable : Bool
  interfaceDisabled : Bool
  contextState : WifiState
  target : Text
  ssid : Text
  ipv4 : Text
  checkedAt : ℤ
  deriving DecidableEq

def Observation.empty : Observation := ⟨false, false, false, false, .disabled, [], [], [], 0⟩

/-- What the process saw, for the statements about a run. -/
inductive Seen
  /-- A call of the service began. -/
  | called
  | clock (t : ℤ)
  | replied (command : Command) (reply : Text)
  | address (ipv4 : Text)
  /-- `wifi_io.dhcp` succeeded. -/
  | leased
  /-- `SAVE_CONFIG` is about to be sent. -/
  | saving
  deriving DecidableEq

/-- A return of `c1_wifi_read_snapshot`: the state of the process and whether a disable was in force
when it looked, what it returned, and what had been seen, the last first. -/
structure Read where
  state : WifiState
  off : Bool
  snapshot : Snapshot
  log : List Seen
  deriving DecidableEq

/-- The static variables of the service, the device, and the ghost history. -/
structure State (D : Type) where
  device : D
  currentState : WifiState
  currentPhase : Phase
  cachedNetworks : List Network
  cachedConnectedSsid : Text
  lastError : Text
  /-- `active_options` with a progress callback. -/
  activeOptions : Bool
  operationDeadline : ℤ
  operationCancelled : Bool
  restoring : Bool
  explicitlyDisabled : Bool
  /-- `scan_profiles`, where they are valid, with `scan_profile_matches`. -/
  scanProfiles : Option (List (SavedNetwork × Option Bool × Option Bool))
  usingFactoryControl : Bool
  observation : Observation
  log : List Seen
  reads : List Read

def State.start {D : Type} (device : D) : State D :=
  ⟨device, .disabled, .idle, [], [], [], false, 0, false, false, false, none, false, .empty, [], []⟩

abbrev Op (D : Type) : Type → Type := Routine (State D)

section
variable {D : Type} (io : WifiIo D)

/-- One call of the boundary. -/
def ask {α : Type} (f : D → α × D) : Op D α := fun s =>
  some ((f s.device).1, { s with device := (f s.device).2 })

def see (seen : Seen) : Op D Unit := modify fun s => { s with log := seen :: s.log }

/-- The end of a call that waits. -/
def hear (stop : Bool) : Op D Unit := modify fun s =>
  { s with
    operationCancelled := s.operationCancelled || (stop && s.activeOptions && !s.restoring) }

/-- `set_error` -/
def setError (message : String) : Op D Unit := modify fun s =>
  { s with currentState := .error, lastError := message.toList }

def now : Op D ℤ := do
  let t ← ask io.now
  see (.clock t)
  return t

/-- `wifi_io.sleep` -/
def sleep (ms : ℤ) : Op D Unit := ask fun d => ((), io.sleep ms d)

/-- `continue_operation` -/
def continueOperation : Op D Bool := do
  let s ← get
  if s.activeOptions then
    let go ← ask (io.progress s.currentPhase)
    hear !go
  let s ← get
  if s.operationCancelled && !s.restoring then return false
  if s.operationDeadline = 0 then return true
  return (← now io) < s.operationDeadline

/-- `remaining_ms` -/
def remainingMs (maximum : ℤ) : Op D ℤ := do
  if ← continueOperation io then
    let s ← get
    if s.operationDeadline = 0 then return maximum
    let remaining := s.operationDeadline - (← now io)
    return if remaining ≤ 0 then 0 else min remaining maximum
  return 0

/-- `begin_operation` -/
def beginOperation (options : Bool) (timeoutMs : ℤ) : Op D Unit := do
  modify fun s => { s with
    activeOptions := options
    scanProfiles := none
    observation := { s.observation with valid := false } }
  let marker ← ask io.disabledMarker
  modify fun s => { s with
    explicitlyDisabled := marker
    operationCancelled := false
    restoring := false }
  let t ← now io
  modify fun s => { s with
    operationDeadline := t + timeoutMs
    currentPhase := .preparing
    lastError := [] }

/-- `command` -/
def command (c : Command) (capacity : ℕ) : Op D (Option Text) := do
  let timeout ← remainingMs io 750
  if timeout ≤ 0 then return none
  let s ← get
  match ← ask (io.command s.usingFactoryControl c capacity timeout) with
  | none => return none
  | some reply =>
    see (.replied c reply)
    return some reply

/-- `command_ok` -/
def commandOk (c : Command) : Op D Bool := do
  return (← command io c 128).any (replyIs · "OK".toList)

/-- `wifi_io.ipv4`: neither zero, loopback, multicast nor link-local. -/
def interfaceIpv4 : Op D (Option Text) := do
  match ← ask io.address with
  | none => return none
  | some ip =>
    if ip = 0 ∨ ip / 2 ^ 24 = 127 ∨ 14 ≤ ip / 2 ^ 28 ∨ ip / 2 ^ 16 = 0xa9fe then return none
    let text := List.intercalate ['.'] <| [24, 16, 8, 0].map fun shift =>
      Nat.toDigits 10 (ip / 2 ^ shift % 256)
    see (.address text)
    return some text

/-- `wifi_io.dhcp` -/
def dhcp (ms : ℤ) : Op D Bool := do
  let (ok, stop) ← ask (io.dhcp ms)
  hear stop
  if ok then see .leased
  return ok

/-- `wifi_io.stop_dhcp` -/
def stopDhcp : Op D Bool := do
  let (ok, stop) ← ask io.stopDhcp
  hear stop
  return ok

/-- `control_ready_at` -/
def controlReady (factory : Bool) : Op D Bool := do
  let timeout ← remainingMs io 500
  let (ok, stop) ← ask (io.controlReady factory timeout)
  hear stop
  return ok

/-- `wifi_io.ready` -/
def ready : Op D Bool := do
  let result ← ask io.ready
  hear result.stop
  modify fun s => { s with usingFactoryControl := result.factory }
  if let some message := result.error then
    modify fun s => { s with currentState := .error, lastError := message }
  return result.ok

/-! ### Snapshots -/

/-- `remember_verified_connection` -/
def rememberVerifiedConnection (ssid ipv4 : Text) : Op D Unit := do
  let t ← now io
  modify fun s => { s with
    observation := ⟨true, true, true, false, .connected, ssid, ssid, ipv4, t⟩ }

/-- The two status probes of `c1_wifi_read_snapshot`, within a budget that began at `start`. -/
def probe (start budget : ℤ) : Op D (Option Text) := do
  if budget ≤ 0 then return none
  match ← ask (io.observeStatus false ((budget + 1) / 2)) with
  | some reply =>
    see (.replied .status reply)
    return some reply
  | none =>
    if (← now io) < start + budget then
      match ← ask (io.observeStatus true (start + budget - (← now io))) with
      | some reply =>
        see (.replied .status reply)
        modify fun s => { s with usingFactoryControl := true }
        return some reply
      | none => return none
    return none

/-- The observation that `c1_wifi_read_snapshot` makes when it has none. -/
def observe (target : Text) (start : ℤ) : Op D Unit := do
  let s ← get
  let budget ← (if s.operationDeadline ≠ 0 then remainingMs io observeMs else pure observeMs)
  modify fun s => { s with
    observation := { Observation.empty with contextState := s.currentState, target := target } }
  let received ← probe io start budget
  let ssid := received.bind (completedStatus · (if target ≠ [] then some target else none) none)
  let ipv4 ← (if ssid.isSome then interfaceIpv4 io else pure none)
  let connected := ssid.isSome && ipv4.isSome
  let t ← now io
  modify fun s => { s with
    observation := { s.observation with
      valid := true
      connected := connected
      controlAvailable := received.isSome
      interfaceDisabled := received.any interfaceDisabled
      ssid := if connected then ssid.getD [] else []
      ipv4 := if connected then ipv4.getD [] else []
      checkedAt := t } }

/-- `explicitly_disabled || disabled_marker_present()` -/
def isOff : Op D Bool := do
  let s ← get
  if s.explicitlyDisabled then return true
  ask io.disabledMarker

/-- A return of `c1_wifi_read_snapshot`. -/
def returnSnapshot (state : WifiState) (off : Bool) (snapshot : Snapshot) : Op D Snapshot := do
  modify fun s => { s with reads := ⟨state, off, snapshot, s.log⟩ :: s.reads }
  return snapshot

/-- The observation that `c1_wifi_read_snapshot` uses: the one it has, or a new one. -/
def refresh (target : Text) : Op D Unit := do
  let t ← now io
  let s ← get
  if !s.observation.valid ∨ s.observation.contextState ≠ s.currentState ∨
      s.observation.target ≠ target ∨ t < s.observation.checkedAt ∨
      observeCacheMs ≤ t - s.observation.checkedAt then
    observe io target t

def Snapshot.observed (snapshot : Snapshot) (observation : Observation) : Snapshot :=
  if observation.connected then
    { snapshot with
      state := .connected
      connectedSsid := observation.ssid
      ipv4 := observation.ipv4 }
  else if observation.interfaceDisabled then { snapshot with state := .disabled }
  else if snapshot.state ≠ .disabled ∨ observation.controlAvailable then
    { snapshot with state := .ready }
  else snapshot

/-- `c1_wifi_read_snapshot` -/
def readSnapshot : Op D Snapshot := do
  let s ← get
  let snapshot : Snapshot :=
    ⟨s.currentState, s.cachedNetworks, [], [], s.lastError, s.currentPhase⟩
  let off ← isOff io
  if off ∨ s.currentState ∈ [.error, .connecting, .scanning] then
    modify fun s => { s with observation := { s.observation with valid := false } }
    returnSnapshot s.currentState off snapshot
  else
    refresh io (if s.currentState = .connected then s.cachedConnectedSsid else [])
    let t ← get
    returnSnapshot s.currentState off (snapshot.observed t.observation)

/-- `c1_wifi_adopt_snapshot` -/
def adoptSnapshot (snapshot : Snapshot) : Op D Unit := modify fun s => { s with
  observation := { s.observation with valid := false }
  explicitlyDisabled := snapshot.state = .disabled ∧ snapshot.phase = .done
  currentState := snapshot.state
  currentPhase := snapshot.phase
  cachedNetworks := snapshot.networks.take maxNetworks
  cachedConnectedSsid := snapshot.connectedSsid.take 32
  lastError := snapshot.error.take 47 }

/-- `strstr(last_error, "RESTORE INCOMPLETE") != NULL` -/
def incomplete (error : Text) : Bool := includes error "RESTORE INCOMPLETE".toList

/-- The phase, the error and the status an operation ends with. -/
def settle (result : Status) : Op D Status := do
  let s ← get
  if result = .ok then
    modify fun s => { s with currentPhase := .done }
    return .ok
  else if s.operationCancelled then
    setError (if incomplete s.lastError then "CANCELLED; RESTORE INCOMPLETE"
      else "WI-FI OPERATION CANCELLED")
    modify fun s => { s with currentPhase := .cancelled }
    return .interrupted
  else
    modify fun s => { s with currentPhase := .failed }
    onlyIf (s.currentState ≠ .error) (setError "WI-FI OPERATION FAILED")
    return result

/-- `end_operation`; `wanted` says that the caller passed a snapshot to fill. -/
def endOperation (result : Status) (wanted : Bool) : Op D (Status × Option Snapshot) := do
  let result ← settle result
  let snapshot ← (if wanted then some <$> readSnapshot io else pure none)
  modify fun s => { s with
    activeOptions := false
    scanProfiles := none
    operationDeadline := 0
    restoring := false }
  return (result, snapshot)

end

end C1auncher.Wifi.Service
