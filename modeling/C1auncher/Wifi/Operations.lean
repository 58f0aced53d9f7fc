import C1auncher.Wifi.Service

/-!
The operations of the Wi-Fi service: scan, connect, disable, pause and resume.
-/

namespace C1auncher.Wifi.Operations

open CString Routines Wifi.Control Wifi.Service

section
variable {D : Type} (io : WifiIo D) (fuel : ℕ)

/-- `wait_interface_enabled` -/
def waitInterfaceEnabled : Op D Bool := do
  let start ← now io
  let deadline := start + (← remainingMs io hardwareMs)
  let turn (_ : Unit) : Op D (Unit ⊕ Bool) := do
    if ← andAlso (continueOperation io) (do return (← now io) < deadline) then
      let reply ← command io .status outputCapacity
      if (reply.bind (statusValue · "wpa_state".toList 32)).any
          (· ≠ "INTERFACE_DISABLED".toList) then return .inr true
      let delay ← remainingMs io 100
      onlyIf (0 < delay) (sleep io delay)
      return .inl ()
    return .inr false
  if ← turns turn fuel () then return true
  setError "WLAN0 ENABLE FAILED"
  return false

/-! ### Saved networks -/

/-- One page of `capture_networks`; whether the list goes on is for the caller to see. -/
def capturePage (output : Text) (backup : Backup) (lastId : ℤ) : Option (Backup × ℤ) :=
  if output.getLast? ≠ some '\n' then none
  else
    match tokens '\n' output with
    | [] => none
    | heading :: rows =>
      if heading.take 32 ≠ listHeading then none else captureRows rows backup lastId

/-- `capture_networks` -/
def captureNetworks : Op D (Option Backup) := do
  match ← command io .status outputCapacity with
  | none => return none
  | some output =>
    let previous := completedStatus output none none
    let id := statusValue output "id".toList 16
    if id.isSome ∧ statusId output = none then return none
    let backup : Backup := {
      networks := []
      previousId := (statusId output).getD (-1)
      previousSsid := previous.getD []
      previousCompleted := previous.isSome
      previousDisconnected :=
        statusValue output "wpa_state".toList 32 = some "DISCONNECTED".toList }
    let page (loop : Option ℤ × Backup × ℤ) :
        Op D ((Option ℤ × Backup × ℤ) ⊕ Option Backup) := do
      let (request, backup, lastId) := loop
      if !(← continueOperation io) then return .inr none
      match ← command io (.listNetworks request) outputCapacity with
      | none => return .inr none
      | some output =>
        match capturePage output backup lastId with
        | none => return .inr none
        | some (next, lastId) =>
          if next.networks.length = backup.networks.length ∨
              output.length + listRowBound < outputCapacity then return .inr (some next)
          return .inl (some lastId, next, lastId)
    turns page fuel (none, backup, -1)

/-- The variables of `GET_NETWORK` that must be absent, or the one that must be there. -/
def keyNames (security : Security) : List String :=
  if security = .opened then ["wep_key0", "wep_key1", "wep_key2", "wep_key3"] else ["psk"]

/-- The loop of `saved_profile_matches` over the keys. -/
def keysMatch (id : ℤ) (security : Security) : List String → Op D (Option Bool)
  | [] => return some true
  | key :: keys => do
    match ← command io (.getNetwork id key.toList) 256 with
    | none => return none
    | some output =>
      let reply := firstLine output
      let present := reply ≠ [] ∧ !replyIs reply "FAIL".toList
      if security = .wpaPsk then return some present
      if present then return some false
      keysMatch id security keys

/-- `saved_profile_matches` -/
def savedProfileMatches (id : ℤ) (security : Security) : Op D (Option Bool) := do
  match ← command io (.getNetwork id "key_mgmt".toList) 256 with
  | none => return none
  | some output =>
    let reply := firstLine output
    let fits : Bool := match security with
      | .wpaPsk => "WPA-PSK".toList ∈ tokens ' ' reply
      | .opened => reply = "NONE".toList
      | _ => false
    if !fits then return some false
    keysMatch io id security (keyNames security)

/-- The loop of `find_saved_profile`, over the networks from the last on. -/
def findProfile (ssid : Text) (security : Security) : List SavedNetwork → Op D (Option (Option ℤ))
  | [] => return some none
  | network :: networks => do
    if network.ssid ≠ ssid then findProfile ssid security networks
    else
      match ← savedProfileMatches io network.id security with
      | none => return none
      | some true => return some (some network.id)
      | some false => findProfile ssid security networks

/-- `find_saved_profile`: no result where the lookup failed. -/
def findSavedProfile (backup : Backup) (ssid : Text) (security : Security) :
    Op D (Option (Option ℤ)) :=
  findProfile io ssid security backup.networks.reverse

/-- `prepare_scan_profiles` -/
def prepareScanProfiles : Op D Bool := do
  let profiles ← captureNetworks io fuel
  modify fun s => { s with
    scanProfiles := profiles.map fun backup => backup.networks.map fun n => (n, none, none) }
  return profiles.isSome

/-- The loop of `scan_profile_saved` over the profiles from the last on, with the matches that are
known afterwards. -/
def profileSaved (ssid : Text) (security : Security) :
    List (SavedNetwork × Option Bool × Option Bool) →
      Op D (Option Bool × List (SavedNetwork × Option Bool × Option Bool))
  | [] => return (some false, [])
  | (network, opened, psk) :: profiles => do
    if network.ssid ≠ ssid then
      let (saved, rest) ← profileSaved ssid security profiles
      return (saved, (network, opened, psk) :: rest)
    else
      let known := if security = .opened then opened else psk
      let found ← (match known with
        | some b => pure (some b)
        | none => savedProfileMatches io network.id security)
      match found with
      | none => return (none, (network, opened, psk) :: profiles)
      | some fits =>
        let entry := if security = .opened then (network, some fits, psk)
          else (network, opened, some fits)
        if fits then return (some true, entry :: profiles)
        let (saved, rest) ← profileSaved ssid security profiles
        return (saved, entry :: rest)

/-- `scan_profile_saved` -/
def scanProfileSaved (profiles : List (SavedNetwork × Option Bool × Option Bool)) (ssid : Text)
    (security : Security) : Op D (Option Bool) := do
  let (saved, rest) ← profileSaved io ssid security profiles.reverse
  modify fun s => { s with scanProfiles := some rest.reverse }
  return saved

/-! ### Scan -/

/-- One row of `parse_scan_results`. -/
def takeRow (line : Text) : Op D Bool := do
  match parseScanRow line with
  | none => return true
  | some network =>
    let s ← get
    let saved ← (match s.scanProfiles with
      | some profiles =>
        if network.supported then scanProfileSaved io profiles network.ssid network.security
        else pure (some false)
      | none => pure (some false))
    match saved with
    | none => return false
    | some saved =>
      modify fun s => { s with
        cachedNetworks := addNetwork s.cachedNetworks { network with saved := saved } }
      return true

/-- `read_scan_networks`, with `parse_scan_results` on its one row. -/
def readScanNetworks : Op D Bool := do
  modify fun s => { s with cachedNetworks := [] }
  let entry (previous : Option ℤ) : Op D (Option ℤ ⊕ Bool) := do
    if !(← continueOperation io) then return .inr false
    match ← command io (.bss previous) outputCapacity with
    | none => return .inr false
    | some output =>
      if replyIs output "FAIL".toList ∨ output = [] then return .inr true
      match parseBss output with
      | none => return .inr false
      | some (id, row) =>
        if id ≤ previous.getD (-1) then return .inr false
        if !(← takeRow io row) then return .inr false
        return .inl (some id)
  turns entry fuel none

/-- The loop of `c1_wifi_scan_ex` that has a scan of its own accepted: whether events are open, and
the status it fails with. -/
def startScan : Op D (Bool × Option Status) := do
  let turn (_ : Unit) : Op D (Unit ⊕ (Bool × Option Status)) := do
    if !(← continueOperation io) then return .inr (false, none)
    if !(← commandOk io .bssFlush) then
      setError "FRESH SCAN UNSUPPORTED"
      return .inr (false, some .unsupported)
    let (events, stop) ← ask io.eventsOpen
    hear stop
    let reply ← (if events then command io .scan 128 else pure none)
    match reply with
    | none =>
      setError "SCAN START FAILED"
      return .inr (events, some .ioError)
    | some output =>
      if replyIs output "OK".toList then return .inr (true, none)
      if !replyIs output "FAIL-BUSY".toList then
        setError "SCAN START FAILED"
        return .inr (true, some .ioError)
      let wait ← remainingMs io 250
      onlyIf (0 < wait) (do let _ ← ask (io.eventsWait wait))
      ask fun d => ((), io.eventsClose d)
      let delay ← remainingMs io 100
      onlyIf (0 < delay) (sleep io delay)
      return .inl ()
  turns turn fuel ()

/-- The loop of `c1_wifi_scan_ex` that waits for the end of the scan. -/
def awaitScan : Op D Status := do
  let turn (_ : Unit) : Op D (Unit ⊕ Status) := do
    if !(← continueOperation io) then
      setError "SCAN TIMED OUT"
      return .inr .ioError
    match ← ask (io.eventsWait (← remainingMs io 250)) with
    | .none => return .inl ()
    | .failed =>
      setError "SCAN FAILED"
      return .inr .ioError
    | .results =>
      if !(← prepareScanProfiles io fuel) then
        setError "SAVED NETWORK LOOKUP FAILED; RETRY SCAN"
        return .inr .ioError
      if !(← readScanNetworks io fuel) then
        setError "SCAN RESULTS INVALID OR TOO LARGE"
        return .inr .ioError
      modify fun s => { s with currentState := .ready }
      return .inr .ok
  turns turn fuel ()

/-- `c1_wifi_scan_ex` -/
def scan (options wanted : Bool) : Op D (Status × Option Snapshot) := do
  beginOperation io options scanMs
  modify fun s => { s with currentState := .scanning }
  if !(← andAlso (continueOperation io) (andAlso (ready io) (waitInterfaceEnabled io fuel))) then
    endOperation io .unavailable wanted
  else
    let _ ← ask (io.setDisabledMarker false)
    modify fun s => { s with explicitlyDisabled := false, currentPhase := .scanning }
    let (events, failure) ← startScan io fuel
    let result ← (match failure with
      | some status => pure status
      | none =>
        if events then awaitScan io fuel
        else do
          setError "SCAN TIMED OUT"
          pure .ioError)
    onlyIf events (ask fun d => ((), io.eventsClose d))
    onlyIf (result ≠ .ok) (modify fun s => { s with cachedNetworks := [] })
    endOperation io result wanted

/-! ### Connect -/

/-- `valid_wpa_passphrase` -/
def validWpaPassphrase (password : Text) : Bool :=
  8 ≤ password.length ∧ password.length ≤ 63 ∧ password.all fun c => ' ' ≤ c ∧ c ≤ '~'

/-- So many calls of `continue_operation`, until one returns false. -/
def checks : ℕ → Op D Bool
  | 0 => return true
  | n + 1 => andAlso (continueOperation io) (checks n)

/-- `derive_wpa_psk`: two blocks of 4096 rounds, with a check in every 64, and a last one. -/
def deriveWpaPsk (ssid password : Text) : Op D (Option Text) := do
  if ssid = [] ∨ 32 < ssid.length ∨ !validWpaPassphrase password then return none
  if ← checks io 129 then return some (io.psk ssid password)
  return none

/-- The loop of `restore_enabled`, which goes on when a command fails. -/
def restoreNetworks (keepEnabled : Option ℤ) : List SavedNetwork → Op D Bool
  | [] => return true
  | network :: networks => do
    if keepEnabled = some network.id then restoreNetworks keepEnabled networks
    else
      let ok ← commandOk io
        (if network.disabled then .disableNetwork network.id else .enableNetwork network.id)
      let rest ← restoreNetworks keepEnabled networks
      return ok && rest

/-- `restore_enabled` -/
def restoreEnabled (backup : Backup) (keepEnabled : Option ℤ) : Op D Bool :=
  restoreNetworks io keepEnabled backup.networks

/-- A `STATUS` reply that `completed_status` accepts. -/
def authenticated (target : Option Text) (networkId : Option ℤ) : Op D (Option Text) := do
  return (← command io .status outputCapacity).bind (completedStatus · target networkId)

/-- `wait_authenticated` -/
def waitAuthenticated (target : Option Text) (networkId : Option ℤ) (timeoutMs : ℤ) :
    Op D Bool := do
  let start ← now io
  let deadline := start + (← remainingMs io timeoutMs)
  let turn (_ : Unit) : Op D (Unit ⊕ Bool) := do
    if !(← andAlso (continueOperation io) (do return (← now io) < deadline)) then
      return .inr false
    if (← authenticated io target networkId).isSome then return .inr true
    sleep io 100
    return .inl ()
  turns turn fuel ()

/-- The variables of `connect_profile` that its end looks at. -/
structure Attempt where
  newId : Option ℤ
  selected : Bool
  dhcpStarted : Bool
  saveAttempted : Bool
  deriving DecidableEq

/-- The end of `rollback_connection`, where the previous network was connected. A negative network
id is not asked for. -/
def rejoin (backup : Backup) (dhcpStarted : Bool) : Op D Bool := do
  if !(← waitAuthenticated io fuel (some backup.previousSsid)
      (if 0 ≤ backup.previousId then some backup.previousId else none) 4000) then return false
  if dhcpStarted then dhcp io (← remainingMs io 4000) else return true

/-- `rollback_connection` -/
def rollbackConnection (backup : Backup) (attempt : Attempt) : Op D Bool := do
  modify fun s => { s with restoring := true, currentPhase := .restoring }
  let t ← now io
  modify fun s => { s with operationDeadline := t + rollbackMs }
  let stopped ← (if attempt.dhcpStarted then stopDhcp io else pure true)
  let cleared ← (if attempt.dhcpStarted then ask io.clearAddress else pure true)
  let removed ← (match attempt.newId with
    | some id => commandOk io (.removeNetwork id)
    | none => pure true)
  let selected ←
    (if attempt.selected then
      commandOk io (if 0 ≤ backup.previousId then .selectNetwork backup.previousId else .disconnect)
    else pure true)
  let enabled ← restoreEnabled io backup none
  let disconnected ←
    (if backup.previousDisconnected then commandOk io .disconnect else pure true)
  let reconnected ←
    (if attempt.selected ∧ backup.previousCompleted then rejoin io fuel backup attempt.dhcpStarted
    else pure true)
  return stopped && cleared && removed && selected && enabled && disconnected && reconnected

/-- What a caller asks `connect_profile` for. -/
structure Request where
  ssid : Option Text
  password : Option Text
  security : Security
  useSaved : Bool
  options : Bool
  deriving DecidableEq

/-- The tests of `connect_profile` on its arguments: the SSID and its key, or the status. -/
def checkRequest (r : Request) : Op D (Except Status (Text × Text)) := do
  match r.ssid, r.ssid.bind encodeControlSsid with
  | some ssid, some _ =>
    if !r.useSaved ∧ r.password = none then
      setError "INVALID NETWORK"
      return .error .invalidArgument
    if !r.security.supported then
      setError "NETWORK SECURITY UNSUPPORTED"
      return .error .unsupported
    let password := r.password.getD []
    if !r.useSaved ∧ ((r.security = .opened ∧ password ≠ []) ∨
        (r.security = .wpaPsk ∧ !validWpaPassphrase password)) then
      setError "INVALID PASSWORD (PSK: 8-63 ASCII)"
      return .error .invalidArgument
    if !r.useSaved ∧ r.security = .wpaPsk then
      match ← deriveWpaPsk io ssid password with
      | some psk => return .ok (ssid, psk)
      | none =>
        setError "CREDENTIAL PREPARATION FAILED"
        return .error .ioError
    return .ok (ssid, [])
  | _, _ =>
    setError "INVALID NETWORK"
    return .error .invalidArgument

/-- The tests of `connect_profile` on the interface. -/
def checkInterface : Op D Bool := do
  if !(← andAlso (continueOperation io) (ready io)) then return false
  if !(← ask io.dhcpAvailable) then
    setError "WLAN0 DHCP OWNED BY ANOTHER SERVICE"
    return false
  waitInterfaceEnabled io fuel

/-- The new profile: its id where there is one, and whether it is complete. -/
def addProfile (ssid psk : Text) (security : Security) : Op D (Option ℤ × Bool) := do
  match ← command io .addNetwork outputCapacity with
  | none =>
    setError "ADD NETWORK FAILED"
    return (none, false)
  | some output =>
    match parseInteger (firstLine output) 0 intMax with
    | none =>
      setError "INVALID NETWORK ID"
      return (none, false)
    | some id =>
      if !(← commandOk io (.setNetwork id "ssid".toList ((encodeControlSsid ssid).getD []))) then
        setError "SSID REJECTED"
        return (some id, false)
      if !(← commandOk io (.setNetwork id "key_mgmt".toList
          (if security = .opened then "NONE" else "WPA-PSK").toList)) then
        setError "SECURITY REJECTED"
        return (some id, false)
      if security = .wpaPsk then
        if !(← commandOk io (.setNetwork id "psk".toList psk)) then
          setError "CREDENTIAL REJECTED"
          return (some id, false)
      return (some id, true)

/-- From `authenticate:` to the lease of the target: its address. -/
def acquire (ssid : Text) (targetId : ℤ) : Op D (Bool × Option Text) := do
  modify fun s => { s with currentPhase := .authenticating }
  if !(← commandOk io (.selectNetwork targetId)) then
    setError "CONNECT START FAILED"
    return (false, none)
  if !(← waitAuthenticated io fuel (some ssid) (some targetId) 20000) then
    setError "TARGET AUTHENTICATION TIMED OUT"
    return (false, none)
  modify fun s => { s with currentPhase := .acquiringAddress }
  let leased ← andAlso (continueOperation io) (do dhcp io (← remainingMs io 10000))
  let named ← andAlso (pure leased)
    (do return (← authenticated io (some ssid) (some targetId)).isSome)
  let ip ← (if named then interfaceIpv4 io else pure none)
  onlyIf ip.isNone (setError "TARGET ADDRESS ACQUISITION FAILED")
  return (true, ip)

/-- The rest of `connect_profile` before it has succeeded: whether it saved, and its success. -/
def commit (ssid : Text) (targetId : ℤ) (useSaved : Bool) (backup : Backup) :
    Op D (Bool × Bool) := do
  if !(← andAlso (restoreEnabled io backup (some targetId))
      (do return (← authenticated io (some ssid) (some targetId)).isSome)) then
    setError "NETWORK CHANGED BEFORE SAVE"
    return (false, false)
  if useSaved then return (false, true)
  modify fun s => { s with currentPhase := .saving }
  if !(← continueOperation io) then return (false, false)
  modify fun s => { s with activeOptions := false }
  see .saving
  if !(← andAlso (commandOk io .saveConfig) (ask io.secureConfig)) then
    setError "SAVE CONFIG FAILED"
    return (true, false)
  return (true, true)

def succeed (ssid ip : Text) (security : Security) : Op D Unit := do
  modify fun s => { s with
    cachedNetworks := s.cachedNetworks.map fun n =>
      if n.ssid = ssid ∧ n.security = security then { n with saved := true } else n
    currentState := .connected
    cachedConnectedSsid := ssid }
  rememberVerifiedConnection io ssid ip
  modify fun s => { s with lastError := [] }

/-- `connect_profile` from `authenticate:` to `finished:`. -/
def authenticate (ssid : Text) (r : Request) (backup : Backup) (newId : Option ℤ) (targetId : ℤ) :
    Op D (Bool × Attempt) := do
  match ← acquire io fuel ssid targetId with
  | (dhcpStarted, none) => return (false, ⟨newId, true, dhcpStarted, false⟩)
  | (_, some ip) =>
    let (saveAttempted, committed) ← commit io ssid targetId r.useSaved backup
    onlyIf committed (succeed io ssid ip r.security)
    return (committed, ⟨newId, true, true, saveAttempted⟩)

/-- `connect_profile` at `finished:`, where it has failed with something to take back. -/
def takeBack (options : Bool) (backup : Backup) (config : Option Text) (attempt : Attempt) :
    Op D Unit := do
  modify fun s => { s with activeOptions := options }
  let restored ← rollbackConnection io fuel backup attempt
  let restoredConfig ←
    (if attempt.saveAttempted then ask (io.restoreConfig (config.getD [])) else pure true)
  onlyIf (!(restored && restoredConfig)) (setError "CONNECT FAILED; RESTORE INCOMPLETE")

/-- The target of a connection with a saved profile: its id, or the status. -/
def savedTarget (ssid : Text) (r : Request) (backup : Backup) : Op D (Option ℤ) := do
  match ← findSavedProfile io backup ssid r.security with
  | none =>
    setError "SAVED NETWORK LOOKUP FAILED"
    return none
  | some none =>
    setError "SAVED NETWORK MISSING; REFRESH LIST"
    return none
  | some (some id) => return some id

/-- `connect_profile` at `finished:`, with whether it has succeeded. -/
def conclude (r : Request) (backup : Backup) (config : Option Text) (attempted : Bool × Attempt) :
    Op D Status := do
  if attempted.1 then return .ok
  onlyIf (attempted.2.newId.isSome ∨ attempted.2.selected)
    (takeBack io fuel r.options backup config attempted.2)
  return .ioError

/-- `connect_profile` after its tests, up to `end_operation`. -/
def establish (ssid psk : Text) (r : Request) (backup : Backup) (config : Option Text) :
    Op D Status := do
  if r.useSaved then
    match ← savedTarget io ssid r backup with
    | none => return .unavailable
    | some id =>
      conclude io fuel r backup config (← authenticate io fuel ssid r backup none id)
  else
    match ← addProfile io ssid psk r.security with
    | (some id, true) =>
      conclude io fuel r backup config (← authenticate io fuel ssid r backup (some id) id)
    | (newId, _) => conclude io fuel r backup config (false, ⟨newId, false, false, false⟩)

/-- `connect_profile` -/
def connectProfile (r : Request) (wanted : Bool) : Op D (Status × Option Snapshot) := do
  beginOperation io r.options connectMs
  modify fun s => { s with currentState := .connecting }
  match ← checkRequest io r with
  | .error status => endOperation io status wanted
  | .ok (ssid, psk) =>
    if !(← checkInterface io fuel) then endOperation io .unavailable wanted
    else
      let _ ← ask (io.setDisabledMarker false)
      modify fun s => { s with explicitlyDisabled := false }
      let config ← (if r.useSaved then pure none else ask io.backupConfig)
      let backup ←
        (if r.useSaved ∨ config.isSome then captureNetworks io fuel else pure none)
      match backup with
      | none =>
        setError "CANNOT PRESERVE NETWORK CONFIG"
        endOperation io .ioError wanted
      | some backup => endOperation io (← establish io fuel ssid psk r backup config) wanted

/-- The security that `c1_wifi_connect` infers, if it is not ambiguous. -/
def inferSecurity (ssid : Text) : List Network → Security → Bool → Option Security
  | [], security, _ => some security
  | network :: networks, security, matched =>
    if network.ssid ≠ ssid then inferSecurity ssid networks security matched
    else if matched ∧ security ≠ network.security then none
    else inferSecurity ssid networks network.security true

/-- `c1_wifi_connect` -/
def connect (ssid password : Option Text) (wanted : Bool) : Op D (Status × Option Snapshot) := do
  let s ← get
  let guess : Security := if password.getD [] ≠ [] then .wpaPsk else .opened
  let security := match ssid with
    | some ssid => inferSecurity ssid s.cachedNetworks guess false
    | none => some guess
  match security with
  | none =>
    beginOperation io false connectMs
    setError "AMBIGUOUS SECURITY; SELECT TYPE"
    endOperation io .unsupported wanted
  | some security => connectProfile io fuel ⟨ssid, password, security, false, false⟩ wanted

/-! ### Disable, pause and resume -/

/-- `c1_wifi_disable` -/
def disable (wanted : Bool) : Op D (Status × Option Snapshot) := do
  beginOperation io false 5000
  let own ← controlReady io false
  let factory ← (if own then pure false else controlReady io true)
  modify fun s => { s with usingFactoryControl := factory }
  if !(← ask io.dhcpAvailable) then
    setError "WLAN0 DHCP OWNED BY ANOTHER SERVICE"
    endOperation io .unavailable wanted
  else
    let alive : Op D Bool := do return (← command io .ping 64).any (replyIs · "PONG".toList)
    if ← andAlso alive (andAlso (commandOk io .disconnect) (andAlso (stopDhcp io)
        (andAlso (ask io.clearAddress) (ask (io.enable false))))) then
      modify fun s => { s with currentState := .disabled, explicitlyDisabled := true }
      let _ ← ask (io.setDisabledMarker true)
      modify fun s => { s with cachedNetworks := [], cachedConnectedSsid := [] }
      endOperation io .ok wanted
    else
      setError "WI-FI DISCONNECT FAILED OR UNMANAGED"
      endOperation io .unavailable wanted

/-- What `c1_wifi_pause` tells its caller to hand to `c1_wifi_resume`. -/
structure Paused where
  wasEnabled : Bool
  wasConnected : Bool
  wasManaged : Bool
  deriving DecidableEq

/-- `c1_wifi_pause` -/
def pause : Op D (Status × Paused) := do
  let own ← controlReady io false
  modify fun s => { s with usingFactoryControl := false }
  let factory ← (if own then pure false else controlReady io true)
  onlyIf factory (modify fun s => { s with usingFactoryControl := true })
  let managed := own || factory
  let marker ← ask io.disabledMarker
  onlyIf marker (modify fun s => { s with explicitlyDisabled := true })
  let s ← get
  let reachable ←
    (if s.explicitlyDisabled then pure false
    else if s.currentState ≠ .disabled ∨ managed then pure true
    else controlReady io true)
  if !reachable then return (.ok, ⟨false, false, managed⟩)
  if !managed then return (.unavailable, ⟨true, false, false⟩)
  let snapshot ← readSnapshot io
  let (result, _) ← disable io false
  onlyIf (result = .ok) (modify fun s => { s with cachedConnectedSsid := snapshot.connectedSsid })
  return (result, ⟨true, snapshot.state = .connected, true⟩)

/-- The reconnection of `c1_wifi_resume_ex`: the SSID and the address it ends with. -/
def reconnect : Op D (Option (Text × Text)) := do
  modify fun s => { s with currentPhase := .authenticating }
  let s ← get
  let target := if s.cachedConnectedSsid ≠ [] then some s.cachedConnectedSsid else none
  if !(← andAlso (commandOk io .reconnect) (waitAuthenticated io fuel target none 15000)) then
    setError "WI-FI RESUME AUTHENTICATION FAILED"
    return none
  modify fun s => { s with currentPhase := .acquiringAddress }
  let leased ← andAlso (ask io.dhcpAvailable) (do dhcp io (← remainingMs io 10000))
  let actual ← (if leased then authenticated io target none else pure none)
  let ip ← (if actual.isSome then interfaceIpv4 io else pure none)
  match actual, ip with
  | some ssid, some ip => return some (ssid, ip)
  | _, _ =>
    setError "WI-FI RESUME ADDRESS FAILED"
    return none

/-- `c1_wifi_resume_ex` -/
def resume (paused : Paused) (options : Bool) : Op D Status := do
  if !paused.wasEnabled then return .ok
  beginOperation io options 30000
  modify fun s => { s with currentState := .connecting }
  if !paused.wasManaged then
    setError "UNMANAGED WI-FI RESUME UNSUPPORTED"
    return (← endOperation io .unavailable false).1
  if !(← andAlso (ready io) (waitInterfaceEnabled io fuel)) then
    return (← endOperation io .unavailable false).1
  let _ ← ask (io.setDisabledMarker false)
  modify fun s => { s with explicitlyDisabled := false }
  if !paused.wasConnected then
    modify fun s => { s with currentState := .ready }
    return (← endOperation io .ok false).1
  match ← reconnect io fuel with
  | none => return (← endOperation io .unavailable false).1
  | some (ssid, ip) =>
    modify fun s => { s with cachedConnectedSsid := ssid, currentState := .connected }
    rememberVerifiedConnection io ssid ip
    return (← endOperation io .ok false).1

/-! ### Runs -/

inductive Call
  | scan (options wanted : Bool)
  | connectProfile (request : Request) (wanted : Bool)
  | connect (ssid password : Option Text) (wanted : Bool)
  | disable (wanted : Bool)
  | pause
  | resume (paused : Paused) (options : Bool)
  | adoptSnapshot (snapshot : Snapshot)
  | readSnapshot
  deriving DecidableEq

def perform (call : Call) : Op D Unit := do
  see .called
  match call with
  | .scan options wanted => let _ ← scan io fuel options wanted
  | .connectProfile request wanted => let _ ← connectProfile io fuel request wanted
  | .connect ssid password wanted => let _ ← connect io fuel ssid password wanted
  | .disable wanted => let _ ← disable io wanted
  | .pause => let _ ← pause io
  | .resume paused options => let _ ← resume io fuel paused options
  | .adoptSnapshot snapshot => adoptSnapshot snapshot
  | .readSnapshot => let _ ← readSnapshot io

def run : List Call → Op D Unit
  | [] => return ()
  | call :: calls => do
    perform io fuel call
    run calls

end

end C1auncher.Wifi.Operations
