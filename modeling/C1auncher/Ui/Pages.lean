import C1auncher.Ui.Model

/-!
What an event does on each page.
-/

namespace C1auncher.Ui.Pages

open Utf8Bytes Ui.LockText Ui.Preferences Ui.Model

/-- `c1_ui_tr` -/
def tr (language : UInt32) (zh en : String) : String := if language = languageEn then en else zh

def serviceBusy (status : Option Status) : Bool := status.any (·.serviceBusy)

/-- `network_count` of `c1_ui_step` -/
def networkCount (status : Option Status) : ℕ :=
  match status with
  | none => 0
  | some status => if status.networkCount < maxNetworks then status.networkCount else maxNetworks

/-! ### The desktop -/

/-- `activate_desktop` -/
def activateDesktop (state : State) (status : Option Status) : Transition :=
  let row : UInt32 := if state.selection < 5 then state.selection else 0
  let next := { state with desktopSelection := row, selection := 0, wifiNotice := "" }
  if row = 0 then
    ⟨{ next with page := .terminal, terminalAction := .terminalApp }, .terminalApp, []⟩
  else if row = 1 then quiet { next with page := .terminal, terminalAction := .none }
  else if row = 2 then
    if serviceBusy status then
      quiet
        { next with
          page := .wifi
          wifiNotice := if status.any (·.wifiBusy) then "WI-FI TASK ALREADY RUNNING"
            else "UPDATE CHECK RUNNING; TRY SCAN LATER" }
    else ⟨{ next with page := .wifi }, .wifiScan, []⟩
  else if row = 3 then quiet { next with page := .battery, batterySelectedAt := 0 }
  else quiet { next with page := .settings }

def stepDesktop (state : State) (event : Event) (status : Option Status) : Transition :=
  if event = .enter then activateDesktop state status
  else
    let selection : UInt32 :=
      if event = .down ∨ event = .right then (state.selection + 1) % 5
      else if event = .up ∨ event = .left then (state.selection + 4) % 5
      else state.selection
    quiet
      { state with
        selection := selection
        wifiNotice := if event = .up ∨ event = .down ∨ event = .left ∨ event = .right then ""
          else state.wifiNotice
        desktopSelection := selection }

/-! ### The battery -/

/-- `C1_BATTERY_HISTORY_POINTS` -/
def historyPoints : ℕ := 1440

def historyCount (status : Option Status) : ℕ :=
  match status with
  | none => 0
  | some status =>
    if status.historyCount > historyPoints then historyPoints else status.historyCount

def timestamp (status : Option Status) (i : ℕ) : ℤ :=
  match status with
  | none => 0
  | some status => status.timestamp i

/-- `c1_ui_battery_selected` -/
def batterySelected (state : State) (status : Option Status) : ℕ :=
  let count := historyCount status
  if count = 0 then 0
  else if state.batterySelectedAt = 0 then count - 1
  else
    ((List.range count).find? fun i =>
      state.batterySelectedAt ≤ timestamp status i).getD (count - 1)

def BatteryView.previous : BatteryView → BatteryView
  | .day => .day
  | .hour => .day
  | .minute => .hour

def BatteryView.next : BatteryView → BatteryView
  | .day => .hour
  | .hour => .minute
  | .minute => .minute

def stepBattery (state : State) (event : Event) (status : Option Status) : Transition :=
  let count := historyCount status
  let view :=
    if event = .viewPrevious then BatteryView.previous state.batteryView
    else if event = .viewNext then BatteryView.next state.batteryView
    else state.batteryView
  let state := { state with wifiNotice := "", batteryView := view }
  if count = 0 then quiet { state with selection := 0, batterySelectedAt := 0 }
  else
    let selected := batterySelected state status
    if (event = .left ∨ event = .up) ∧ selected ≠ 0 then
      quiet
        { state with
          batterySelectedAt := timestamp status (selected - 1)
          selection := UInt32.ofNat (count - 1 - (selected - 1)) }
    else if event = .right ∨ event = .down then
      let selected := if selected + 1 < count then selected + 1 else selected
      quiet
        { state with
          batterySelectedAt := if selected + 1 = count then 0 else timestamp status selected
          selection := UInt32.ofNat (count - 1 - selected) }
    else quiet { state with selection := UInt32.ofNat (count - 1 - selected) }

/-! ### The settings -/

def settingLockText : UInt32 := 5
def settingUpdate : UInt32 := 6
def settingAbout : UInt32 := 7
def settingCount : UInt32 := 8

/-- What `c1_preferences_cycle` takes an index for. -/
def settingOf (index : UInt32) : Setting :=
  if index = 0 then .language
  else if index = 1 then .powerMode
  else if index = 2 then .lockStyle
  else if index = 3 then .timeZone
  else if index = 4 then .networkTime
  else .other

def enterUpdate (next : State) (language : UInt32) (status : Option Status) : Transition :=
  if serviceBusy status then
    quiet { next with wifiNotice := tr language "任务进行中，请稍候" "Task in progress" }
  else if status.any (·.updatePrepared) then
    ⟨{ next with page := .terminal, selection := 0, terminalAction := .terminalUpdate },
      .terminalUpdate, []⟩
  else if status.all fun status => !status.wifiConnected || status.wifiIpv4 == [] then
    quiet
      { next with
        wifiNotice := tr language "无网络，请先连接 Wi-Fi" "No network. Connect Wi-Fi first." }
  else ⟨{ next with wifiNotice := "" }, .updateRefresh, []⟩

def openEditor (next : State) (text : TextArray) : State :=
  let draft := if validText text.bytes then padded text.text else TextArray.zero
  { next with
    lockTextDraft := draft
    lockTextCursor := (cString draft.bytes).length
    wifiNotice := ""
    page := .lockText }

def moveSettings (selection : UInt32) (event : Event) : UInt32 :=
  if event = .up ∧ selection ≠ 0 then selection - 1
  else if event = .down ∧ selection + 1 < settingCount then selection + 1
  else if event = .selectNext then (selection + 1) % settingCount
  else selection

def stepSettings (state : State) (event : Event) (status : Option Status) : Transition :=
  let next := { state with selection := moveSettings state.selection event }
  if state.selection = settingAbout then
    if event = .enter then quiet { next with page := .about, selection := 0 } else quiet next
  else if state.selection = settingUpdate then
    if event ≠ .enter then quiet next else enterUpdate next state.preferences.language status
  else if event = .left ∨ event = .right ∨ event = .enter then
    if state.selection = settingLockText then quiet (openEditor next state.preferences.lockText)
    else
      quiet
        { next with
          preferences := cycle next.preferences (settingOf state.selection)
            (if event = .left then -1 else 1) }
  else quiet next

/-! ### The text of the lock page -/

def moveEditor (state : State) (event : Event) : State :=
  if event = .left then (lockTextMove state (-1)).2
  else if event = .right then (lockTextMove state 1).2
  else state

def stepLockText (state : State) (event : Event) : Transition :=
  let moved := moveEditor state event
  if event = .enter then
    if ¬ validText state.lockTextDraft.bytes then
      quiet
        { moved with
          wifiNotice := tr state.preferences.language "请输入有效的非空文字"
            "ENTER VALID NONEMPTY TEXT" }
    else
      quiet
        { clearDraft moved with
          preferences := { moved.preferences with lockText := state.lockTextDraft }
          wifiNotice := ""
          page := .settings
          selection := settingLockText }
  else quiet moved

/-! ### The networks -/

/-- The loop of `c1_ui_network_is_current`, with the rows it reads. -/
def sameSecurity (status : Status) (index : ℕ) : List ℕ → Bool × List ℕ
  | [] => (true, [])
  | i :: more =>
    if (status.networks i).ssid = (status.networks index).ssid ∧
        (status.networks i).security ≠ (status.networks index).security then (false, [i, index])
    else
      let (same, reads) := sameSecurity status index more
      (same, i :: index :: reads)

/-- `c1_ui_network_is_current` -/
def networkIsCurrent (status : Status) (index : ℕ) : Bool × List ℕ :=
  if !status.wifiConnected ∨ status.networkCount ≤ index ∨ maxNetworks ≤ index then (false, [])
  else if status.wifiConnectedSsid ≠ (status.networks index).ssid then (false, [index])
  else
    let (same, reads) := sameSecurity status index (List.range (networkCount (some status)))
    (same, index :: reads)

/-- `snprintf` of a name into an array of 33 bytes. -/
def copySsid (ssid : Bytes) : Bytes := ssid.take 32

def connectable (security : Security) : Bool := security == .open_ || security == .wpaPsk

/-- The loop of `c1_ui_autoconnect`: the first saved row that can be connected to, and the rows that
were read. -/
def findSaved (status : Status) : List ℕ → Option ℕ × List ℕ
  | [] => (none, [])
  | i :: more =>
    if (status.networks i).saved && connectable (status.networks i).security then (some i, [i])
    else
      let (found, reads) := findSaved status more
      (found, i :: reads)

/-- `c1_ui_autoconnect` -/
def autoconnect (state : State) (status : Option Status) : Transition :=
  match status with
  | none => quiet state
  | some status =>
    if state.page ≠ .wifi ∨ status.wifiConnected ∨ status.serviceBusy ∨ status.wifiStopPending then
      quiet state
    else
      match findSaved status (List.range (networkCount (some status))) with
      | (none, reads) => ⟨state, .none, reads⟩
      | (some i, reads) =>
        ⟨{ clearSecret state with
            selectedSaved := true
            selectedSecurity := (status.networks i).security
            selectedSsid := copySsid (status.networks i).ssid
            selection := 0
            wifiNotice := "" }, .wifiConnect, reads⟩

def moveWifi (selection : UInt32) (event : Event) (networks itemCount : ℕ) : UInt32 :=
  let selection : UInt32 :=
    if itemCount ≤ selection.toNat then if networks > 0 then UInt32.ofNat (itemCount - 1) else 0
    else selection
  let selection :=
    if event = .selectNext then (selection + 1) % UInt32.ofNat itemCount else selection
  if event = .left ∧ selection = 1 then 0
  else if event = .right ∧ selection = 0 then 1
  else if event = .up ∧ 2 ≤ selection then if selection = 2 then 0 else selection - 1
  else if event = .down then
    if selection < 2 ∧ networks > 0 then 2
    else if 2 ≤ selection ∧ (selection + 1).toNat < itemCount then selection + 1
    else selection
  else selection

/-- A row of the list is confirmed. -/
def enterNetwork (state : State) (status : Status) (index : ℕ) : Transition :=
  let network := status.networks index
  let state := { state with selectedSecurity := network.security, selectedSaved := network.saved }
  if !connectable network.security then
    ⟨{ state with wifiNotice := "THIS SECURITY TYPE IS NOT SUPPORTED" }, .none, [index]⟩
  else
    let (current, reads) := networkIsCurrent status index
    if current then
      ⟨{ state with wifiNotice := "ALREADY CONNECTED TO THIS NETWORK" }, .none, index :: reads⟩
    else
      let state :=
        { clearSecret { state with selectedSsid := copySsid network.ssid } with
          symbolSelection := 0
          keyboardLayer := .lower }
      if network.secured && !state.selectedSaved then
        ⟨{ state with page := .wifiPassword, secretVisible := true }, .none, index :: reads⟩
      else ⟨state, .wifiConnect, index :: reads⟩

def stepWifi (state : State) (event : Event) (status : Option Status) : Transition :=
  let networks := networkCount status
  let itemCount := networks + 2
  let state := { state with selection := moveWifi state.selection event networks itemCount }
  if event ≠ .enter then quiet state
  else
    let state := { state with wifiNotice := "" }
    if serviceBusy status ∧ state.selection ≠ 1 then
      quiet { state with wifiNotice := "BUSY - WAIT OR SELECT TURN OFF" }
    else if state.selection = 0 then ⟨state, .wifiScan, []⟩
    else if state.selection = 1 then ⟨state, .wifiDisable, []⟩
    else
      match status with
      | none => quiet state
      | some status =>
        if state.selection.toNat < itemCount then
          enterNetwork state status (state.selection.toNat - 2)
        else quiet state

/-! ### The password -/

/-- `C1_UI_EXTENDED_SYMBOL_COUNT` -/
def extendedSymbolCount : UInt32 := 12

/-- `C1_UI_EXTENDED_SYMBOL_COLUMNS` -/
def extendedSymbolColumns : UInt32 := 6

/-- `c1_ui_extended_symbol` -/
def extendedSymbol (selection : UInt32) : UInt8 :=
  if extendedSymbolCount ≤ selection then 0
  else (ascii "!+=[]\x7b\x7d<>\\|_").getD selection.toNat 0

/-- `move_extended_symbol` -/
def moveExtendedSymbol (state : State) (event : Event) : State :=
  let selection := state.symbolSelection
  let selection :=
    match event with
    | .left => if selection % extendedSymbolColumns ≠ 0 then selection - 1 else selection
    | .right =>
      if selection % extendedSymbolColumns ≠ extendedSymbolColumns - 1 ∧
          selection + 1 < extendedSymbolCount then selection + 1
      else selection
    | .up =>
      if extendedSymbolColumns ≤ selection then selection - extendedSymbolColumns else selection
    | .down =>
      if selection + extendedSymbolColumns < extendedSymbolCount then
        selection + extendedSymbolColumns
      else selection
    | _ => selection
  { state with symbolSelection := selection }

/-- `activate_extended_symbol` -/
def activateExtendedSymbol (state : State) : State :=
  let character := extendedSymbol state.symbolSelection
  if character ≠ 0 then (secretAppend state character).2 else state

def stepPassword (state : State) (event : Event) (status : Option Status) : Transition :=
  if event = .toggleSecret then quiet { state with secretVisible := !state.secretVisible }
  else if event = .submit ∨ (event = .enter ∧ state.keyboardLayer ≠ .symbols) then
    if serviceBusy status then quiet { state with wifiNotice := "BUSY - YOUR PASSWORD IS KEPT" }
    else if state.secretLength < 8 ∨ 63 < state.secretLength then
      quiet { state with wifiNotice := "USE 8-63 CHARACTERS" }
    else ⟨{ state with wifiNotice := "" }, .wifiConnect, []⟩
  else if state.keyboardLayer = .symbols then
    if event = .enter then quiet (activateExtendedSymbol state)
    else quiet (moveExtendedSymbol state event)
  else quiet state

/-! ### One event -/

/-- The page is left for another, by a side key or by home. -/
def leave (state : State) : State :=
  if state.page = .lockText then clearDraft (clearSecret state) else clearSecret state

def desktopRow (state : State) : UInt32 :=
  if state.desktopSelection < 5 then state.desktopSelection else 0

def stepSideKey (state : State) (page : Page) : State :=
  { leave state with
    page := page
    batterySelectedAt := if page = .battery then 0 else state.batterySelectedAt
    selection := 0
    wifiNotice := "" }

def stepHome (state : State) : State :=
  { leave state with
    wifiNotice := if state.page = .lockText ∨ state.page = .battery then "" else state.wifiNotice
    page := .desktop
    selection := desktopRow state }

def stepBack (state : State) : State :=
  let cleared := clearSecret state
  match state.page with
  | .wifiPassword => { cleared with page := .wifi, selection := 0 }
  | .about => { cleared with page := .settings, selection := settingAbout }
  | .lockText =>
    { clearDraft cleared with wifiNotice := "", page := .settings, selection := settingLockText }
  | .battery =>
    { cleared with wifiNotice := "", page := .desktop, selection := desktopRow state }
  | _ => { cleared with page := .desktop, selection := desktopRow state }

/-- `c1_ui_step` -/
def step (state : State) (event : Event) (status : Option Status) : Transition :=
  if state.page = .lock then quiet state
  else if event = .battery then quiet (stepSideKey state .battery)
  else if event = .settings then quiet (stepSideKey state .settings)
  else if event = .home then quiet (stepHome state)
  else if event = .back then quiet (stepBack state)
  else
    match state.page with
    | .lockText => stepLockText state event
    | .about => quiet state
    | .battery => stepBattery state event status
    | .settings => stepSettings state event status
    | .desktop => stepDesktop state event status
    | .wifi => stepWifi state event status
    | .wifiPassword => stepPassword state event status
    | .terminal => quiet state
    | .lock => quiet state

end C1auncher.Ui.Pages
