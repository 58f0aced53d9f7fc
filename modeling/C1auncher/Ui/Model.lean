import C1auncher.Ui.Preferences

/-!
The state of the display and what the keys do to it, page by page.

A transition also says which rows of the list of networks were read.
-/

namespace C1auncher.Ui.Model

open Utf8Bytes Ui.LockText Ui.Preferences

/-! ### The state -/

/-- `c1_ui_page` -/
inductive Page
  | desktop
  | wifi
  | terminal
  | wifiPassword
  | lock
  | battery
  | settings
  | lockText
  | about
  deriving DecidableEq

/-- `c1_ui_event` -/
inductive Event
  | none
  | up
  | down
  | left
  | right
  | enter
  | submit
  | back
  | home
  | toggleSecret
  | battery
  | settings
  | selectNext
  | viewPrevious
  | viewNext
  deriving DecidableEq

/-- `c1_ui_action` -/
inductive Action
  | none
  | wifiScan
  | wifiConnect
  | wifiDisable
  | terminalApp
  | terminalUpdate
  | updateRefresh
  deriving DecidableEq

/-- `c1_ui_keyboard_layer` -/
inductive KeyboardLayer
  | lower
  | upper
  | symbols
  deriving DecidableEq

/-- `c1_wifi_security` -/
inductive Security
  | open_
  | wpaPsk
  | wep
  | enterprise
  | sae
  | owe
  | unknown
  deriving DecidableEq

/-- `c1_battery_view` -/
inductive BatteryView
  | day
  | hour
  | minute
  deriving DecidableEq

/-- `C1_UI_SECRET_CAPACITY` -/
def secretCapacity : ℕ := 64

/-- `char secret[C1_UI_SECRET_CAPACITY]` -/
structure Secret where
  bytes : Bytes
  length_eq : bytes.length = secretCapacity
  deriving DecidableEq

def Secret.zero : Secret := ⟨List.replicate secretCapacity 0, by simp⟩

def Secret.set (s : Secret) (i : ℕ) (b : UInt8) : Secret :=
  ⟨s.bytes.set i b, by rw [List.length_set, s.length_eq]⟩

/-- `c1_ui_state` -/
structure State where
  page : Page
  selection : UInt32
  batteryView : BatteryView
  batterySelectedAt : ℤ
  symbolSelection : UInt32
  keyboardLayer : KeyboardLayer
  terminalSymbolPicker : Bool
  secretVisible : Bool
  desktopSelection : UInt32
  terminalAction : Action
  returnPage : Page
  returnSelection : UInt32
  frozenLock : Bool
  preferences : Preferences
  lockTextDraft : TextArray
  lockTextCursor : ℕ
  wifiNotice : String
  selectedSsid : Bytes
  selectedSecurity : Security
  selectedSaved : Bool
  secret : Secret
  secretLength : ℕ
  deriving DecidableEq

/-- `c1_ui_initial_state` -/
def initialState : State where
  page := .desktop
  selection := 0
  batteryView := .day
  batterySelectedAt := 0
  symbolSelection := 0
  keyboardLayer := .lower
  terminalSymbolPicker := false
  secretVisible := false
  desktopSelection := 0
  terminalAction := .none
  returnPage := .desktop
  returnSelection := 0
  frozenLock := false
  preferences := default
  lockTextDraft := TextArray.zero
  lockTextCursor := 0
  wifiNotice := ""
  selectedSsid := []
  selectedSecurity := .open_
  selectedSaved := false
  secret := Secret.zero
  secretLength := 0

/-- `C1_UI_MAX_NETWORKS` -/
def maxNetworks : ℕ := 8

/-- `c1_ui_network` -/
structure Network where
  ssid : Bytes
  secured : Bool
  security : Security
  saved : Bool

/-- `c1_ui_status`, as far as the keys look at it; of the history of the battery the timestamps. -/
structure Status where
  historyCount : ℕ
  timestamp : ℕ → ℤ
  wifiConnected : Bool
  wifiBusy : Bool
  serviceBusy : Bool
  wifiStopPending : Bool
  networks : ℕ → Network
  networkCount : ℕ
  wifiConnectedSsid : Bytes
  wifiIpv4 : Bytes
  updatePrepared : Bool

/-- `c1_ui_transition`; the rows that were read are only recorded. -/
structure Transition where
  state : State
  action : Action
  reads : List ℕ

/-- Without an action, and without looking at the networks. -/
def quiet (state : State) : Transition := ⟨state, .none, []⟩

/-! ### The secret -/

/-- `c1_ui_clear_secret` -/
def clearSecret (state : State) : State :=
  { state with secret := Secret.zero, secretLength := 0, secretVisible := false }

/-- `c1_ui_is_password_page` -/
def isPasswordPage (page : Page) : Bool := page == .wifiPassword

/-- `c1_ui_enter_lock` -/
def enterLock (state : State) : Bool × State :=
  if state.page = .lock then (false, state)
  else
    let sensitive := isPasswordPage state.page || state.secretLength ≠ 0 || state.secretVisible ||
      state.secret.bytes.any (· ≠ 0)
    let cleared := clearSecret
      { state with
        returnPage := if state.page = .wifiPassword then .wifi else state.page
        returnSelection := if state.page = .wifiPassword then 0 else state.selection
        frozenLock := state.preferences.lockStyle == lockFreeze && !sensitive }
    (true,
      { cleared with
        page := .lock
        selection := 4
        symbolSelection := 0
        keyboardLayer := .lower
        terminalSymbolPicker := false
        selectedSsid := [] })

/-- `c1_ui_unlock` -/
def unlock (state : State) : Bool × State :=
  if state.page ≠ .lock then (false, state)
  else
    (true,
      { state with
        page := state.returnPage
        selection := state.returnSelection
        frozenLock := false })

/-- `c1_ui_secret_append` -/
def secretAppend (state : State) (character : UInt8) : Bool × State :=
  if !isPasswordPage state.page || character < 32 || character > 126 ||
      secretCapacity ≤ state.secretLength + 1 then (false, state)
  else
    (true,
      { state with
        secret := (state.secret.set state.secretLength character).set (state.secretLength + 1) 0
        secretLength := state.secretLength + 1
        wifiNotice := "" })

/-- `c1_ui_secret_delete` -/
def secretDelete (state : State) : Bool × State :=
  if !isPasswordPage state.page || state.secretLength = 0 then (false, state)
  else
    (true,
      { state with
        secret := state.secret.set (state.secretLength - 1) 0
        secretLength := state.secretLength - 1
        wifiNotice := "" })

/-! ### The text of the lock page -/

def continuesAt (draft : Bytes) (offset : ℕ) : Bool := (draft.getD offset 0).toNat &&& 0xc0 = 0x80

/-- The loop of `c1_ui_lock_text_cursor_offset`. -/
def floorOffset (draft : Bytes) (length : ℕ) : ℕ → ℕ
  | 0 => 0
  | cursor + 1 =>
    if cursor + 1 < length ∧ continuesAt draft (cursor + 1) then floorOffset draft length cursor
    else cursor + 1

/-- `strnlen` of the draft. -/
def draftLength (state : State) : ℕ := (cString state.lockTextDraft.bytes).length

/-- `c1_ui_lock_text_cursor_offset` -/
def cursorOffset (state : State) : ℕ :=
  floorOffset state.lockTextDraft.bytes (draftLength state)
    (if state.lockTextCursor < draftLength state then state.lockTextCursor else draftLength state)

def backOffset (draft : Bytes) : ℕ → ℕ
  | 0 => 0
  | cursor + 1 => if continuesAt draft (cursor + 1) then backOffset draft cursor else cursor + 1

/-- The loop on to the first byte of the next character, which takes at most `fuel` rounds. -/
def nextOffset (draft : Bytes) (length : ℕ) : ℕ → ℕ → ℕ
  | 0, cursor => cursor
  | fuel + 1, cursor =>
    if cursor < length ∧ continuesAt draft cursor then nextOffset draft length fuel (cursor + 1)
    else cursor

/-- `c1_ui_lock_text_move` -/
def lockTextMove (state : State) (direction : ℤ) : Bool × State :=
  if state.page ≠ .lockText ∨ direction = 0 ∨ ¬ validText state.lockTextDraft.bytes then
    (false, state)
  else
    let draft := state.lockTextDraft.bytes
    let cursor := cursorOffset state
    let length := draftLength state
    if direction < 0 then
      if cursor = 0 then (false, state)
      else (true, { state with lockTextCursor := backOffset draft (cursor - 1) })
    else if cursor = length then (false, state)
    else (true, { state with lockTextCursor := nextOffset draft length length (cursor + 1) })

/-- An array with these bytes in front and zeros behind them. -/
def padded (bytes : Bytes) : TextArray where
  bytes := (bytes ++ List.replicate lockTextBytes 0).take lockTextBytes
  length_eq := by simp

/-- `c1_ui_lock_text_append_utf8`, of the memory that the pointer leads to. -/
def lockTextAppend (state : State) (memory : Bytes) : Bool × State :=
  if state.page ≠ .lockText ∨ ¬ validText memory then (false, state)
  else
    let draft := state.lockTextDraft.bytes
    let length := draftLength state
    if lockTextBytes ≤ length ∨ (length ≠ 0 ∧ ¬ validText draft) then (false, state)
    else
      let text := cString memory
      if lockTextBytes - length ≤ text.length then (false, state)
      else
        let cursor := cursorOffset state
        (true,
          { state with
            lockTextDraft := padded
              (draft.take cursor ++ text ++ (draft.drop cursor).take (length - cursor + 1))
            lockTextCursor := cursor + text.length
            wifiNotice := "" })

/-- `c1_ui_lock_text_append_ascii` -/
def lockTextAppendAscii (state : State) (character : UInt8) : Bool × State :=
  if character < 32 ∨ character > 126 then (false, state) else lockTextAppend state [character, 0]

/-- `c1_ui_lock_text_delete` -/
def lockTextDelete (state : State) : Bool × State :=
  if state.page ≠ .lockText ∨ ¬ validText state.lockTextDraft.bytes then (false, state)
  else
    let draft := state.lockTextDraft.bytes
    let length := draftLength state
    let cursor := cursorOffset state
    if cursor = 0 then (false, state)
    else
      let start := backOffset draft (cursor - 1)
      (true,
        { state with
          lockTextDraft := padded
            (draft.take start ++ (draft.drop cursor).take (length - cursor + 1))
          lockTextCursor := start
          wifiNotice := "" })

def clearDraft (state : State) : State :=
  { state with lockTextDraft := TextArray.zero, lockTextCursor := 0 }

end C1auncher.Ui.Model
