import C1auncher.CString

/-!
The texts of the control interface of the supplicant: SSIDs, integers, status values and the rows
of its lists.
-/

namespace C1auncher.Wifi.Control

open CString

/-- `C1_WIFI_SSID_CAPACITY` -/
def ssidCapacity : ℕ := 33

/-- `C1_WIFI_OUTPUT_CAPACITY` -/
def outputCapacity : ℕ := 4096

/-- `C1_WIFI_MAX_NETWORKS` -/
def maxNetworks : ℕ := 8

/-- `C1_WIFI_SAVED_NETWORKS` -/
def savedNetworks : ℕ := 128

/-- `C1_WIFI_LIST_ROW_BOUND` -/
def listRowBound : ℕ := 512

/-- `INT_MAX` -/
def intMax : ℤ := 2 ^ 31 - 1

inductive Security
  | opened
  | wpaPsk
  | wep
  | enterprise
  | sae
  | owe
  | unknown
  deriving DecidableEq

/-- `c1_wifi_security_supported` -/
def Security.supported : Security → Bool
  | .opened | .wpaPsk => true
  | _ => false

/-- The value of the enumerator. -/
def Security.code : Security → ℕ
  | .opened => 0
  | .wpaPsk => 1
  | .wep => 2
  | .enterprise => 3
  | .sae => 4
  | .owe => 5
  | .unknown => 6

/-! ### Words -/

/-- `strstr(text, part) != NULL` -/
def includes (text part : Text) : Bool := part <:+: text

/-- What `strtok_r` yields one after the other. -/
def tokens (separator : Char) (text : Text) : List Text :=
  (text.splitOn separator).filter (· ≠ [])

/-- `reply_is` -/
def replyIs (output expected : Text) : Bool :=
  output = expected ∨ output = expected ++ ['\n'] ∨ output = expected ++ ['\r', '\n']

/-- `output[strcspn(output, "\r\n")] = '\0'` -/
def firstLine (output : Text) : Text := output.takeWhile (fun c => c ≠ '\r' ∧ c ≠ '\n')

/-- `isspace` -/
def isSpace (c : Char) : Bool := c ∈ [' ', '\t', '\n', '\x0b', '\x0c', '\r']

/-- `parse_integer`, with the syntax of `strtol`. -/
def parseInteger (text : Text) (minimum maximum : ℤ) : Option ℤ :=
  let text := text.dropWhile isSpace
  let negative := text.head? = some '-'
  let digits := if text.head? = some '-' ∨ text.head? = some '+' then text.tail else text
  if digits = [] ∨ ¬digits.all Char.isDigit then none
  else
    let magnitude : ℤ := Nat.ofDigitChars 10 digits 0
    let number := if negative then -magnitude else magnitude
    if number < minimum ∨ maximum < number then none else some number

/-- What `%d` writes. -/
def integer (n : ℤ) : Text :=
  if n < 0 then '-' :: Nat.toDigits 10 n.natAbs else Nat.toDigits 10 n.natAbs

/-- `hex_value` -/
def hexValue (c : Char) : Option ℕ :=
  if '0' ≤ c ∧ c ≤ '9' then some (c.toNat - '0'.toNat)
  else if 'a' ≤ c ∧ c ≤ 'f' then some (c.toNat - 'a'.toNat + 10)
  else if 'A' ≤ c ∧ c ≤ 'F' then some (c.toNat - 'A'.toNat + 10)
  else none

/-! ### SSIDs -/

def escapeValue : Char → Option Char
  | '\\' => some '\\'
  | '"' => some '"'
  | 'n' => some '\n'
  | 'r' => some '\r'
  | 't' => some '\t'
  | 'e' => some '\x1b'
  | _ => none

/-- The test before a byte is written to the buffer. -/
def hasRoom (capacity : ℕ) (decoded : Text) (c : Char) : Bool :=
  ¬(c = '\x00' ∨ capacity ≤ decoded.length + 1 ∨ 32 ≤ decoded.length)

/-- The loop of `c1_wifi_decode_scan_ssid`. -/
def decodeSsid (capacity : ℕ) (decoded : Text) : Text → Option Text
  | [] => if decoded = [] then none else some decoded
  | '\\' :: 'x' :: high :: low :: text =>
    match hexValue high, hexValue low with
    | some high, some low =>
      let c := Char.ofNat (16 * high + low)
      if hasRoom capacity decoded c then decodeSsid capacity (decoded ++ [c]) text else none
    | _, _ => none
  | '\\' :: escape :: text =>
    match escapeValue escape with
    | some c =>
      if hasRoom capacity decoded c then decodeSsid capacity (decoded ++ [c]) text else none
    | none => none
  | ['\\'] => none
  | c :: text =>
    if hasRoom capacity decoded c then decodeSsid capacity (decoded ++ [c]) text else none

/-- `c1_wifi_decode_scan_ssid` -/
def decodeScanSsid (encoded : Text) (capacity : ℕ) : Option Text :=
  if capacity = 0 then none else decodeSsid capacity [] encoded

/-- `c1_wifi_encode_control_ssid` -/
def encodeControlSsid (ssid : Text) : Option Text :=
  if ssid.length = 0 ∨ 32 < ssid.length then none
  else some (ssid.flatMap fun c => [Nat.digitChar (c.toNat / 16), Nat.digitChar (c.toNat % 16)])

/-! ### Status -/

def lineValue (key line : Text) : Option Text :=
  if key.length < line.length ∧ (key ++ ['=']).isPrefixOf line then
    let value := line.drop (key.length + 1)
    some (if value.getLast? = some '\r' then value.dropLast else value)
  else none

/-- `status_value` -/
def statusValue (output key : Text) (capacity : ℕ) : Option Text :=
  ((output.splitOn '\n').findSome? (lineValue key)).bind fun value =>
    if capacity ≤ value.length then none else some value

/-- The SSID of a completed authentication, as in `completed_status`. -/
def completedSsid (output : Text) : Option Text :=
  if statusValue output "wpa_state".toList 32 ≠ some "COMPLETED".toList then none
  else
    (statusValue output "ssid".toList (ssidCapacity * 4)).bind (decodeScanSsid · ssidCapacity)

def statusId (output : Text) : Option ℤ :=
  (statusValue output "id".toList 16).bind (parseInteger · 0 intMax)

/-- `completed_status`: the SSID of a status with a completed authentication, to the target and
with the network id if these are given. -/
def completedStatus (output : Text) (target : Option Text) (networkId : Option ℤ) : Option Text :=
  (completedSsid output).filter fun ssid =>
    target.all (ssid = ·) && networkId.all (statusId output = some ·)

def interfaceDisabled (output : Text) : Bool :=
  statusValue output "wpa_state".toList 32 = some "INTERFACE_DISABLED".toList

lemma completedStatus_eq_some {output ssid : Text} {target : Option Text} {id : Option ℤ} :
    completedStatus output target id = some ssid ↔
      completedSsid output = some ssid ∧ (∀ t ∈ target, ssid = t) ∧
        ∀ i ∈ id, statusId output = some i := by
  cases target <;> cases id <;> simp [completedStatus, Option.filter_eq_some_iff]

/-! ### Rows of a scan -/

/-- `c1_wifi_network` -/
structure Network where
  ssid : Text
  signalDbm : ℤ
  secured : Bool
  security : Security
  supported : Bool
  saved : Bool
  deriving DecidableEq

def cut (c : Char) (text : Text) : Option (Text × Text) :=
  if c ∈ text then some (text.takeWhile (· ≠ c), (text.dropWhile (· ≠ c)).tail) else none

/-- The flags that are left in the loop of `parse_security`. -/
def plainFlags : Text → Bool
  | [] => true
  | '[' :: 'E' :: 'S' :: 'S' :: ']' :: flags => plainFlags flags
  | '[' :: 'W' :: 'P' :: 'S' :: ']' :: flags => plainFlags flags
  | _ => false

/-- `parse_security` -/
def parseSecurity (flags : Text) : Security :=
  if flags = [] then .unknown
  else if includes flags "WEP".toList then .wep
  else if includes flags "PSK".toList then .wpaPsk
  else if includes flags "EAP".toList ∨ includes flags "IEEE8021X".toList then .enterprise
  else if includes flags "SAE".toList then .sae
  else if includes flags "OWE".toList then .owe
  else if plainFlags flags then .opened
  else .unknown

/-- The BSSID of a row: hexadecimal digits with a colon at every third place. -/
def validBssid (bssid : Text) : Bool :=
  bssid.length = 17 ∧
    bssid.zipIdx.all fun (c, i) => if i % 3 = 2 then c == ':' else (hexValue c).isSome

/-- One row of `parse_scan_results`; a row that is not well formed is passed over. -/
def parseScanRow (line : Text) : Option Network := do
  let (bssid, rest) ← cut '\t' line
  let (frequency, rest) ← cut '\t' rest
  let (level, rest) ← cut '\t' rest
  let (flags, name) ← cut '\t' rest
  if !validBssid bssid then none
  let _ ← parseInteger frequency 1 100000
  let signalDbm ← parseInteger level (-127) 0
  let ssid ← decodeScanSsid (name.takeWhile (· ≠ '\r')) ssidCapacity
  let security := parseSecurity flags
  return ⟨ssid, signalDbm, security ≠ .opened, security, security.supported, false⟩

/-- `strcmp` -/
def strcmp : Text → Text → Ordering
  | [], [] => .eq
  | [], _ :: _ => .lt
  | _ :: _, [] => .gt
  | a :: as, b :: bs => (compare a.toNat b.toNat).then (strcmp as bs)

/-- `network_compare` -/
def networkCompare (a b : Network) : Ordering :=
  (compare b.saved a.saved).then <| (compare b.signalDbm a.signalDbm).then <|
    (strcmp a.ssid b.ssid).then (compare a.security.code b.security.code)

/-- What `parse_scan_results` does with a row it has read, before it sorts. -/
def placeNetwork (networks : List Network) (network : Network) : List Network :=
  match networks.findIdx? fun n => n.ssid = network.ssid ∧ n.security = network.security with
  | some i =>
    if networks[i]?.any (·.signalDbm < network.signalDbm) then networks.set i network else networks
  | none =>
    if networks.length < maxNetworks then networks ++ [network]
    else if networks.getLast?.any (networkCompare network · = .lt) then
      networks.dropLast ++ [network]
    else networks

/-- The cached networks after one more row. -/
def addNetwork (networks : List Network) (network : Network) : List Network :=
  (placeNetwork networks network).mergeSort fun a b => networkCompare a b ≠ .gt

def scanHeading : Text := "bssid / frequency / signal level / flags / ss".toList

/-- The row `read_scan_networks` makes of a reply to `BSS`, with the id of the entry. -/
def parseBss (output : Text) : Option (ℤ × Text) := do
  let id ← (statusValue output "id".toList 16).bind (parseInteger · 0 intMax)
  let bssid ← statusValue output "bssid".toList 24
  let frequency ← statusValue output "freq".toList 16
  let level ← statusValue output "level".toList 16
  let flags ← statusValue output "flags".toList 512
  let ssid ← statusValue output "ssid".toList (ssidCapacity * 4)
  return (id, bssid ++ '\t' :: frequency ++ '\t' :: level ++ '\t' :: flags ++ '\t' :: ssid)

/-! ### Rows of the saved networks -/

/-- `saved_network` -/
structure SavedNetwork where
  id : ℤ
  disabled : Bool
  ssid : Text
  deriving DecidableEq

/-- `connection_backup` -/
structure Backup where
  networks : List SavedNetwork
  previousId : ℤ
  previousSsid : Text
  previousCompleted : Bool
  previousDisconnected : Bool
  deriving DecidableEq

/-- The heading of `LIST_NETWORKS`, of which 32 characters are compared. -/
def listHeading : Text := "network id / ssid / bssid / flag".toList

/-- One row of `LIST_NETWORKS`, and whether it is the current network. A name that cannot be
decoded is left empty. -/
def parseListRow (line : Text) : Option (SavedNetwork × Bool) := do
  let (id, rest) ← cut '\t' line
  if listRowBound ≤ line.length then none
  let (name, rest) ← cut '\t' rest
  if '\t' ∉ rest then none
  let flags := (rest.reverse.takeWhile (· ≠ '\t')).reverse
  let id ← parseInteger id 0 intMax
  return (⟨id, includes flags "[DISABLED]".toList,
    (decodeScanSsid name ssidCapacity).getD []⟩, includes flags "[CURRENT]".toList)

/-- The rows of one page of `capture_networks`, with the last id so far. -/
def captureRows : List Text → Backup → ℤ → Option (Backup × ℤ)
  | [], backup, lastId => some (backup, lastId)
  | line :: lines, backup, lastId =>
    if backup.networks.length = savedNetworks then none
    else
      match parseListRow line with
      | none => none
      | some (network, current) =>
        if network.id ≤ lastId then none
        else captureRows lines
          { backup with
            networks := backup.networks ++ [network]
            previousId :=
              if current ∧ backup.previousId < 0 then network.id else backup.previousId }
          network.id

end C1auncher.Wifi.Control
