import C1auncher.Wifi.Service

/-!
A device to connect: a supplicant with its saved networks and its configuration file, and a DHCP
client. A script says of every call whether it takes effect and what is heard of it.

The supplicant is not a part of the repository. What it does with a command, and how it lists its
networks, is what its control interface documents.
-/

namespace C1auncher.Wifi.Supplicant

open CString Wifi.Control Wifi.Service List Option

/-! ### Saved networks -/

/-- A network block of the supplicant. The SSID is a text of bytes. -/
structure Profile where
  id : ℤ
  ssid : Text
  bssid : Option (Fin 6 → Fin 256)
  settings : List (Text × Text)
  disabled : Bool
  id_nonneg : 0 ≤ id
  id_le : id ≤ intMax
  ssid_length : ssid.length ≤ 32

/-- The network blocks, in the order of their ids. -/
structure Profiles where
  list : List Profile
  ordered : list.Pairwise (·.id < ·.id)

def hexByte (n : ℕ) : Text := [Nat.digitChar (n / 16), Nat.digitChar (n % 16)]

def printByte (c : Char) : Text :=
  if c = '"' then ['\\', '"']
  else if c = '\\' then ['\\', '\\']
  else if c = '\x1b' then ['\\', 'e']
  else if c = '\n' then ['\\', 'n']
  else if c = '\r' then ['\\', 'r']
  else if c = '\t' then ['\\', 't']
  else if ' ' ≤ c ∧ c ≤ '~' then [c]
  else '\\' :: 'x' :: hexByte c.toNat

def printSsid (ssid : Text) : Text := ssid.flatMap printByte

/-- How the supplicant writes the BSSID of a network block. -/
def printBssid (bssid : Option (Fin 6 → Fin 256)) : Text :=
  bssid.elim "any".toList fun b => List.intercalate [':'] (List.ofFn fun i => hexByte (b i))

def readHex : Text → Option Text
  | [] => some []
  | high :: low :: text => do
    let high ← hexValue high
    let low ← hexValue low
    return Char.ofNat (16 * high + low) :: (← readHex text)
  | [_] => none

namespace Profile

/-- The network block that `ADD_NETWORK` makes. -/
def blank (id : ℤ) (h : 0 ≤ id ∧ id ≤ intMax) : Profile :=
  ⟨id, [], none, [], true, h.1, h.2, by simp⟩

/-- `SET_NETWORK`, where it accepts the value. -/
def set (p : Profile) (name value : Text) : Option Profile :=
  if name = "ssid".toList then
    (readHex value).bind fun ssid =>
      if h : ssid.length ≤ 32 then some { p with ssid := ssid, ssid_length := h } else none
  else some { p with settings := (name, value) :: p.settings }

def withBit (p : Profile) (disabled : Bool) : Profile := { p with disabled := disabled }

/-- What `capture_networks` keeps of a network block. -/
def saved (p : Profile) : SavedNetwork :=
  ⟨p.id, p.disabled, (decodeScanSsid (printSsid p.ssid) ssidCapacity).getD []⟩

@[simp] lemma blank_id (id : ℤ) (h : 0 ≤ id ∧ id ≤ intMax) : (blank id h).id = id := rfl

@[simp] lemma withBit_id (p : Profile) (disabled : Bool) : (p.withBit disabled).id = p.id := rfl

@[simp] lemma withBit_disabled (p : Profile) (disabled : Bool) :
    (p.withBit disabled).disabled = disabled := rfl

@[simp] lemma withBit_withBit (p : Profile) (b b' : Bool) :
    (p.withBit b).withBit b' = p.withBit b' := rfl

@[simp] lemma withBit_self (p : Profile) : p.withBit p.disabled = p := rfl

@[simp] lemma saved_id (p : Profile) : p.saved.id = p.id := rfl

@[simp] lemma saved_disabled (p : Profile) : p.saved.disabled = p.disabled := rfl

lemma set_id {p q : Profile} {name value : Text} (h : p.set name value = some q) : q.id = p.id := by
  unfold set at h
  split_ifs at h with hname
  · obtain ⟨ssid, -, hssid⟩ := bind_eq_some_iff.mp h
    split_ifs at hssid with hlen
    rw [← some.inj hssid]
  · rw [← some.inj h]

end Profile

/-- The heading of `LIST_NETWORKS`. -/
def pageHeading : Text := "network id / ssid / bssid / flags".toList

/-- The last field of a row of `LIST_NETWORKS`. -/
def rowFlags (current disabled temporary : Bool) : Text :=
  (if current then "[CURRENT]" else "").toList ++ (if disabled then "[DISABLED]" else "").toList ++
    (if temporary then "[TEMP-DISABLED]" else "").toList

/-- One row of `LIST_NETWORKS`, without its end. -/
def rowLine (current : Option ℤ) (temporary : ℤ → Bool) (p : Profile) : Text :=
  integer p.id ++ '\t' :: printSsid p.ssid ++ '\t' :: printBssid p.bssid ++
    '\t' :: rowFlags (current = some p.id) p.disabled (temporary p.id)

namespace Profiles

def knows (profiles : Profiles) (id : ℤ) : Bool := profiles.list.any (·.id = id)

def nextId (profiles : Profiles) : ℤ := (profiles.list.getLast?.elim (-1) (·.id)) + 1

/-- The network blocks after a change of each that leaves it its id. -/
def change (profiles : Profiles) (f : Profile → Profile) (hf : ∀ p, (f p).id = p.id) : Profiles :=
  ⟨profiles.list.map f, List.pairwise_map.mpr (by simpa only [hf] using profiles.ordered)⟩

/-- The network blocks with bits that go by the id. -/
def setBits (profiles : Profiles) (bit : Profile → Bool) : Profiles :=
  profiles.change (fun p => p.withBit (bit p)) fun _ => rfl

def remove (profiles : Profiles) (id : ℤ) : Profiles :=
  ⟨profiles.list.filter (·.id ≠ id), profiles.ordered.filter _⟩

/-- The setting of a variable of one network block. -/
def set (profiles : Profiles) (id : ℤ) (name value : Text) : Profiles :=
  profiles.change (fun p => if p.id = id then (p.set name value).getD p else p) fun p => by
    split_ifs
    · cases h : p.set name value with
      | none => rfl
      | some q => exact Profile.set_id h
    · rfl

lemma nextId_nonneg (profiles : Profiles) : 0 ≤ profiles.nextId := by
  unfold nextId
  cases profiles.list.getLast? with
  | none => simp
  | some p =>
    have := p.id_nonneg
    simp only [elim_some]
    omega

lemma lt_nextId {profiles : Profiles} {p : Profile} (hp : p ∈ profiles.list) :
    p.id < profiles.nextId := by
  obtain ⟨list, ordered⟩ := profiles
  rcases eq_nil_or_concat' list with rfl | ⟨init, last, rfl⟩
  · simp at hp
  have hlast : p.id ≤ last.id := by
    rcases mem_append.mp hp with hp | hp
    · have hlt := (pairwise_append.mp ordered).2.2 p hp last (mem_singleton_self last)
      exact le_of_lt hlt
    · rw [mem_singleton.mp hp]
  simp only [nextId, getLast?_append, getLast?_singleton, some_or,
    elim_some]
  omega

/-- The network blocks with one more, where there is an id for it. -/
def add (profiles : Profiles) : Option Profiles :=
  if h : profiles.nextId ≤ intMax then
    some ⟨profiles.list ++ [.blank profiles.nextId ⟨profiles.nextId_nonneg, h⟩], by
      refine List.pairwise_append.mpr ⟨profiles.ordered, by simp, fun p hp q hq => ?_⟩
      rw [List.mem_singleton.mp hq]
      exact lt_nextId hp⟩
  else none

/-- So many of the rows as fit into the buffer behind what it holds. -/
def rows (line : Profile → Text) : ℕ → List Profile → Text
  | _, [] => []
  | used, p :: list =>
    if used + (line p).length + 1 < outputCapacity then
      line p ++ '\n' :: rows line (used + (line p).length + 1) list
    else []

/-- `LIST_NETWORKS`: the networks behind the last id, as many as fit. -/
def page (profiles : Profiles) (current : Option ℤ) (temporary : ℤ → Bool) (lastId : Option ℤ) :
    Text :=
  pageHeading ++ '\n' :: rows (rowLine current temporary) (pageHeading.length + 1)
    (profiles.list.filter fun p => lastId.all (· < p.id))

end Profiles

/-! ### The device -/

/-- What connects the device, as far as a connection may change it: the saved networks with their
bits, the network the supplicant has settled on, its configuration file, and the networks that the
DHCP client and the address of the interface are of. -/
structure Host where
  saved : Profiles
  current : Option ℤ
  config : Text
  client : Option ℤ
  address : Option ℤ

/-- What becomes of a command: it is answered, or its reply is lost, or is `FAIL`, and then it may
have been carried out. -/
inductive Outcome
  | answered
  | lost (carried : Bool)
  | failed (carried : Bool)
  deriving DecidableEq

/-- What a DHCP call that fails leaves of a client or of an address. -/
inductive Remains
  | kept
  | gone
  | fresh
  deriving DecidableEq

/-- One line of the script: what the next call finds, whatever call it is. -/
structure Turn where
  outcome : Command → Outcome
  /-- The answer to a command that asks, or the file that `SAVE_CONFIG` writes. -/
  text : Command → Text
  /-- The network that the supplicant takes up where it has none. -/
  joins : Option ℤ
  temporary : ℤ → Bool
  ok : Bool
  /-- Another call that fails has been carried out all the same. -/
  carried : Bool
  stop : Bool
  clock : ℤ
  ready : Ready
  address : Option ℕ
  client : Remains
  lease : Remains
  event : ScanEvent

namespace Host

/-- A completed authentication is one to the current network. -/
def admits (h : Host) (status : Text) : Bool :=
  (completedSsid status).all fun ssid => h.saved.list.any fun p =>
    h.current = some p.id ∧ statusId status = some p.id ∧
      decodeScanSsid (printSsid p.ssid) ssidCapacity = some ssid

/-- The supplicant takes up an enabled network where it has none. -/
def join (h : Host) (joins : Option ℤ) : Host :=
  if h.current = none ∧ h.saved.list.any (fun p => joins = some p.id ∧ p.disabled = false) then
    { h with current := joins }
  else h

/-- The network is let go. -/
def leave (h : Host) (id : ℤ) : Host :=
  if h.current = some id then { h with current := none } else h

/-- What a command does, where it is not refused, and its answer. -/
def carry (turn : Turn) (h : Host) : Command → Option (Host × Text)
  | .addNetwork => h.saved.add.map fun saved =>
    ({ h with saved := saved }, integer h.saved.nextId ++ ['\n'])
  | .setNetwork id name value =>
    if h.saved.list.any (fun p => p.id = id ∧ (p.set name value).isSome) then
      some ({ h with saved := h.saved.set id name value }, "OK\n".toList)
    else none
  | .removeNetwork id =>
    if h.saved.knows id then
      some (({ h with saved := h.saved.remove id }.leave id).join turn.joins, "OK\n".toList)
    else none
  | .selectNetwork id =>
    if h.saved.knows id then
      some ({ h with saved := h.saved.setBits fun p => p.id ≠ id, current := some id },
        "OK\n".toList)
    else none
  | .enableNetwork id =>
    if h.saved.knows id then
      some ({ h with saved := h.saved.setBits fun p => p.id ≠ id && p.disabled }.join turn.joins,
        "OK\n".toList)
    else none
  | .disableNetwork id =>
    if h.saved.knows id then
      some (({ h with saved := h.saved.setBits fun p => p.id = id || p.disabled }.leave id).join
        turn.joins, "OK\n".toList)
    else none
  | .disconnect => some ({ h with current := none }, "OK\n".toList)
  | .reconnect => some (h.join turn.joins, "OK\n".toList)
  | .saveConfig => some ({ h with config := turn.text .saveConfig }, "OK\n".toList)
  | .listNetworks lastId => some (h, h.saved.page h.current turn.temporary lastId)
  | .status => if h.admits (turn.text .status) then some (h, turn.text .status) else none
  | command => some (h, turn.text command)

/-- What a DHCP call that fails leaves. -/
def remains (now before : Option ℤ) : Remains → Option ℤ
  | .kept => before
  | .gone => none
  | .fresh => now

/-- `wifi_io.dhcp`: a client and an address of the current network where it succeeds. -/
def lease (turn : Turn) (h : Host) : Bool × Host :=
  if turn.ok ∧ h.current.isSome then (true, { h with client := h.current, address := h.current })
  else (false, { h with
    client := remains h.current h.client turn.client
    address := remains h.current h.address turn.lease })

end Host

/-- The device with the line of the script that is next, and a ghost list of the turns in which a
network was added. -/
structure Site where
  host : Host
  turn : ℕ
  added : List ℕ

/-- The device when the script begins. -/
def Site.start (host : Host) : Site := ⟨host, 0, []⟩

section
variable (psk : Text → Text → Text) (script : ℕ → Turn)

def Site.read {α : Type} (f : Turn → Host → α) (site : Site) : α × Site :=
  (f (script site.turn) site.host, { site with turn := site.turn + 1 })

/-- A call that changes the device. -/
def Site.act {α : Type} (f : Turn → Host → α × Host) (site : Site) : α × Site :=
  ((f (script site.turn) site.host).1,
    { site with host := (f (script site.turn) site.host).2, turn := site.turn + 1 })

def Site.carried (c : Command) (host : Host) (site : Site) : Site :=
  ⟨host, site.turn + 1, if c = .addNetwork then site.turn :: site.added else site.added⟩

/-- The device after a command that is not carried out. -/
def Site.passed (site : Site) : Site := { site with turn := site.turn + 1 }

def Site.unanswered (turn : Turn) (c : Command) (carried : Bool) (site : Site) : Site :=
  match site.host.carry turn c with
  | some (host, _) => if carried then site.carried c host else site.passed
  | none => site.passed

/-- What fits into the buffer of the caller is received. -/
def received (reply : Text) (capacity : ℕ) : Option Text :=
  if reply.length < capacity then some reply else none

/-- `wifi_io.command` -/
def Site.command (c : Command) (capacity : ℕ) (site : Site) : Option Text × Site :=
  let turn := script site.turn
  match turn.outcome c with
  | .answered =>
    match site.host.carry turn c with
    | some (host, reply) => (received reply capacity, site.carried c host)
    | none => (received "FAIL\n".toList capacity, site.passed)
  | .lost carried => (none, site.unanswered turn c carried)
  | .failed carried => (received "FAIL\n".toList capacity, site.unanswered turn c carried)

/-- `wifi_io.observe_status` -/
def observed (turn : Turn) (h : Host) : Option Text :=
  if turn.ok ∧ h.admits (turn.text .status) then some (turn.text .status) else none

/-- The boundary of the service, where all goes by the script. -/
def siteIo : WifiIo Site where
  now := Site.read script fun turn _ => turn.clock
  sleep _ site := site.passed
  progress _ := Site.read script fun turn _ => !turn.stop
  disabledMarker := Site.read script fun turn _ => turn.ok
  setDisabledMarker _ := Site.read script fun turn _ => turn.ok
  controlReady _ _ := Site.read script fun turn _ => (turn.ok, turn.stop)
  ready := Site.read script fun turn _ => turn.ready
  command _ c capacity _ := Site.command script c capacity
  observeStatus _ _ := Site.read script observed
  address := Site.read script fun turn _ => turn.address
  dhcpAvailable := Site.read script fun turn _ => turn.ok
  dhcp _ := Site.act script fun turn h => (((h.lease turn).1, turn.stop), (h.lease turn).2)
  stopDhcp := Site.act script fun turn h => ((turn.ok, turn.stop),
    { h with client := if turn.ok ∨ turn.carried then none else h.client })
  clearAddress := Site.act script fun turn h => (turn.ok,
    { h with address := if turn.ok ∨ turn.carried then none else h.address })
  secureConfig := Site.read script fun turn _ => turn.ok
  backupConfig := Site.read script fun turn h => if turn.ok then some h.config else none
  restoreConfig bytes := Site.act script fun turn h => (turn.ok,
    { h with config := if turn.ok ∨ turn.carried then bytes else h.config })
  enable _ := Site.read script fun turn _ => turn.ok
  eventsOpen := Site.read script fun turn _ => (turn.ok, turn.stop)
  eventsWait _ := Site.read script fun turn _ => turn.event
  eventsClose site := site.passed
  psk := psk

end

end C1auncher.Wifi.Supplicant
