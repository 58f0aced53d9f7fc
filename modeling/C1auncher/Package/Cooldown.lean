import C1auncher.CString

/-!
The cooldown of a repository: the deadline a server asked for, kept in one of 32 slots on disk
across the processes and the boots of the device.

A process owns a slot through the lock on its `.lock` file, the guard, from the opening of the
slot to its closing. `registry.lock` protects the assignment of slots to scopes. The kernel
releases the locks of a process that dies. Numbers are milliseconds in 64 bits; all sums
saturate, so natural numbers stand for them.
-/

namespace C1auncher.Package.Cooldown

open CString

/-- `UINT64_MAX`: a deadline that never comes, and the reading of a clock that failed. -/
def uint64Max : ℕ := 2 ^ 64 - 1

/-- `COOLDOWN_SLOTS` -/
def slotCount : ℕ := 32

/-- `COOLDOWN_URL_MAX` -/
def urlMax : ℕ := 1400

/-- `COOLDOWN_RECOVERY_MS` -/
def recoveryMs : ℕ := 60000

/-- `a > UINT64_MAX - b ? UINT64_MAX : b + a` -/
def addSaturating (a b : ℕ) : ℕ := if a > uint64Max - b then uint64Max else b + a

/-! ### Scopes -/

def httpPrefix : Text := "http://".toList
def httpsPrefix : Text := "https://".toList

/-- `c + ('a' - 'A')` for a capital letter. -/
def lower (c : Char) : Char := if 'A' ≤ c ∧ c ≤ 'Z' then Char.ofNat (c.toNat + 32) else c

def startsWithNoCase (text pre : Text) : Bool := (text.take pre.length).map lower == pre

def hostChar (c : Char) : Bool :=
  ('a' ≤ c ∧ c ≤ 'z') ∨ ('A' ≤ c ∧ c ≤ 'Z') ∨ ('0' ≤ c ∧ c ≤ '9') ∨ c = '-' ∨ c = '.' ∨
    c = ':' ∨ c = '[' ∨ c = ']'

def pathChar (c : Char) : Bool := ' ' < c ∧ c < '\x7f' ∧ c ∉ "\\%?#\x7b\x7d[]".toList

def dropSuffix (text suffix : Text) : Text :=
  if suffix.isSuffixOf text then text.take (text.length - suffix.length) else text

/-- The host in lower case, the name of the official mirror replaced by its address. -/
def cooldownHost (https : Bool) (authority : Text) : Option Text :=
  let host := dropSuffix authority (if https then ":443".toList else ":80".toList)
  if host = [] ∨ 512 ≤ host.length ∨ ¬host.all hostChar then none
  else if host.head? = some ':' ∨ host.getLast? = some '.' then none
  else
    let host := host.map lower
    if !https ∧ host = "www.fwz233.com".toList then some "123.56.214.77".toList else some host

def dropSlashes (text : Text) : Text := (text.reverse.dropWhile (· = '/')).reverse

/-- `cooldown_url`: the scope a URL belongs to by itself. -/
def cooldownUrl (input : Text) : Option Text :=
  let https := startsWithNoCase input httpsPrefix
  if ¬https ∧ ¬startsWithNoCase input httpPrefix then none
  else
    let pre := if https then httpsPrefix else httpPrefix
    let rest := input.drop pre.length
    if rest = [] ∨ urlMax ≤ input.length then none
    else
      let path := rest.dropWhile (· ≠ '/')
      (cooldownHost https (rest.takeWhile (· ≠ '/'))).bind fun host =>
        if "//".toList <:+: path ∨ "/./".toList <:+: path ∨ "/../".toList <:+: path then none
        else if ¬path.all pathChar ∨ urlMax ≤ (pre ++ host ++ path).length then none
        else
          let output := pre ++ dropSlashes (host ++ path)
          if "/.".toList.isSuffixOf output ∨ "/..".toList.isSuffixOf output then none
          else some output

/-- `cooldown_contains` -/
def cooldownContains (scope url : Text) : Bool :=
  scope.isPrefixOf url ∧ ((url.drop scope.length).head? = none ∨
    (url.drop scope.length).head? = some '/')

/-- The directory of a URL, the scope of a repository that nothing is known of. -/
def parentScope (url : Text) : Text :=
  let pre := if httpsPrefix.isPrefixOf url then httpsPrefix.length else httpPrefix.length
  let rest := url.drop pre
  if '/' ∈ rest then
    url.take (pre + (rest.length - 1 - (rest.reverse.takeWhile (· ≠ '/')).length))
  else url

/-! ### Records -/

/-- `cooldown_record`. Its magic says whether a request is pending; a boot id is a number here. -/
structure Record where
  pending : Bool
  scope : Text
  boot : ℕ
  writtenMs : ℕ
  durationMs : ℕ
  untilMs : ℕ
  deriving DecidableEq

/-- A `.state` file: its size, magic and checksum may be wrong. -/
inductive File
  | absent
  | corrupt
  | stored (record : Record)
  deriving DecidableEq

/-- A slot on disk, and the process that holds the lock on its lock file. -/
structure Slot where
  lock : Bool
  state : File
  guard : Option ℕ
  deriving DecidableEq

/-- What `cooldown_read` checks of a record. -/
def Record.valid (r : Record) : Bool :=
  cooldownUrl r.scope = some r.scope ∧ r.writtenMs ≠ uint64Max ∧ r.writtenMs ≤ r.untilMs ∧
    r.untilMs = addSaturating r.durationMs r.writtenMs

/-- What `cooldown_read` returns. -/
inductive Status
  | failed
  | vacant
  | found (record : Record)
  deriving DecidableEq

/-- `cooldown_read`. A lock without a state is lost state, not a vacant slot. -/
def Slot.read (s : Slot) : Status :=
  match s.state with
  | .absent => if s.lock then .failed else .vacant
  | .corrupt => .failed
  | .stored record => if s.lock ∧ record.valid then .found record else .failed

/-- `cooldown_open` on the record it found: a record of another boot is taken over to the clock of
this one, and the marker of a request that never got its response becomes a recovery wait. -/
def Record.reopen (r : Record) (boot now : ℕ) : Option Record :=
  if now = uint64Max then none
  else if r.boot = boot ∧ now < r.writtenMs then none
  else
    let taken : Record :=
      if r.boot ≠ boot then
        { r with boot := boot, writtenMs := now, untilMs := addSaturating r.durationMs now }
      else r
    if r.pending then
      let untilMs := max (addSaturating recoveryMs now) taken.untilMs
      some { taken with
        pending := false
        writtenMs := now
        durationMs := if untilMs = uint64Max then uint64Max else untilMs - now
        untilMs := untilMs }
    else some taken

/-- `cooldown_commit_state`, before it stores the record. -/
def Record.commit (r : Record) (now untilMs : ℕ) (pending : Bool) : Option Record :=
  if now = uint64Max ∨ now < r.writtenMs then none
  else
    let untilMs := max untilMs r.untilMs
    some { r with
      pending := pending
      writtenMs := now
      durationMs := if untilMs = uint64Max then uint64Max else untilMs - now
      untilMs := if untilMs = uint64Max then uint64Max else max untilMs now }

/-- The deadline `remember_cooldown` makes of a response. -/
def rememberUntil (now seconds : ℕ) : ℕ :=
  if seconds > (uint64Max - now) / 1000 then uint64Max else now + seconds * 1000

/-! ### The choice of a slot -/

/-- The variables of the scan in `cooldown_open`. -/
structure Scan where
  choice : Option (Fin slotCount × Record)
  vacant : Option (Fin slotCount)
  scope : Text
  deriving DecidableEq

/-- One turn of the scan; `bound` says that the scope was given by the transport. -/
def Scan.slot (bound : Bool) (url : Text) (slots : Fin slotCount → Slot) (s : Scan)
    (i : Fin slotCount) : Option Scan :=
  match (slots i).read with
  | .failed => none
  | .vacant => some { s with vacant := s.vacant.or (some i) }
  | .found record =>
    if bound then
      if s.scope = record.scope then some { s with choice := some (i, record) } else some s
    else if cooldownContains record.scope url ∧ s.scope.length < record.scope.length then
      some { s with choice := some (i, record), scope := record.scope }
    else some s

def chooseSlot (transport : Option Text) (url : Text) (boot now : ℕ)
    (slots : Fin slotCount → Slot) : Option (Fin slotCount × Option Record) :=
  let bound := transport.filter (cooldownContains · url)
  let start : Scan := ⟨none, none, bound.getD []⟩
  ((List.finRange slotCount).foldlM (Scan.slot bound.isSome url slots) start).bind fun s =>
    match s.choice with
    | some (i, _) => some (i, none)
    | none =>
      s.vacant.map fun i =>
        (i, some ⟨false, if bound.isSome then s.scope else parentScope url, boot, now, 0, now⟩)

/-! ### Processes -/

/-- How far a process has come with its next request. -/
inductive Progress
  | ready
  | waited
  | marked
  deriving DecidableEq

/-- Where a process stands: it waits for the registry, it holds the registry, it holds the registry
and a guard with a record to be stored, or `cooldown_active` and `transport_not_before` are
set. -/
inductive Phase
  | idle
  | waiting (url : Text) (now : ℕ)
  | scanning (url : Text) (now : ℕ)
  | opening (slot : Fin slotCount) (record : Record)
  | active (slot : Fin slotCount) (record : Record) (notBefore : ℕ) (progress : Progress)
  deriving DecidableEq

/-- A process, with `transport_repo_scope`. -/
structure Process where
  transport : Option Text
  phase : Phase
  deriving DecidableEq

/-- What happened, for the statements about a run. `unanswered` of the world and this are not in
the source. -/
inductive Label
  /-- A response was stored: no request before this. -/
  | accepted (boot : ℕ) (scope : Text) (untilMs : ℕ)
  /-- The boot started with this interval left. -/
  | remaining (boot : ℕ) (scope : Text) (untilMs : ℕ)
  /-- The owner of a request went before it stored the response. -/
  | interrupted (boot : ℕ) (scope : Text) (clock : ℕ)
  /-- The marker of a request was stored. -/
  | marked (scope : Text)
  /-- An opening made a recovery wait of the marker. -/
  | recovered (scope : Text)
  /-- A request was sent. -/
  | sent (boot : ℕ) (scope : Text) (clock : ℕ)
  deriving DecidableEq

structure World where
  boot : ℕ
  clock : ℕ
  slots : Fin slotCount → Slot
  registry : Option ℕ
  process : ℕ → Process
  /-- The slots whose last request has no stored response and was not recovered from. -/
  unanswered : Fin slotCount → Bool
  /-- The last label first. -/
  history : List Label

/-- How `cooldown_store` ends: before its rename, after it with an error, or well. -/
inductive Storing
  | failed
  | renamed
  | stored
  deriving DecidableEq

/-- One step of one process; `clock` says whether the clock can be read. A process may `fail` or
`die` anywhere. -/
inductive Event
  | tick (ms : ℕ)
  | reboot (clock : ℕ)
  | bind (p : ℕ) (repoBase : Text)
  | open (p : ℕ) (url : Text) (clock : Bool)
  | lock (p : ℕ)
  | choose (p : ℕ) (clock : Bool)
  | store (p : ℕ) (storing : Storing)
  | fail (p : ℕ)
  | wait (p : ℕ) (clock : Bool)
  | begin (p : ℕ) (clock : Bool) (storing : Storing)
  | send (p : ℕ)
  | remember (p : ℕ) (seconds : ℕ) (clock : Bool) (ms : ℕ) (clock' : Bool) (storing : Storing)
  | close (p : ℕ)
  | die (p : ℕ)
  deriving DecidableEq

namespace World

/-- `monotonic_milliseconds` -/
def now (w : World) (clock : Bool) : ℕ :=
  if clock ∧ w.clock < uint64Max then w.clock else uint64Max

@[simp] def setPhase (w : World) (p : ℕ) (phase : Phase) : World :=
  { w with process := Function.update w.process p { w.process p with phase := phase } }

@[simp] def setSlot (w : World) (i : Fin slotCount) (slot : Slot) : World :=
  { w with slots := Function.update w.slots i slot }

@[simp] def log (w : World) (labels : List Label) : World :=
  { w with history := labels ++ w.history }

@[simp] def setUnanswered (w : World) (i : Fin slotCount) (b : Bool) : World :=
  { w with unanswered := Function.update w.unanswered i b }

/-- The rename of `cooldown_store`. -/
@[simp] def putRecord (w : World) (i : Fin slotCount) (record : Record) : World :=
  w.setSlot i { w.slots i with state := .stored record }

@[simp] def freeRegistry (w : World) (p : ℕ) : World :=
  { w with registry := if w.registry = some p then none else w.registry }

@[simp] def freeGuard (w : World) (i : Fin slotCount) : World :=
  w.setSlot i { w.slots i with guard := none }

/-- A process lets go of what it holds: `cooldown_close`, a failed opening, or its death. Its
request, if it has no stored response, is interrupted. -/
def release (w : World) (p : ℕ) : World :=
  match (w.process p).phase with
  | .opening i _ => ((w.freeGuard i).freeRegistry p).setPhase p .idle
  | .active i record _ _ =>
    ((w.freeGuard i).log (if w.unanswered i then [.interrupted w.boot record.scope w.clock]
      else [])).setPhase p .idle
  | _ => (w.freeRegistry p).setPhase p .idle

/-- What a slot holds over to the next boot. -/
def carried (w : World) (clock : ℕ) (i : Fin slotCount) : List Label :=
  match (w.slots i).state with
  | .stored record =>
    .remaining (w.boot + 1) record.scope (clock + record.durationMs) ::
      if w.unanswered i then [.interrupted (w.boot + 1) record.scope clock] else []
  | _ => []

/-- All processes are gone, the clock starts again. -/
def reboot (w : World) (clock : ℕ) : World :=
  { w with
    boot := w.boot + 1
    clock := clock
    slots := fun i => { w.slots i with guard := none }
    registry := none
    process := fun _ => ⟨none, .idle⟩
    history := (List.finRange slotCount).flatMap (w.carried clock) ++ w.history }

/-- `cooldown_open` with the registry locked: the scan, the guard, and the record as it is under
the guard. Another transfer on the slot is waited for without the registry. -/
def choose (w : World) (p : ℕ) (url : Text) (started : ℕ) (clock : Bool) : World :=
  match chooseSlot (w.process p).transport url w.boot started w.slots with
  | none => w.release p
  | some (i, fresh) =>
    if (w.slots i).guard ≠ none then (w.freeRegistry p).setPhase p (.waiting url started)
    else
      let record := match fresh, (w.slots i).read with
        | some record, _ => some record
        | none, .found record => some record
        | none, _ => none
      let w := w.setSlot i { w.slots i with lock := true }
      match record.bind (·.reopen w.boot (w.now clock)) with
      | none => w.release p
      | some record =>
        (w.setSlot i { w.slots i with guard := some p }).setPhase p (.opening i record)

/-- The rename that ends an opening recovers from a pending request. -/
def putOpened (w : World) (i : Fin slotCount) (record : Record) : World :=
  let recovers := match (w.slots i).state with
    | .stored old => old.pending
    | _ => false
  let w := (w.putRecord i record).setUnanswered i false
  if recovers then w.log [.recovered record.scope] else w

/-- The end of `cooldown_open`. -/
def store (w : World) (p : ℕ) (i : Fin slotCount) (record : Record) : Storing → World
  | .failed => w.release p
  | .renamed => (w.putOpened i record).release p
  | .stored =>
    ((w.putOpened i record).freeRegistry p).setPhase p (.active i record record.untilMs .ready)

/-- `wait_for_cooldown` returns 0. -/
def waits (record : Record) (notBefore now : ℕ) : Bool :=
  now ≠ uint64Max ∧ record.writtenMs ≤ now ∧ notBefore ≠ uint64Max ∧ notBefore ≤ now

/-- `cooldown_begin_request` -/
def begin (w : World) (p : ℕ) (i : Fin slotCount) (record : Record) (notBefore : ℕ)
    (progress : Progress) (now : ℕ) (storing : Storing) : World :=
  match record.commit now notBefore true with
  | none => w.setPhase p (.active i record notBefore .ready)
  | some record =>
    let w' := (w.putRecord i record).log [.marked record.scope]
    match storing with
    | .failed => w.setPhase p (.active i record notBefore .ready)
    | .renamed => w'.setPhase p (.active i record notBefore .ready)
    | .stored => w'.setPhase p (.active i record notBefore
        (if progress = .waited then .marked else .ready))

/-- `remember_cooldown`, which takes the time of the response and, for the record, once more. -/
def remember (w : World) (p : ℕ) (i : Fin slotCount) (record : Record)
    (notBefore seconds responded now : ℕ) (storing : Storing) : World :=
  let notBefore := max (rememberUntil responded seconds) notBefore
  match record.commit now notBefore false with
  | none => w.setPhase p (.active i record notBefore .ready)
  | some record =>
    let w' := ((w.putRecord i record).setUnanswered i false).log
      [.accepted w.boot record.scope (responded + seconds * 1000)]
    if storing = .failed then w.setPhase p (.active i record notBefore .ready)
    else w'.setPhase p (.active i record notBefore .ready)

/-- One step, if its process can take it. An opening that finds a slot open already fails and
closes it. -/
def step (w : World) : Event → Option World
  | .tick ms => some { w with clock := w.clock + ms }
  | .reboot clock => some (w.reboot clock)
  | .bind p repoBase =>
    some { w with
      process := Function.update w.process p
        { w.process p with transport := cooldownUrl repoBase } }
  | .open p url clock =>
    match (w.process p).phase with
    | .idle =>
      match cooldownUrl url with
      | none => some w
      | some url =>
        if w.now clock = uint64Max then some w
        else some (w.setPhase p (.waiting url (w.now clock)))
    | .active _ _ _ _ => some (w.release p)
    | _ => none
  | .lock p =>
    match (w.process p).phase with
    | .waiting url now =>
      if w.registry ≠ none then none
      else some ({ w with registry := some p }.setPhase p (.scanning url now))
    | _ => none
  | .choose p clock =>
    match (w.process p).phase with
    | .scanning url started => some (w.choose p url started clock)
    | _ => none
  | .store p storing =>
    match (w.process p).phase with
    | .opening i record => some (w.store p i record storing)
    | _ => none
  | .fail p =>
    match (w.process p).phase with
    | .waiting _ _ | .scanning _ _ | .opening _ _ => some (w.release p)
    | _ => none
  | .wait p clock =>
    match (w.process p).phase with
    | .active i record notBefore _ =>
      if waits record notBefore (w.now clock) then
        some (w.setPhase p (.active i record notBefore .waited))
      else none
    | _ => none
  | .begin p clock storing =>
    match (w.process p).phase with
    | .active i record notBefore progress =>
      some (w.begin p i record notBefore progress (w.now clock) storing)
    | _ => none
  | .send p =>
    match (w.process p).phase with
    | .active i record notBefore .marked =>
      some (((w.setUnanswered i true).log [.sent w.boot record.scope w.clock]).setPhase p
        (.active i record notBefore .ready))
    | _ => none
  | .remember p seconds clock ms clock' storing =>
    match (w.process p).phase with
    | .active i record notBefore _ =>
      -- where the first reading fails the second is not taken
      let w' := { w with clock := w.clock + ms }
      some (w'.remember p i record notBefore seconds (w.now clock)
        (if w.now clock = uint64Max then uint64Max else w'.now clock') storing)
    | _ => none
  | .close p =>
    match (w.process p).phase with
    | .active _ _ _ _ => some (w.release p)
    | _ => none
  | .die p =>
    let w := w.release p
    some { w with process := Function.update w.process p ⟨none, .idle⟩ }

def run (w : World) : List Event → Option World
  | [] => some w
  | e :: events => (w.step e).bind (·.run events)

/-- A device that has no cooldown directory yet. -/
def initial : World :=
  ⟨0, 0, fun _ => ⟨false, .absent, none⟩, none, fun _ => ⟨none, .idle⟩, fun _ => false, []⟩

end World

end C1auncher.Package.Cooldown
