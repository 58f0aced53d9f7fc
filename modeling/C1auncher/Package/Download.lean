import C1auncher.CString

/-!
One download with up to four requests, resumed where the server lets it.

Bytes arrive from a child process and are written to a file that no reader sees yet. After each
transfer the status and the headers of the response decide whether the bytes are kept, and at
which offset the next request starts.
-/

namespace C1auncher.Package.Download

open CString

/-! ### The output file -/

/-- An open regular file: what it holds, and where the next write goes. -/
structure Output where
  content : Text
  position : ℕ
  deriving DecidableEq

namespace Output

/-- `write`; a gap before the position is filled with zeros. -/
def write (bytes : Text) (f : Output) : Output where
  content := f.content.take f.position ++
    List.replicate (f.position - f.content.length) '\x00' ++ bytes ++
      f.content.drop (f.position + bytes.length)
  position := f.position + bytes.length

/-- `ftruncate` -/
def truncate (size : ℕ) (f : Output) : Output :=
  { f with content := f.content.take size ++ List.replicate (size - f.content.length) '\x00' }

/-- `lseek` -/
def seek (position : ℕ) (f : Output) : Output := { f with position := position }

end Output

inductive Errno
  | again
  | canceled
  | fileTooBig
  | io
  | invalid
  | nameTooLong
  | other (number : ℕ)
  deriving DecidableEq

/-! ### The transfer -/

/-- What a turn of the loop over the pipe meets, where it meets anything. -/
inductive Event
  /-- The user has cancelled. -/
  | cancelled
  /-- `poll`, `read` or `waitpid` fails. -/
  | broken (errno : Errno)
  /-- Bytes arrive; they are all written, or so many of them before a write fails. -/
  | read (bytes : Text) (short : Option (ℕ × Errno))
  deriving DecidableEq

/-- The turns until the end of the bytes and of the child, with the bytes written so far. -/
def copyEvents (limit : ℕ) : List Event → ℕ → Output → Option Errno × ℕ × Output
  | [], received, f => (none, received, f)
  | .cancelled :: _, received, f => (some .canceled, received, f)
  | .broken errno :: _, received, f => (some errno, received, f)
  | .read bytes short :: events, received, f =>
    if bytes.length > limit - received then (some .fileTooBig, received, f)
    else match short with
      | none => copyEvents limit events (received + bytes.length) (f.write bytes)
      | some (count, errno) =>
        (some errno, received + (bytes.take count).length, f.write (bytes.take count))

/-- How the child process fares. -/
structure Child where
  /-- What keeps it from being started. -/
  launch : Option Errno
  events : List Event
  exitCode : ℤ
  deriving DecidableEq

/-- What `c1pkg_run_bounded` leaves: its result, the exit code, how much it wrote. -/
structure Transfer where
  result : ℤ
  errno : Option Errno
  exitCode : ℤ
  received : ℕ
  output : Output
  deriving DecidableEq

def runBounded (child : Child) (limit : ℕ) (f : Output) : Transfer :=
  match child.launch with
  | some errno => ⟨-2, some errno, -1, 0, f⟩
  | none =>
    match copyEvents limit child.events 0 f with
    | (some errno, received, f) => ⟨-2, some errno, -1, received, f⟩
    | (none, received, f) =>
      if child.exitCode = 0 then ⟨0, none, 0, received, f⟩
      else ⟨-1, none, child.exitCode, received, f⟩

/-! ### Responses -/

def transientStatus (status : ℤ) : Bool :=
  status = 408 ∨ status = 429 ∨ status = 500 ∨ status = 502 ∨ status = 503 ∨ status = 504

def transientExit (exitCode : ℤ) : Bool :=
  exitCode = 5 ∨ exitCode = 6 ∨ exitCode = 7 ∨ exitCode = 18 ∨ exitCode = 28 ∨ exitCode = 52 ∨
    exitCode = 55 ∨ exitCode = 56

/-- `strncasecmp` with the length of the second text -/
def beginsNoCase (line word : Text) : Bool :=
  (line.take word.length).map Char.toLower == word.map Char.toLower

def skipBlanks (text : Text) : Text := text.dropWhile fun c => c = ' ' || c = '\t'

/-- The digits at the front of a text, if they fit, and the rest. -/
def scanNumber : UInt64 → Text → Option (UInt64 × Text)
  | number, [] => some (number, [])
  | number, c :: cursor =>
    if c.isDigit then
      if number > (0xffffffffffffffff - digitValue c) / 10 then none
      else scanNumber (number * 10 + digitValue c) cursor
    else some (number, c :: cursor)

/-- A number that is there. -/
def scanField (start : Text) : Option (UInt64 × Text) := do
  let (number, cursor) ← scanNumber 0 start
  guard (cursor ≠ start)
  some (number, cursor)

/-- "bytes %llu-%llu/%llu", and nothing behind it -/
def scanContentRange (value : Text) : Option (UInt64 × UInt64 × UInt64) := do
  guard ("bytes ".toList.isPrefixOf value)
  let (first, cursor) ← scanField (value.drop 6)
  guard (cursor.head? = some '-')
  let (last, cursor) ← scanField cursor.tail
  guard (cursor.head? = some '/')
  let (length, cursor) ← scanField cursor.tail
  guard (cursor = [])
  some (first, last, length)

/-- The total of a range that starts at the offset and holds what was received. -/
def acceptRange (value : Text) (offset received limit : ℕ) : Option ℕ := do
  let (first, last, length) ← scanContentRange value
  guard (first.toNat = offset ∧ first ≤ last ∧ last < length ∧ length.toNat ≤ limit ∧
    received ≤ last.toNat - first.toNat + 1)
  some length.toNat

/-- What was found in the headers of a response so far. -/
structure Ranges where
  ranges : ℕ
  total : Option ℕ
  encoded : Bool
  deriving DecidableEq

def readHeader (offset received limit : ℕ) (found : Ranges) (line : Text) : Ranges :=
  if "HTTP/".toList.isPrefixOf line then ⟨0, none, false⟩
  else if beginsNoCase line "Content-Range:".toList then
    { found with
      ranges := found.ranges + 1
      total := match acceptRange (skipBlanks (line.drop 14)) offset received limit with
        | some total => some total
        | none => found.total }
  else if beginsNoCase line "Content-Encoding:".toList then
    if (skipBlanks (line.drop 17)).map Char.toLower ≠ "identity".toList then
      { found with encoded := true }
    else found
  else found

/-- The lines `strtok_r` finds. -/
def headerLines (data : Text) : List Text :=
  ((data.takeWhile (· ≠ '\x00')).splitOnP fun c => c = '\r' || c = '\n').filter (· ≠ [])

/-- The total a response declares, if it is a single valid range of the document as it is. -/
def responseRange (headers : Option Text) (offset received limit : ℕ) : Option ℕ := do
  let data ← headers
  let found := (headerLines data).foldl (readHeader offset received limit) ⟨0, none, false⟩
  guard (found.ranges = 1 ∧ found.encoded = false)
  found.total

/-! ### The attempts -/

/-- What an attempt meets. Where an operation fails there is its `errno`. -/
structure Turn where
  /-- `wait_for_cooldown` -/
  wait : Option Errno
  /-- `c1pkg_progress` -/
  cancelled : Bool
  /-- The file for the headers is emptied. -/
  headersOpen : Option Errno
  /-- `cooldown_begin_request` -/
  beginRequest : Bool
  child : Child
  /-- The file of the headers, if it can be read. -/
  headers : Option Text
  /-- What `response_status` finds in it. -/
  status : ℤ
  retryAfter : Option UInt64
  /-- `remember_cooldown` -/
  remember : Bool
  truncate : Option Errno
  seek : Option Errno
  sync : Option Errno
  deriving DecidableEq

/-- The texts of the errors. -/
inductive Message
  | pathTooLong
  | cancelled
  | requestNotSaved
  | cooldownNotSaved
  | notResumable
  | unavailable
  | badResponse (status : ℤ)
  | interrupted
  | readWrite (errno : Errno)
  | close (errno : Errno)
  /-- Set by a function that was called. -/
  | called
  | empty
  deriving DecidableEq

def Message.text : Message → String
  | .pathTooLong => "下载路径过长"
  | .cancelled => "操作已取消"
  | .requestNotSaved => "无法持久保存仓库请求状态；已停止联网"
  | .cooldownNotSaved => "无法保存服务器冷却时间；已停止后续请求"
  | .notResumable => "服务器不支持断点续传，已达到自动重试上限"
  | .unavailable => "服务器或网络暂不可用，已达到自动重试上限，请稍后重试"
  | .badResponse status => "仓库 HTTP 响应或下载范围无效：" ++ toString status
  | .interrupted => "下载中断，已达到自动重试上限，请稍后重试"
  | .readWrite _ => "下载文件读写失败："
  | .close _ => "关闭下载文件失败："
  | .called | .empty => ""

/-- The variables of the loop, and the requests that were sent: where each one starts. -/
structure Progress where
  offset : ℕ
  output : Output
  requests : List ℕ
  error : Message
  deriving DecidableEq

structure Ended where
  result : ℤ
  errno : Option Errno
  progress : Progress
  deriving DecidableEq

/-- `io_failed` -/
def ioFailed (errno : Errno) (s : Progress) : Ended :=
  ⟨-2, some errno, { s with error := .readWrite errno }⟩

/-- Go back to a length of the output, and go on with what is done there. -/
def rewind (turn : Turn) (size : ℕ) (s : Progress) (next : Progress → Ended ⊕ Progress) :
    Ended ⊕ Progress :=
  match turn.truncate with
  | some errno => .inl (ioFailed errno s)
  | none =>
    let s := { s with output := s.output.truncate size }
    match turn.seek with
    | some errno => .inl (ioFailed errno s)
    | none => next { s with output := s.output.seek size }

/-- The part of an attempt behind a transfer that is no reason to stop or to start over. -/
def judge (limit : ℕ) (metadata : Bool) (attempt : ℕ) (turn : Turn) (transfer : Transfer)
    (s : Progress) : Ended ⊕ Progress :=
  if transientStatus turn.status ∨
      (turn.status = 0 ∧ transfer.result ≠ 0 ∧ transientExit transfer.exitCode) then
    rewind turn s.offset s fun s =>
      if attempt = 3 then
        let s := { s with error := .unavailable }
        if turn.status = 429 ∨ turn.status = 503 ∨ turn.retryAfter.isSome then
          .inl ⟨-3, some .again, s⟩
        else .inl ⟨-1, none, s⟩
      else .inr s
  else
    let total := if s.offset = 0 then none
      else responseRange turn.headers s.offset transfer.received limit
    if (s.offset = 0 ∧ turn.status ≠ 200) ∨
        (s.offset ≠ 0 ∧ (turn.status ≠ 206 ∨ total = none)) then
      .inl ⟨-1, none, { s with error := .badResponse turn.status }⟩
    else
      let s := { s with offset := s.offset + transfer.received }
      if transfer.result = 0 ∧ (turn.status = 200 ∨ some s.offset = total) then
        match turn.sync with
        | some errno => .inl (ioFailed errno s)
        | none => .inl ⟨0, none, { s with error := .empty }⟩
      else if (transfer.result ≠ 0 ∧ ¬transientExit transfer.exitCode) ∨ s.offset ≥ limit then
        .inl ⟨-1, none, s⟩
      else
        let s := { s with error := .interrupted }
        if metadata then rewind turn 0 { s with offset := 0 } .inr else .inr s

/-- One attempt: the loop ends, or goes on. -/
def tryOnce (limit : ℕ) (metadata : Bool) (attempt : ℕ) (turn : Turn) (s : Progress) :
    Ended ⊕ Progress :=
  match turn.wait with
  | some errno => .inl ⟨if errno = .again then -3 else -2, some errno, { s with error := .called }⟩
  | none =>
    if turn.cancelled then .inl ⟨-2, some .canceled, { s with error := .cancelled }⟩
    else match turn.headersOpen with
    | some errno => .inl (ioFailed errno s)
    | none =>
      if ¬turn.beginRequest then .inl ⟨-3, some .again, { s with error := .requestNotSaved }⟩
      else
        let transfer := runBounded turn.child (limit - s.offset) s.output
        let s := { s with
          output := transfer.output
          requests := if turn.child.launch.isNone then s.offset :: s.requests else s.requests
          error := if transfer.result = 0 then s.error else .called }
        if ¬turn.remember then .inl ⟨-3, some .again, { s with error := .cooldownNotSaved }⟩
        else if transfer.result = -2 ∧ transfer.errno ≠ some .fileTooBig then
          .inl ⟨-2, transfer.errno, s⟩
        else if s.offset ≠ 0 ∧ (turn.status = 200 ∨ turn.status = 416) then
          rewind turn 0 { s with offset := 0 } fun s => .inr { s with error := .notResumable }
        else if transfer.result = -2 then .inl ⟨-2, transfer.errno, s⟩
        else judge limit metadata attempt turn transfer s

def attempts (limit : ℕ) (metadata : Bool) (turns : ℕ → Turn) : ℕ → ℕ → Progress → Ended
  | 0, _, s => ⟨-1, none, s⟩
  | left + 1, attempt, s =>
    match tryOnce limit metadata attempt (turns attempt) s with
    | .inl ended => ended
    | .inr s => attempts limit metadata turns left (attempt + 1) s

/-! ### The call -/

/-- What a call meets besides its attempts. -/
structure Call where
  /-- `snprintf` of the path of the headers -/
  pathFits : Bool
  /-- `cooldown_open` -/
  openCooldown : Option Errno
  openOutput : Option Errno
  /-- `fstat`, and whether the file is a regular one with a single link -/
  check : Option Errno
  truncate : Option Errno
  /-- `mkstemp` -/
  headers : Option Errno
  turns : ℕ → Turn
  close : Option Errno
  unlink : Bool

/-- What a call returns, the file at the path afterwards, and the requests that were sent. -/
structure Returned where
  result : ℤ
  errno : Option Errno
  error : Message
  file : Option Text
  requests : List ℕ
  deriving DecidableEq

/-- From `done` on, where the output is open. -/
def finish (call : Call) (ended : Ended) : Returned :=
  let ended : Ended := match call.close with
    | some errno =>
      if ended.result = 0 then
        ⟨-2, some errno, { ended.progress with error := .close errno }⟩
      else ended
    | none => ended
  { result := ended.result
    errno := ended.errno
    error := ended.progress.error
    file := if ended.result ≠ 0 ∧ call.unlink then none
      else some ended.progress.output.content
    requests := ended.progress.requests }

/-- The setup behind the open output, and the loop. -/
def download (limit : ℕ) (metadata : Bool) (call : Call) (content : Text) : Ended :=
  let s : Progress := ⟨0, ⟨content, 0⟩, [], .empty⟩
  match call.check with
  | some errno => ioFailed errno s
  | none =>
    match call.truncate with
    | some errno => ioFailed errno s
    | none =>
      let s := { s with output := s.output.truncate 0 }
      match call.headers with
      | some errno => ioFailed errno s
      | none => attempts limit metadata call.turns 4 0 s

def fetchEndpoint (limit : ℕ) (metadata : Bool) (call : Call) (file : Option Text) : Returned :=
  if ¬call.pathFits then ⟨-2, some .nameTooLong, .pathTooLong, file, []⟩
  else match call.openCooldown with
  | some errno => ⟨if errno = .canceled then -2 else -3, some errno, .called, file, []⟩
  | none =>
    match call.openOutput with
    | some errno => ⟨-2, some errno, .readWrite errno, file, []⟩
    | none => finish call (download limit metadata call (file.getD []))

end C1auncher.Package.Download
