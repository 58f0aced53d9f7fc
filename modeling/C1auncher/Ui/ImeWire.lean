import C1auncher.Utf8Bytes
import C1auncher.Rings
import C1auncher.Traces

/-!
The wire to the input method: one request at a time, and its reply in one packet.

A system call of the client is an outcome. A packet that comes in is a list of bytes; the kernel
says when it had to be cut.
-/

namespace C1auncher.Ui.ImeWire

open Utf8Bytes

/-- `C1_IME_MAX_CANDIDATES` -/
def maxCandidates : UInt32 := 5

/-- `C1_IME_TEXT_CAPACITY` -/
def textCapacity : ℕ := 1024

/-- `C1_IME_PROTOCOL_VERSION` -/
def protocolVersion : UInt16 := 1

/-! Keys and modifiers. -/

def keyReturn : UInt32 := 0xff0d
def keyLeft : UInt32 := 0xff51
def keyUp : UInt32 := 0xff52
def keyRight : UInt32 := 0xff53
def keyDown : UInt32 := 0xff54
def keyPageUp : UInt32 := 0xff55
def keyPageDown : UInt32 := 0xff56
def keySpace : UInt32 := 0x20

def modShift : UInt32 := 1

/-! `enum c1_ime_operation` -/

def opStatus : UInt32 := 1
def opMode : UInt32 := 2
def opPurpose : UInt32 := 3
def opKey : UInt32 := 4
def opSelect : UInt32 := 5
def opPage : UInt32 := 6
def opCancel : UInt32 := 7

def modeEnglish : UInt32 := 0
def modeChinese : UInt32 := 1

def pagePrevious : UInt32 := 0
def pageNext : UInt32 := 1

/-! `enum c1_ime_response_flags` -/

def flagReady : UInt32 := 1
def flagConsumed : UInt32 := 2
def flagChinese : UInt32 := 4
def flagPassword : UInt32 := 8
def flagComposing : UInt32 := 16

/-- `C1_IME_STATUS_LIMIT` -/
def statusLimit : UInt32 := 2

def wireMagic : UInt32 := 0x4331494d
def wireHeader : ℕ := 32
def wireReplyHeader : ℕ := 40
def wireReply : UInt32 := 0x8000
def wireModifiers : UInt32 := 1 ||| 2 ||| 4 ||| 8 ||| 64
def wireFlags : UInt32 := 63

/-- `struct c1_ime_request` -/
structure Request where
  operation : UInt32
  keysym : UInt32
  modifiers : UInt32
  value : UInt32
  deriving DecidableEq

def Request.zero : Request := ⟨0, 0, 0, 0⟩

/-- `struct c1_ime_response`; of the candidates those that are there. -/
structure Response where
  sequence : UInt32
  request : Request
  flags : UInt32
  status : UInt32
  candidateCount : UInt32
  preedit : Bytes
  commit : Bytes
  candidates : List Bytes
  highlightedCandidate : UInt32
  deriving DecidableEq

def Response.zero : Response := ⟨0, .zero, 0, 0, 0, [], [], [], 0⟩

/-- `c1_valid_request` -/
def validRequest (r : Request) : Bool :=
  if r.operation < opStatus || opCancel < r.operation then false
  else if r.operation = opKey then
    0 < r.keysym && r.keysym ≤ 0x1ffffff && r.modifiers &&& ~~~wireModifiers == 0 && r.value == 0
  else if r.keysym ≠ 0 ∨ r.modifiers ≠ 0 then false
  else if r.operation = opMode ∨ r.operation = opPurpose ∨ r.operation = opPage then r.value ≤ 1
  else if r.operation = opSelect then r.value < maxCandidates
  else r.value == 0

/-! ### Packets -/

def byte (packet : Bytes) (i : ℕ) : UInt8 := packet.getD i 0

/-- `c1_get16` -/
def get16 (packet : Bytes) (i : ℕ) : UInt16 :=
  ((byte packet i).toUInt16 <<< 8) ||| (byte packet (i + 1)).toUInt16

/-- `c1_get32` -/
def get32 (packet : Bytes) (i : ℕ) : UInt32 :=
  ((byte packet i).toUInt32 <<< 24) ||| ((byte packet (i + 1)).toUInt32 <<< 16) |||
    ((byte packet (i + 2)).toUInt32 <<< 8) ||| (byte packet (i + 3)).toUInt32

/-- `c1_put16` -/
def put16 (n : UInt16) : Bytes := [(n >>> 8).toUInt8, n.toUInt8]

/-- `c1_put32` -/
def put32 (n : UInt32) : Bytes :=
  [(n >>> 24).toUInt8, (n >>> 16).toUInt8, (n >>> 8).toUInt8, n.toUInt8]

/-- `c1_encode_request` -/
def encodeRequest (r : Request) (sequence : UInt32) : Bytes :=
  put32 wireMagic ++ put16 protocolVersion ++ put16 r.operation.toUInt16 ++ put32 sequence ++
    put32 (UInt32.ofNat wireHeader) ++ put32 r.keysym ++ put32 r.modifiers ++ put32 r.value ++
    put32 0

/-- What the first byte of a character says: how many follow it, the least character that needs so
many, and its own bits. -/
def lead (ch : UInt32) : Option (ℕ × UInt32 × UInt32) :=
  if 0xc2 ≤ ch ∧ ch ≤ 0xdf then some (1, 0x80, ch &&& 0x1f)
  else if 0xe0 ≤ ch ∧ ch ≤ 0xef then some (2, 0x800, ch &&& 0xf)
  else if 0xf0 ≤ ch ∧ ch ≤ 0xf4 then some (3, 0x10000, ch &&& 7)
  else none

/-- The bits of one byte that follows are put behind those before. -/
def following (ch : UInt32) (b : UInt8) : UInt32 := (ch <<< 6) ||| (b &&& 0x3f).toUInt32

/-- `c1_valid_utf8` -/
def validUtf8 : Bytes → Bool
  | [] => true
  | b :: rest =>
    if b < 0x80 then b ≠ 0 && validUtf8 rest
    else
      match lead b.toUInt32 with
      | none => false
      | some (count, minimum, bits) =>
        if rest.length < count then false
        else if (rest.take count).any fun c => c &&& 0xc0 ≠ 0x80 then false
        else
          let ch := (rest.take count).foldl following bits
          if ch < minimum ∨ 0x10ffff < ch ∨ 0xd800 ≤ ch ∧ ch ≤ 0xdfff then false
          else validUtf8 (rest.drop count)
  termination_by bytes => bytes.length
  decreasing_by
    · simp
    · simp only [List.length_drop, List.length_cons]
      omega

/-- `read_text`: a text of the packet and where it ends. -/
def readText (packet : Bytes) (position length : ℕ) : Option (Bytes × ℕ) :=
  if textCapacity ≤ length ∨ packet.length < position ∨ packet.length - position < length then none
  else if validUtf8 ((packet.drop position).take length) then
    some ((packet.drop position).take length, position + length)
  else none

def readCandidates (packet : Bytes) : ℕ → ℕ → Option (List Bytes × ℕ)
  | 0, position => some ([], position)
  | count + 1, position =>
    if packet.length < position + 2 then none
    else
      match readText packet (position + 2) (get16 packet position).toNat with
      | none => none
      | some (candidate, position) =>
        (readCandidates packet count position).map fun (rest, position) =>
          (candidate :: rest, position)

/-! ### The client -/

/-- `struct c1_ime_client`: whether there is a descriptor, and what is outstanding. -/
structure Client where
  connected : Bool
  nextSequence : UInt32
  pendingSequence : UInt32
  pendingRequest : Request
  deriving DecidableEq

/-- `C1_IME_CLIENT_INIT` -/
def Client.init : Client := ⟨false, 1, 0, .zero⟩

/-- `c1_ime_close` -/
def Client.close (_ : Client) : Client := .init

/-- How a connection goes: there is no socket that can be trusted, or the one that is there fails
or refuses. -/
inductive Connect
  | ok
  | absent
  | refused
  deriving DecidableEq

/-- `c1_ime_connect` -/
def Client.connect (client : Client) (outcome : Connect) : Client × Bool :=
  if client.connected then (client, false)
  else
    match outcome with
    | .absent => (client, false)
    | .refused => (client.close, false)
    | .ok => ({ client with connected := true, nextSequence := 1, pendingSequence := 0 }, true)

/-- What `send` comes to, after the interrupted ones. -/
inductive Sending
  | whole
  | part
  | again
  | failed
  deriving DecidableEq

/-- `c1_ime_send` -/
def Client.send (client : Client) (request : Request) (outcome : Sending) : Client × ℤ :=
  if !client.connected then (client, -1)
  else if client.pendingSequence ≠ 0 then (client, -1)
  else if !validRequest request then (client, -1)
  else
    match outcome with
    | .again => (client, 0)
    | .part | .failed => (client.close, -1)
    | .whole =>
      ({ client with
        pendingRequest := request
        pendingSequence := client.nextSequence
        nextSequence := if client.nextSequence + 1 = 0 then 1 else client.nextSequence + 1 }, 1)

/-- What `recvmsg` comes to, after the interrupted ones. -/
inductive Receiving
  | packet (bytes : Bytes) (cut : Bool)
  | again
  | ended
  | failed
  deriving DecidableEq

def Client.expects (client : Client) (packet : Bytes) (cut : Bool) : Bool :=
  !cut && wireReplyHeader ≤ packet.length && client.pendingSequence ≠ 0 &&
    get32 packet 0 == wireMagic && get16 packet 4 == protocolVersion &&
    (get16 packet 6).toUInt32 == (client.pendingRequest.operation ||| wireReply) &&
    get32 packet 8 == client.pendingSequence &&
    get32 packet 12 == UInt32.ofNat packet.length &&
    get32 packet 16 == client.pendingRequest.keysym &&
    get32 packet 20 &&& ~~~wireFlags == 0 && get32 packet 24 ≤ statusLimit &&
    get32 packet 28 == 0 && get16 packet 38 == 0 &&
    (get16 packet 36).toUInt32 ≤ maxCandidates

def Client.decode (client : Client) (packet : Bytes) (cut : Bool) : Option Response :=
  if !client.expects packet cut then none
  else do
    let (preedit, position) ← readText packet wireReplyHeader (get16 packet 32).toNat
    let (commit, position) ← readText packet position (get16 packet 34).toNat
    let count := (get16 packet 36).toUInt32
    let (candidates, position) ← readCandidates packet count.toNat position
    if position = packet.length then
      some ⟨client.pendingSequence, client.pendingRequest, get32 packet 20, get32 packet 24, count,
        preedit, commit, candidates, 0⟩
    else none

/-- `c1_ime_receive` -/
def Client.receive (client : Client) (outcome : Receiving) : Client × ℤ × Option Response :=
  if !client.connected then (client, -1, none)
  else
    match outcome with
    | .again => (client, 0, none)
    | .failed | .ended => (client.close, -1, none)
    | .packet bytes cut =>
      match client.decode bytes cut with
      | none => (client.close, -1, none)
      | some response =>
        ({ client with pendingSequence := 0, pendingRequest := .zero }, 1, some response)

end C1auncher.Ui.ImeWire

/-!
The queue of keys of the input method: a key waits until everything before it has been answered,
and only then becomes a request.

Times are milliseconds. The record of what happens is kept with the newest event in front; nobody
reads it.
-/

namespace C1auncher.Ui.InputMethod

open Rings Ui.ImeWire

/-- `C1_INPUT_QUEUE_SIZE` -/
def queueSize : ℕ := 64

/-- `c1_input_method` -/
structure Input where
  client : Client
  queue : Ring Request queueSize
  view : Response
  originalRequest : Request
  deadline : ℤ
  enabled : Bool
  failed : Bool

/-- `c1_input_method_init` -/
def Input.init : Input :=
  ⟨.init, ⟨fun _ => .zero, ⟨0, by decide⟩, 0, Nat.zero_le _⟩, .zero, .zero, -1, false, false⟩

/-- What a tick does: what it reads from the wire, whether it tries to send, which request it sends
for which one of the queue, and what it returns. -/
structure Tick where
  now : ℤ
  received : Option Response
  tried : Bool
  sent : Option (Request × Request)
  result : ℤ
  response : Option Response
  deriving DecidableEq

inductive Event
  | connected (now : ℤ)
  | accepted (request : Request)
  | refused (request : Request)
  | ticked (tick : Tick)
  deriving DecidableEq

structure World where
  input : Input
  log : List Event

def World.idle : World := ⟨.init, []⟩

/-- `push` -/
def Input.push (input : Input) (request : Request) : Input × Bool :=
  if h : input.queue.count < queueSize then
    ({ input with queue := input.queue.push request h }, true)
  else ({ input with failed := true }, false)

/-! ### Keys -/

/-- `(flags & flag) != 0` -/
def Response.has (response : Response) (flag : UInt32) : Bool := response.flags &&& flag ≠ 0

/-- Whether a key is one of the five that name a candidate. -/
def isDigit (key : UInt32) : Bool := '1'.val ≤ key && key ≤ '5'.val

/-- What becomes of the head of the queue: an answer at once, with the page as it is then, or a
request. -/
inductive Resolved
  | answer (view response : Response)
  | request (request : Request)

def answerHere (view : Response) (request : Request) (consumed : Bool) : Resolved :=
  .answer view { view with
    request := request
    flags := (view.flags &&& ~~~flagConsumed) ||| (if consumed then flagConsumed else 0)
    commit := [] }

/-- The page after an arrow. -/
def moved (view : Response) (key : UInt32) : Response :=
  if view.candidateCount = 0 then view
  else if key = keyLeft ∧ view.highlightedCandidate ≠ 0 then
    { view with highlightedCandidate := view.highlightedCandidate - 1 }
  else if key = keyRight ∧ view.highlightedCandidate + 1 < view.candidateCount then
    { view with highlightedCandidate := view.highlightedCandidate + 1 }
  else view

def indexOf (view : Response) (key : UInt32) : UInt32 :=
  if isDigit key then key - '1'.val else view.highlightedCandidate

/-- `resolve_key` -/
def resolveKey (view : Response) (request : Request) : Resolved :=
  let key := request.keysym
  let composing := Response.has view flagComposing
  if request.operation ≠ opKey || !Response.has view flagReady || !Response.has view flagChinese ||
      Response.has view flagPassword then .request request
  else if request.modifiers ≠ 0 && !(request.modifiers == modShift && isDigit key) then
    .request request
  else if key = keyLeft ∨ key = keyRight ∨ key = keyUp ∨ key = keyDown then
    answerHere (if composing then moved view key else view) request composing
  else if key = keyPageUp ∨ key = keyPageDown then
    if composing then
      .request ⟨opPage, 0, 0, if key = keyPageDown then pageNext else pagePrevious⟩
    else answerHere view request false
  else if composing && (key == keySpace || key == keyReturn || isDigit key) then
    if indexOf view key < view.candidateCount then .request ⟨opSelect, 0, 0, indexOf view key⟩
    else answerHere view request true
  else .request request

/-! ### Calls -/

namespace World

variable (w : World)

def tell (event : Event) : World := { w with log := event :: w.log }

/-- The rest of `c1_input_method_toggle`, over a connection. -/
def request : World × Bool :=
  let enabled := !w.input.enabled
  let request := ⟨opMode, 0, 0, if enabled then modeChinese else modeEnglish⟩
  match w.input.push request with
  | (input, false) => ({ w with input := input }, false)
  | (input, true) =>
    ({ w with input := { input with enabled := enabled, failed := false } }.tell
      (.accepted request), true)

/-- `c1_input_method_toggle` -/
def toggle (outcome : Connect) (now : ℤ) : World × Bool :=
  if w.input.failed && w.input.client.connected then (w, false)
  else if w.input.client.connected then w.request
  else
    match w.input.client.connect outcome with
    | (client, false) =>
      ({ w with input := { w.input with client := client, failed := true } }, false)
    | (client, true) =>
      ({ w with input := { w.input with client := client, deadline := now + 5000 } }.tell
        (.connected now)).request

/-- `c1_input_method_key` -/
def key (keysym modifiers : UInt32) : World × Bool :=
  let input := w.input
  let idle := input.queue.count == 0 && input.client.pendingSequence == 0
  if !input.client.connected || (!input.enabled && idle) then (w, false)
  else if (keysym == keyPageUp || keysym == keyPageDown) && idle &&
      !Response.has input.view flagComposing then (w, false)
  else
    let request := ⟨opKey, keysym, modifiers, 0⟩
    match input.push request with
    | (input, true) => ({ w with input := input }.tell (.accepted request), true)
    | (input, false) => ({ w with input := input }.tell (.refused request), true)

def fail (now : ℤ) (tried : Bool) : World :=
  { w with input := { Input.init with failed := true } }.tell
    (.ticked ⟨now, none, tried, none, -1, none⟩)

/-- The end of a tick that returns 0: a connection that nobody needs any more is closed. -/
def rest (now : ℤ) (tried : Bool) (sent : Option (Request × Request)) : World :=
  let input := w.input
  let drained := !input.enabled && input.queue.count == 0 && input.client.pendingSequence == 0
  { w with input := if drained then { input with client := input.client.close } else input }.tell
    (.ticked ⟨now, none, tried, sent, 0, none⟩)

def reply (client : Client) (response : Response) (now : ℤ) : World :=
  let answer := { response with request := w.input.originalRequest, highlightedCandidate := 0 }
  { w with input := { w.input with
      client := client
      deadline := -1
      view := { answer with commit := [] } } }.tell
    (.ticked ⟨now, some response, false, none, 1, some answer⟩)

/-- `c1_ime_send` and what follows it. -/
def submit (original request : Request) (sending : Sending) (now : ℤ) : World :=
  let deadline := if w.input.deadline < 0 then now + 5000 else w.input.deadline
  match w.input.client.send request sending with
  | (client, 1) =>
    { w with input := { w.input with
        client := client
        originalRequest := original
        queue := w.input.queue.pop
        deadline := now + 5000 } }.rest now true (some (original, request))
  | (client, 0) =>
    { w with input := { w.input with client := client, deadline := deadline } }.rest now true none
  | _ => w.fail now true

/-- What is done with the head of the queue. -/
def serve (sending : Sending) (now : ℤ) : World :=
  let original := w.input.queue.front
  match resolveKey w.input.view original with
  | .answer view response =>
    { w with input := { w.input with view := view, queue := w.input.queue.pop } }.tell
      (.ticked ⟨now, none, false, none, 1, some response⟩)
  | .request request => w.submit original request sending now

/-- `c1_input_method_tick` -/
def tick (receiving : Receiving) (sending : Sending) (now : ℤ) : World :=
  let input := w.input
  if !input.client.connected then w.tell (.ticked ⟨now, none, false, none, 0, none⟩)
  else if input.failed then w.fail now false
  else
    match input.client.receive receiving with
    | (client, 1, some response) => w.reply client response now
    | (client, 0, _) =>
      let w := { w with input := { input with client := client } }
      if 0 ≤ input.deadline ∧ input.deadline ≤ now then w.fail now false
      else if input.client.pendingSequence = 0 ∧ input.queue.count ≠ 0 then w.serve sending now
      else w.rest now false none
    | _ => w.fail now false

end World

/-- What the desktop does. -/
inductive Call
  | toggle (outcome : Connect) (now : ℤ)
  | key (keysym modifiers : UInt32)
  | tick (receiving : Receiving) (sending : Sending) (now : ℤ)

def Call.run (w : World) : Call → World
  | .toggle outcome now => (w.toggle outcome now).1
  | .key keysym modifiers => (w.key keysym modifiers).1
  | .tick receiving sending now => w.tick receiving sending now

def run (w : World) (calls : List Call) : World := calls.foldl Call.run w

end C1auncher.Ui.InputMethod
