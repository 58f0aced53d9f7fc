import C1auncher.Utf8Bytes

/-!
The keyboard of the terminal: a machine that tells escape sequences and the prefix key from other
bytes, and lets pasted bytes through.
-/

namespace C1auncher.TermIme.InputProcessor

open Utf8Bytes

def ctrlA : UInt8 := 1
def esc : UInt8 := 0x1b
def space : UInt8 := 0x20

/-- The states of `input_sm::Machine`. -/
inductive State
  | normal
  | escape
  | escapeCSI
  | prefixed
  deriving DecidableEq

/-- `input_sm::Result` -/
structure Result where
  data : Bytes
  forward : Bool
  toggleMode : Bool
  paste : Bool
  pasteBegin : Bool
  deriving DecidableEq

def Result.nothing : Result := ⟨[], false, false, false, false⟩

def Result.forwards (data : Bytes) : Result := { Result.nothing with data := data, forward := true }

/-! ### The machine -/

def isCsi (b : UInt8) : Bool := b == 0x5b || b == 0x4f

/-- The byte that ends a sequence; behind `ESC O` only some letters do. -/
def isFinal (buffer : Bytes) (b : UInt8) : Bool :=
  if b < 0x40 || 0x7e < b then false
  else if 2 ≤ buffer.length && buffer.getD 1 0 == 0x4f then
    (0x41 ≤ b && b ≤ 0x44) || b == 0x46 || b == 0x48 || (0x50 ≤ b && b ≤ 0x53)
  else true

def isParam (buffer : Bytes) (b : UInt8) : Bool :=
  buffer.length < 256 && 0x20 ≤ b && b ≤ 0x3f

def transition (state : State) (buffer : Bytes) (b : UInt8) : State × Bytes × Result :=
  match state with
  | .normal =>
    if b = ctrlA then (.prefixed, buffer, .nothing)
    else if b = esc then (.escape, [esc], .nothing)
    else (.normal, buffer, .forwards [b])
  | .escape =>
    if isCsi b then (.escapeCSI, buffer ++ [b], .nothing)
    else (.normal, buffer, .forwards (buffer ++ [b]))
  | .escapeCSI =>
    if isFinal buffer b then (.normal, buffer ++ [b], .forwards (buffer ++ [b]))
    else if isParam buffer b then (.escapeCSI, buffer ++ [b], .nothing)
    else (.normal, buffer ++ [b], .forwards (buffer ++ [b]))
  | .prefixed =>
    if b = space then (.normal, buffer, { Result.nothing with toggleMode := true })
    else if b = ctrlA then (.normal, buffer, .forwards [ctrlA])
    else (.normal, buffer, .forwards [ctrlA, b])

/-! ### The processor -/

/-- `InputProcessor` -/
structure Processor where
  state : State
  buffer : Bytes
  inPaste : Bool
  pasteEndMatched : ℕ
  deriving DecidableEq

def Processor.init : Processor := ⟨.normal, [], false, 0⟩

/-- `ESC [ 2 0 0 ~` -/
def pasteStart : Bytes := [0x1b, 0x5b, 0x32, 0x30, 0x30, 0x7e]

/-- `ESC [ 2 0 1 ~` -/
def pasteEnd : Bytes := [0x1b, 0x5b, 0x32, 0x30, 0x31, 0x7e]

/-- How much of the end of a paste has been read, after one more byte. -/
def matchedAfter (matched : ℕ) (b : UInt8) : ℕ :=
  if b = pasteEnd.getD matched 0 then matched + 1 else if b = esc then 1 else 0

namespace Processor

variable (p : Processor)

def pasted (b : UInt8) : Processor × Result :=
  let matched := matchedAfter p.pasteEndMatched b
  let result := { Result.forwards [b] with paste := true }
  if matched = pasteEnd.length then ({ p with inPaste := false, pasteEndMatched := 0 }, result)
  else ({ p with pasteEndMatched := matched }, result)

/-- `InputProcessor::process` -/
def process (b : UInt8) : Processor × Result :=
  if p.inPaste then p.pasted b
  else
    let (state, buffer, result) := transition p.state p.buffer b
    let p := { p with state := state, buffer := buffer }
    if result.forward && result.data == pasteStart then
      ({ p with inPaste := true, pasteEndMatched := 0 },
        { result with paste := true, pasteBegin := true })
    else (p, result)

/-- `InputProcessor::in_escape` -/
def inEscape : Bool := p.state == .escape || p.state == .escapeCSI

/-- `InputProcessor::flush_escape` -/
def flushEscape : Processor × Result :=
  if p.inEscape then (.init, .forwards p.buffer) else (p, .nothing)

end Processor

/-- What comes from the keyboard: a byte, or the time in which an escape sequence goes on runs
out. -/
inductive Input
  | byte (b : UInt8)
  | timeout
  deriving DecidableEq

def Processor.take (p : Processor) : Input → Processor × Result
  | .byte b => p.process b
  | .timeout => p.flushEscape

def run (p : Processor) (inputs : List Input) : Processor :=
  inputs.foldl (fun p input => (p.take input).1) p

def results (p : Processor) : List Input → List Result
  | [] => []
  | input :: inputs => (p.take input).2 :: results (p.take input).1 inputs

def bytesOf (inputs : List Input) : Bytes :=
  inputs.filterMap fun
    | .byte b => some b
    | .timeout => none

end C1auncher.TermIme.InputProcessor
