import C1auncher.Terminal.Utf8

/-!
The framer of child output: bytes in any portions, tokens out.

A token is a run of ASCII, one character, or one whole control sequence. A C0 control inside
an escape or CSI sequence comes out at once and does not touch the pending sequence. A
sequence that grows too long is dropped up to its end.
-/

namespace C1auncher.Terminal.Framer

open Terminal.Utf8

/-- `kMaxControlBytes` -/
def maxControlBytes : ℕ := 16384

inductive State
  | ground
  | escape
  | escapeIntermediate
  | csi
  | string
  | stringEsc
  | utf8
  deriving DecidableEq

structure OutputStream where
  state : State
  buffer : Bytes
  utf8Need : ℕ
  dropped : Bool
  osc : Bool
  deriving DecidableEq

namespace OutputStream

def init : OutputStream := ⟨.ground, [], 0, false, false⟩

variable (s : OutputStream)

def append (c : UInt8) : OutputStream :=
  if s.dropped then s
  else if maxControlBytes ≤ s.buffer.length then { s with buffer := [], dropped := true }
  else { s with buffer := s.buffer ++ [c] }

def reset : OutputStream := { s with state := .ground, buffer := [], dropped := false }

/-- Emit the pending sequence, unless it was dropped. -/
def finish : List Bytes × OutputStream := (if s.dropped then [] else [s.buffer], s.reset)

def escape : OutputStream := { s with buffer := [0x1b], state := .escape }

/-- Between two sequences: a run of ASCII comes out as a whole. -/
def ground (c : UInt8) (rest : Bytes) : List Bytes × OutputStream × Bytes :=
  if c = 0x1b then ([], s.escape, rest)
  else if c < 0x80 then
    let run := fun b : UInt8 => decide (b < 0x80) && b != 0x1b
    ([c :: rest.takeWhile run], s, rest.dropWhile run)
  else if 0xc2 ≤ c ∧ c ≤ 0xf4 then
    ([], { s with utf8Need := if c < 0xe0 then 2 else if c < 0xf0 then 3 else 4, buffer := [c],
                  state := .utf8 }, rest)
  else ([replacementBytes], s, rest)

/-- Inside a character; a byte that does not belong to it is looked at once more. -/
def continueUtf8 (c : UInt8) (rest : Bytes) : List Bytes × OutputStream × Bytes :=
  let valid :=
    match s.buffer with
    | [lead] => isSecond lead c
    | _ => isTail c
  if !valid then ([replacementBytes], s.reset, c :: rest)
  else
    let s := { s with buffer := s.buffer ++ [c] }
    if s.buffer.length = s.utf8Need then
      let (tokens, s) := s.finish
      (tokens, s, rest)
    else ([], s, rest)

def continueString (c : UInt8) : List Bytes × OutputStream :=
  let done := (s.osc && c == 0x07) || (s.state == .stringEsc && c == 0x5c)
  let s := s.append c
  if done then s.finish
  else ([], { s with state := if c = 0x1b then .stringEsc else .string })

def startSequence (c : UInt8) : List Bytes × OutputStream :=
  let s := s.append c
  if c = 0x5b then ([], { s with state := .csi })
  else if c = 0x5d ∨ c = 0x50 ∨ c = 0x58 ∨ c = 0x5e ∨ c = 0x5f then
    ([], { s with osc := c == 0x5d, state := .string })
  else if 0x20 ≤ c ∧ c ≤ 0x2f then ([], { s with state := .escapeIntermediate })
  else s.finish

/-- Inside an escape or CSI sequence or a control string. -/
def continueControl (c : UInt8) : List Bytes × OutputStream :=
  if c = 0x18 ∨ c = 0x1a then ([], s.reset)
  else if s.state = .string ∨ s.state = .stringEsc then s.continueString c
  else if c = 0x1b then ([], s.reset.escape)
  else if c = 0x7f then ([], s)
  else if c < 0x20 then ([[c]], s)
  else
    match s.state with
    | .escape => s.startSequence c
    | .escapeIntermediate =>
      if 0x30 ≤ c ∧ c ≤ 0x7e then (s.append c).finish else ([], s.append c)
    | .csi => if 0x40 ≤ c ∧ c ≤ 0x7e then (s.append c).finish else ([], s.append c)
    | _ => ([], s.append c)

/-- One turn of the loop of `feed`: what comes out, and what is left to read. -/
def turn (c : UInt8) (rest : Bytes) : List Bytes × OutputStream × Bytes :=
  match s.state with
  | .ground => s.ground c rest
  | .utf8 => s.continueUtf8 c rest
  | _ =>
    let (tokens, s) := s.continueControl c
    (tokens, s, rest)

/-- How many turns are left at most: a byte inside a character may be looked at twice. -/
def turns (data : Bytes) : ℕ := 2 * data.length + if s.state = .utf8 then 1 else 0

lemma turns_turn (c : UInt8) (rest : Bytes) :
    turns (s.turn c rest).2.1 (s.turn c rest).2.2 < turns s (c :: rest) := by
  have hdrop : ∀ run : UInt8 → Bool, (rest.dropWhile run).length ≤ rest.length :=
    fun run => (List.dropWhile_suffix run).length_le
  have hone : ∀ t : OutputStream, turns t rest < turns s (c :: rest) := by
    intro t
    unfold turns
    simp only [List.length_cons]
    split_ifs <;> omega
  unfold turn
  split
  · rename_i hs
    unfold ground
    split_ifs
    all_goals try exact hone _
    have := hdrop fun b => decide (b < 0x80) && b != 0x1b
    simp only [turns, hs, List.length_cons, reduceCtorEq, if_false]
    omega
  · rename_i hs
    unfold continueUtf8
    simp only
    split_ifs
    · simp [turns, hs, reset]
    · exact hone _
    · exact hone _
  · exact hone _

/-- The tokens a portion of data completes. -/
def feed (s : OutputStream) (data : Bytes) : List Bytes × OutputStream :=
  match data with
  | [] => ([], s)
  | c :: rest =>
    let tokens := feed (s.turn c rest).2.1 (s.turn c rest).2.2
    ((s.turn c rest).1 ++ tokens.1, tokens.2)
  termination_by turns s data
  decreasing_by exact turns_turn s c rest

end OutputStream

end C1auncher.Terminal.Framer
