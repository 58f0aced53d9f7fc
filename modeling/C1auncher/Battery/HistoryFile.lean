import C1auncher.Battery.Samples

/-!
The file of the battery history: `c1_battery_history_save` and `c1_battery_history_load`.
-/

namespace C1auncher.Battery.HistoryFile

open CString Battery.Samples

/-- `CACHE_BYTES` -/
def cacheBytes : ℕ := 64 + historyPoints * 24

def magic : Text := "C1BATTERY 2\n".toList

/-- Hourly observations, of which the timestamps are still read. -/
def legacyMagic : Text := "C1BATTERY 1\n".toList

structure File where
  regular : Bool
  owned : Bool
  closed : Bool
  bytes : Text
  deriving DecidableEq

/-! ### Saving -/

/-- `%lld %u %u %u\n` -/
def line (p : Sample) : Text :=
  (if p.timestamp < 0 then '-' :: Nat.toDigits 10 p.timestamp.natAbs
    else Nat.toDigits 10 p.timestamp.natAbs) ++ ' ' :: Nat.toDigits 10 p.percent ++
    ' ' :: Nat.toDigits 10 p.power ++ ' ' :: (if p.connected then '1' else '0') :: ['\n']

def lines (bytes : Text) : List Sample → Option Text
  | [] => some bytes
  | p :: samples =>
    if (line p).length ≥ cacheBytes - bytes.length then none else lines (bytes ++ line p) samples

/-- `c1_battery_history_save`: the file that is at the path after it, where it succeeds.
`written` says whether the system did what it was asked, up to the renaming. -/
def save (path : Text) (existing : Option File) (h : History) (written : Bool) : Option File :=
  if path = [] ∨ !validHistory h ∨ path.length + ".XXXXXX".length ≥ 1024 then none
  else if existing.any fun file => !file.regular || !file.owned || !file.closed then none
  else
    match lines magic h.samples with
    | none => none
    | some bytes => if written then some ⟨true, true, true, bytes⟩ else none

/-! ### Loading -/

/-- One number: at least one digit, and at most ten. -/
def readNumber (text : Text) : Option (ℕ × Text) :=
  let digits := text.takeWhile Char.isDigit
  if digits = [] ∨ digits.length > 10 then none
  else some (Nat.ofDigitChars 10 digits 0, text.dropWhile Char.isDigit)

def readEnd (c : Char) : Text → Option Text
  | c' :: text => if c' = c then some text else none
  | [] => none

def readLine (text : Text) : Option ((ℕ × ℕ × ℕ × ℕ) × Text) := do
  let (timestamp, text) ← readNumber text
  let text ← readEnd ' ' text
  let (percent, text) ← readNumber text
  let text ← readEnd ' ' text
  let (power, text) ← readNumber text
  let text ← readEnd ' ' text
  let (connected, text) ← readNumber text
  let text ← readEnd '\n' text
  return ((timestamp, percent, power, connected), text)

/-- What is asked of a line of the old format, after the samples before it. -/
def legacyLine (parsed : List Sample) (timestamp : ℤ) (connected : ℕ) : Bool :=
  parsed.length < 24 &&
    match parsed.getLast? with
    | none => connected = 0
    | some p => ¬(timestamp / 3600 ≤ p.timestamp / 3600 ∨
        (connected ≠ 0 ∧ timestamp / 3600 ≠ p.timestamp / 3600 + 1))

/-- The loop over the lines; there are never more lines than characters. -/
def readLines (legacy : Bool) : ℕ → List Sample → Text → Option (List Sample)
  | _, parsed, [] => some parsed
  | 0, _, _ => none
  | fuel + 1, parsed, text =>
    match readLine text with
    | none => none
    | some ((timestamp, percent, power, connected), text) =>
      if parsed.length = historyPoints ∨ timestamp ≥ maxTime ∨ percent > 100 ∨ power > plugged ∨
          connected > 1 then none
      else if legacy && !legacyLine parsed timestamp connected then none
      else
        readLines legacy fuel
          (parsed ++ [⟨timestamp, percent, power, !legacy && connected ≠ 0⟩]) text

def parse (bytes : Text) : Option History :=
  if bytes.length < magic.length ∨ '\x00' ∈ bytes ∨ bytes.getLast? ≠ some '\n' then none
  else
    let legacy : Bool := bytes.take magic.length = legacyMagic
    if !legacy && bytes.take magic.length ≠ magic then none
    else
      match readLines legacy bytes.length [] (bytes.drop magic.length) with
      | none => none
      | some samples =>
        let parsed := { init with samples := samples }
        if validHistory parsed then some parsed else none

/-- `c1_battery_history_load`: whether it succeeds, and the history. -/
def load (file : Option File) : Bool × History :=
  match file with
  | none => (false, init)
  | some file =>
    if file.regular && file.owned && file.closed && 0 < file.bytes.length &&
        file.bytes.length < cacheBytes then
      match parse file.bytes with
      | none => (false, init)
      | some parsed => (true, parsed)
    else (false, init)

end C1auncher.Battery.HistoryFile
