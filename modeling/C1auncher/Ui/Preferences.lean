import C1auncher.Durable
import C1auncher.JsonParser
import C1auncher.Ui.LockText

/-!
The preferences: what is set, how they are written to a file and read back.

The file has a line for each field. Three of the lines are only for older programs: they follow from
the power mode, and a reader checks them and forgets them.
-/

namespace C1auncher.Ui.Preferences

open CString Durable Durable.Prog Utf8Bytes
open Ui.LockText
open C1auncher.JsonParser (literal)

/-! ### The preferences -/

/-- `char lock_text[C1_LOCK_TEXT_BYTES]` -/
structure TextArray where
  bytes : Bytes
  length_eq : bytes.length = lockTextBytes
  deriving DecidableEq

/-- `memcpy` of a string with its terminator to the front of the array. -/
def TextArray.write (a : TextArray) (value : Bytes) : TextArray where
  bytes := (value ++ 0 :: a.bytes.drop (value.length + 1)).take lockTextBytes
  length_eq := by
    rw [List.length_take_of_le]
    simp only [List.length_append, List.length_cons, List.length_drop, a.length_eq]
    omega

def TextArray.zero : TextArray := ⟨List.replicate lockTextBytes 0, by simp⟩

def TextArray.text (a : TextArray) : Bytes := cString a.bytes

/-- `c1_preferences`; an enumeration is the number it is stored as. -/
structure Preferences where
  language : UInt32
  lockStyle : UInt32
  powerMode : UInt32
  utcOffsetMinutes : ℤ
  networkTime : Bool
  lockText : TextArray
  terminalEnabled : Bool
  backgroundChecks : Bool
  deriving DecidableEq

def languageZh : UInt32 := 0
def languageEn : UInt32 := 1
def lockWallpaper : UInt32 := 0
def lockFreeze : UInt32 := 1
def lockCalendar : UInt32 := 3
def powerModeSaving : UInt32 := 0
def powerModeStandard : UInt32 := 1
def powerModePerformance : UInt32 := 2

/-- `c1_preferences_default` -/
def default : Preferences where
  language := languageZh
  lockStyle := lockWallpaper
  powerMode := powerModeStandard
  utcOffsetMinutes := 480
  networkTime := true
  lockText := TextArray.zero.write (ascii "你好，世界")
  terminalEnabled := true
  backgroundChecks := true

/-- `c1_power_settings` -/
structure PowerSettings where
  lockMinutes : ℕ
  shutdownMinutes : ℕ
  suspendOnLock : Bool

/-- `c1_preferences_power_settings` -/
def powerSettings (mode : UInt32) : PowerSettings :=
  if mode = powerModeSaving then ⟨1, 2, false⟩
  else if mode = powerModePerformance then ⟨5, 0, true⟩
  else ⟨3, 5, false⟩

/-! ### Reading -/

def isSpace (b : UInt8) : Bool := b == 32 || (9 ≤ b && b ≤ 13)

def isDigit (b : UInt8) : Bool := 48 ≤ b && b ≤ 57

/-- The sign that `strtol` takes. -/
def sign : Bytes → Bool × Bytes
  | 45 :: text => (true, text)
  | 43 :: text => (false, text)
  | text => (false, text)

/-- `number`. What overflows in `strtol` is outside of every limit too. -/
def number (text : Bytes) (min max : ℤ) : Option ℤ :=
  let (negative, rest) := sign (text.dropWhile isSpace)
  let digits := rest.takeWhile isDigit
  if digits = [] ∨ rest.dropWhile isDigit ≠ [] then none
  else
    let n : ℤ := Nat.ofDigitChars 10 (digits.map fun b => Char.ofNat b.toNat) 0
    let value := if negative then -n else n
    if value < min ∨ max < value then none else some value

inductive Key
  | language
  | lockText
  | powerMode
  | idleMinutes
  | suspendSeconds
  | shutdownMinutes
  | lockStyle
  | utcOffsetMinutes
  | terminalEnabled
  | backgroundChecks
  | networkTime
  deriving DecidableEq

def Key.name : Key → Bytes
  | .language => ascii "language"
  | .lockText => ascii "lock_text"
  | .powerMode => ascii "power_mode"
  | .idleMinutes => ascii "idle_minutes"
  | .suspendSeconds => ascii "suspend_seconds"
  | .shutdownMinutes => ascii "shutdown_minutes"
  | .lockStyle => ascii "lock_style"
  | .utcOffsetMinutes => ascii "utc_offset_minutes"
  | .terminalEnabled => ascii "terminal_enabled"
  | .backgroundChecks => ascii "background_checks"
  | .networkTime => ascii "network_time"

def keys : List Key :=
  [.language, .lockText, .powerMode, .idleMinutes, .suspendSeconds, .shutdownMinutes, .lockStyle,
    .utcOffsetMinutes, .terminalEnabled, .backgroundChecks, .networkTime]

def keyOf (name : Bytes) : Option Key := keys.find? fun key => key.name = name

/-- A line with a key and a value; without a result the file is not valid. -/
def setField (p : Preferences) (name value : Bytes) : Option Preferences :=
  match keyOf name with
  | none => some p
  | some .language =>
    if value = ascii "zh" then some { p with language := languageZh }
    else if value = ascii "en" then some { p with language := languageEn }
    else none
  | some .lockText =>
    if validText value then some { p with lockText := p.lockText.write value } else none
  | some .powerMode =>
    if value = ascii "saving" then some { p with powerMode := powerModeSaving }
    else if value = ascii "standard" then some { p with powerMode := powerModeStandard }
    else if value = ascii "performance" then some { p with powerMode := powerModePerformance }
    else none
  | some .idleMinutes => (number value 0 1440).map fun _ => p
  | some .suspendSeconds => (number value 0 86400).map fun _ => p
  | some .shutdownMinutes => (number value 0 10080).map fun _ => p
  | some .lockStyle =>
    (number value 0 3).map fun n => { p with lockStyle := UInt32.ofNat n.toNat }
  | some .utcOffsetMinutes => do
    let n ← number value (-720) 840
    if n.tmod 15 ≠ 0 then none else some { p with utcOffsetMinutes := n }
  | some .terminalEnabled =>
    (number value 0 1).map fun n : ℤ => { p with terminalEnabled := decide (n ≠ 0) }
  | some .backgroundChecks =>
    (number value 0 1).map fun n : ℤ => { p with backgroundChecks := decide (n ≠ 0) }
  | some .networkTime =>
    (number value 0 1).map fun n : ℤ => { p with networkTime := decide (n ≠ 0) }

/-- `fgets` into 256 bytes: the line, what is left, and whether the end was met. -/
def fgets (file : Bytes) : Option (Bytes × Bytes × Bool) :=
  let window := file.take 255
  let body := window.takeWhile (· ≠ 10)
  if file = [] then none
  else if body.length < window.length then some (body ++ [10], file.drop (body.length + 1), false)
  else some (window, file.drop 255, window.length < 255)

/-- The line without its end; a line that goes on beyond the buffer is refused. -/
def lineText (line : Bytes) (eof : Bool) : Option Bytes :=
  let text := cString line
  let text? :=
    if text.getLast? = some 10 then some text.dropLast
    else if eof then some text else none
  text?.map fun text => if text.getLast? = some 13 then text.dropLast else text

/-- One round of the loop. -/
def readLine (p : Preferences) (line : Bytes) (eof : Bool) : Option Preferences := do
  let text ← lineText line eof
  if text.head? = none ∨ text.head? = some 35 then some p
  else if 61 ∈ text then
    setField p (text.takeWhile (· ≠ 61)) ((text.dropWhile (· ≠ 61)).drop 1)
  else none

/-- The loop; every round takes a byte. -/
def readLines : ℕ → Preferences → Bytes → Option Preferences
  | 0, p, _ => some p
  | fuel + 1, p, file =>
    match fgets file with
    | none => some p
    | some (line, rest, eof) => (readLine p line eof).bind fun p => readLines fuel p rest

/-- Which of the operations of a load succeed. -/
structure Loading where
  opened : Bool
  regular : Bool
  streamed : Bool
  read : Bool
  closed : Bool

/-- `c1_preferences_load` of what is there under the name: whether it succeeds, and what the caller
then has. -/
def load (ops : Loading) (found : Option Bytes) : Bool × Preferences :=
  match found with
  | none => (false, default)
  | some content =>
    if !ops.opened || !ops.regular || 4096 < content.length || !ops.streamed then (false, default)
    else
      match readLines content.length default content with
      | none => (false, default)
      | some p => if ops.read && ops.closed then (true, p) else (false, default)

/-! ### Writing -/

/-- What `c1_preferences_save` asks of the preferences. -/
def accepted (p : Preferences) : Prop :=
  validText p.lockText.bytes ∧ p.language ≤ languageEn ∧ p.lockStyle ≤ lockCalendar ∧
    p.powerMode ≤ powerModePerformance ∧ -720 ≤ p.utcOffsetMinutes ∧ p.utcOffsetMinutes ≤ 840 ∧
    p.utcOffsetMinutes.tmod 15 = 0

instance : DecidablePred accepted := fun _ =>
  inferInstanceAs (Decidable (_ ∧ _ ∧ _ ∧ _ ∧ _ ∧ _ ∧ _))

def integer (n : ℤ) : Bytes := encode (literal n)

def flag (b : Bool) : Bytes := integer (if b then 1 else 0)

/-- `modes` -/
def modeName (mode : UInt32) : Bytes :=
  if mode = 0 then ascii "saving" else if mode = 1 then ascii "standard" else ascii "performance"

def fields (p : Preferences) : List (Key × Bytes) :=
  [(.language, if p.language = languageEn then ascii "en" else ascii "zh"),
    (.powerMode, modeName p.powerMode),
    (.idleMinutes, integer (powerSettings p.powerMode).lockMinutes),
    (.suspendSeconds, flag (powerSettings p.powerMode).suspendOnLock),
    (.shutdownMinutes, integer (powerSettings p.powerMode).shutdownMinutes),
    (.lockStyle, integer p.lockStyle.toNat),
    (.utcOffsetMinutes, integer p.utcOffsetMinutes),
    (.networkTime, flag p.networkTime),
    (.lockText, p.lockText.text),
    (.terminalEnabled, flag p.terminalEnabled),
    (.backgroundChecks, flag p.backgroundChecks)]

def fieldLine (field : Key × Bytes) : Bytes := field.1.name ++ 61 :: field.2 ++ [10]

/-- What is printed. -/
def fileText (p : Preferences) : Bytes := (fields p).flatMap fieldLine

/-- The file under the name, and the temporary one. -/
structure Disk where
  stored : Option Bytes
  temporary : Option Bytes
  deriving DecidableEq

def pathFits (length : ℕ) : Prop := 0 < length ∧ length < 1024 ∧ length + 7 < 1024

instance : DecidablePred pathFits := fun _ => inferInstanceAs (Decidable (_ ∧ _ ∧ _))

/-- `c1_preferences_save`; of a write that fails some of the bytes may be in the file. -/
def save (p : Preferences) (pathLength cut : ℕ) : Prog Disk Unit := do
  require (accepted p ∧ pathFits pathLength)
  tick
  act fun d => { d with temporary := some [] }
  orElse (do
      tick
      let printed ← attempt (do
        act fun d => { d with temporary := some ((fileText p).take cut) }
        act fun d => { d with temporary := some (fileText p) })
      let synced ← attempt tick
      let closed ← attempt tick
      require (printed.isSome ∧ synced.isSome ∧ closed.isSome)
      act fun d => { stored := d.temporary, temporary := none }
      tick)
    (act fun d => { d with temporary := none })

/-! ### Settings -/

inductive Setting
  | language
  | powerMode
  | lockStyle
  | timeZone
  | networkTime
  | other
  deriving DecidableEq

/-- `c1_preferences_cycle` -/
def cycle (p : Preferences) (index : Setting) (direction : ℤ) : Preferences :=
  match index with
  | .language =>
    { p with language := if p.language = languageZh then languageEn else languageZh }
  | .powerMode => { p with powerMode := (p.powerMode + if direction < 0 then 2 else 1) % 3 }
  | .lockStyle => { p with lockStyle := (p.lockStyle + if direction < 0 then 3 else 1) % 4 }
  | .timeZone =>
    let offset := p.utcOffsetMinutes + if direction < 0 then -15 else 15
    let offset := if offset > 840 then -720 else offset
    { p with utcOffsetMinutes := if offset < -720 then 840 else offset }
  | .networkTime => { p with networkTime := !p.networkTime }
  | .other => p

end C1auncher.Ui.Preferences
