import C1auncher.Lines
import C1auncher.Package.Label

/-!
The summary on the desktop: its text, its record in memory, the file it is kept in and the count of
new packages.
-/

namespace C1auncher.Desktop.Summary

open CString Utf8Bytes Lines
open Ui.LockText Package.Label

/-- `C1_DESKTOP_BODY_MAX` -/
def bodyMax : ℕ := 16384

/-- `C1_DESKTOP_PACKAGES` -/
def desktopPackages : ℕ := 128

/-- `C1_DESKTOP_BANNER_WIDTH` -/
def bannerWidth : ℕ := 284

/-! ### The record -/

/-- `char [n]` -/
structure CharArray (n : ℕ) where
  bytes : Bytes
  length_eq : bytes.length = n
  deriving DecidableEq

def CharArray.zero (n : ℕ) : CharArray n := ⟨List.replicate n 0, by simp⟩

def CharArray.text {n : ℕ} (a : CharArray n) : Bytes := cString a.bytes

/-- Whether `memchr` finds a terminator. -/
def CharArray.terminated {n : ℕ} (a : CharArray n) : Bool := 0 ∈ a.bytes

/-- A string with its terminator copied to the front of the array. -/
def CharArray.strcpy {n : ℕ} (a : CharArray n) (text : Bytes) : CharArray n where
  bytes := (text ++ 0 :: a.bytes.drop (text.length + 1)).take n
  length_eq := by
    rw [List.length_take_of_le]
    simp only [List.length_append, List.length_cons, List.length_drop, a.length_eq]
    omega

/-- `char ids[C1_DESKTOP_PACKAGES][33]` -/
structure IdArray where
  slots : List (CharArray 33)
  length_eq : slots.length = desktopPackages
  deriving DecidableEq

def IdArray.zero : IdArray := ⟨List.replicate desktopPackages (CharArray.zero 33), by simp⟩

def IdArray.strcpy (a : IdArray) (i : ℕ) (id : Bytes) : IdArray where
  slots := a.slots.set i ((a.slots.getD i (CharArray.zero 33)).strcpy id)
  length_eq := by rw [List.length_set, a.length_eq]

/-- `c1_desktop_data` -/
structure Data where
  source : CharArray 1025
  date : CharArray 11
  quoteZh : CharArray lockTextBytes
  quoteEn : CharArray lockTextBytes
  sequence : UInt64
  count : ℕ
  ids : IdArray
  deriving DecidableEq

def Data.zero : Data :=
  ⟨CharArray.zero _, CharArray.zero _, CharArray.zero _, CharArray.zero _, 0, 0, IdArray.zero⟩

def Data.idTexts (d : Data) : List Bytes := (d.ids.slots.take d.count).map CharArray.text

/-- `ids[count++]` -/
def Data.addId (d : Data) (id : Bytes) : Data :=
  { d with ids := d.ids.strcpy d.count id, count := d.count + 1 }

/-! ### Fields -/

def isDigit (b : UInt8) : Bool := 48 ≤ b && b ≤ 57

def digit (b : UInt8) : ℕ := b.toNat - 48

/-- The days of a month of a year that is not a leap year. -/
def days : List ℕ := [31, 28, 31, 30, 31, 30, 31, 31, 30, 31, 30, 31]

/-- The last condition of `valid_date`. -/
def calendarDay (year month day : ℕ) : Bool :=
  year ≠ 0 && 1 ≤ month && month ≤ 12 && 1 ≤ day && day ≤ days.getD (month - 1) 0 +
    if month = 2 ∧ year % 4 = 0 ∧ (year % 100 ≠ 0 ∨ year % 400 = 0) then 1 else 0

/-- `valid_date`; the parser makes the same checks once more. -/
def validDate : Bytes → Bool
  | [y3, y2, y1, y0, d, m1, m0, d', d1, d0] =>
    d == 45 && d' == 45 && [y3, y2, y1, y0, m1, m0, d1, d0].all isDigit &&
      calendarDay (digit y3 * 1000 + digit y2 * 100 + digit y1 * 10 + digit y0)
        (digit m1 * 10 + digit m0) (digit d1 * 10 + digit d0)
  | _ => false

/-- `decimal`, of a number that is not zero. -/
def decimalNonzero (s : Bytes) : Option UInt64 := parseU64 (chars s) true

/-- `tolower` -/
def toLower (b : UInt8) : UInt8 := if 65 ≤ b ∧ b ≤ 90 then b + 32 else b

/-- Whether `strcasecmp` finds no difference. -/
def caseEqual (a b : Bytes) : Bool := a.map toLower == b.map toLower

def internalPackageId (id : Bytes) : Bool := caseEqual id (ascii "c1-ime")

def reserved : List Bytes :=
  [ascii "c1pkg", ascii "c1updater", ascii "c1ancher", ascii "c1ancher-launcher",
   ascii "app_daemon"]

def idByte (b : UInt8) : Bool :=
  (97 ≤ b && b ≤ 122) || (65 ≤ b && b ≤ 90) || (48 ≤ b && b ≤ 57) || b == 45 || b == 95 || b == 46

/-- Whether `strstr` finds two dots. -/
def doubleDot : Bytes → Bool
  | 46 :: 46 :: _ => true
  | _ :: s => doubleDot s
  | [] => false

def validId (id : Bytes) : Bool :=
  id.length != 0 && id.length ≤ 32 && id.head? != some 46 && id.head? != some 45 &&
    id.head? != some 95 && id.getLast? != some 46 && !doubleDot id &&
    reserved.all (fun r => !caseEqual id r) && id.all idByte

/-- The length of a character, from its first byte. -/
def scalarLength (b : UInt8) : ℕ :=
  if b < 0x80 then 1 else if b < 0xe0 then 2 else if b < 0xf0 then 3 else 4

/-- The loop over the characters of a quote. -/
def scalarsFrom : ℕ → Bytes → Bool
  | _, [] => true
  | 0, _ :: _ => false
  | fuel + 1, b :: s =>
    let n := scalarLength b
    if b ≠ 32 ∧ !validLabel ((b :: s).take n) then false else scalarsFrom fuel ((b :: s).drop n)

variable (widths : ℕ → UInt8)

/-- `c1_desktop_quote_valid`, of the memory that the pointer leads to. -/
def quoteValid (memory : Bytes) : Bool :=
  let quote := cString memory
  if !validText memory || bannerWidth < textWidth widths quote || quote.head? == some 32 ||
      quote.getLast? == some 32 then false
  else scalarsFrom quote.length quote

/-! ### The text -/

/-- The local variables of `c1_desktop_parse`. -/
structure Parsing where
  fields : ℕ
  lastId : Bytes
  parsed : Data
  deriving DecidableEq

def parseDate (s : Parsing) (date : Bytes) : Option Parsing :=
  if !validDate date then none
  else some { s with
    parsed := { s.parsed with date := s.parsed.date.strcpy date }
    fields := s.fields ||| 1 }

def parseSequence (s : Parsing) (text : Bytes) : Option Parsing :=
  (decimalNonzero text).map fun n =>
    { s with parsed := { s.parsed with sequence := n }, fields := s.fields ||| 2 }

def parseZh (s : Parsing) (quote : Bytes) : Option Parsing :=
  if !quoteValid widths (quote ++ [0]) then none
  else some { s with
    parsed := { s.parsed with quoteZh := s.parsed.quoteZh.strcpy quote }, fields := s.fields ||| 4 }

/-- The second quote: ASCII, or the first one again. -/
def parseEn (s : Parsing) (quote : Bytes) : Option Parsing :=
  if !quoteValid widths (quote ++ [0]) then none
  else if quote ≠ s.parsed.quoteZh.text ∧ quote.any (fun b => b < 32 || 126 < b) then none
  else some { s with
    parsed := { s.parsed with quoteEn := s.parsed.quoteEn.strcpy quote }, fields := s.fields ||| 8 }

def parsePackage (s : Parsing) (id : Bytes) : Option Parsing :=
  if !validId id || (s.lastId != [] && (caseEqual s.lastId id || (strcmp s.lastId id).isGE)) then
    none
  else if s.parsed.idTexts.any fun other => caseEqual other id then none
  else if internalPackageId id then some { s with lastId := id }
  else if desktopPackages ≤ s.parsed.count then none
  else some { s with lastId := id, parsed := s.parsed.addId id }

/-- One round of the loop. -/
def parseLine (s : Parsing) (line : Bytes) : Option Parsing :=
  if 256 ≤ line.length then none
  else if (ascii "D\t").isPrefixOf line ∧ s.fields = 0 then parseDate s (line.drop 2)
  else if (ascii "S\t").isPrefixOf line ∧ s.fields = 1 then parseSequence s (line.drop 2)
  else if (ascii "Q\tzh\t").isPrefixOf line ∧ s.fields = 3 then parseZh widths s (line.drop 5)
  else if (ascii "Q\ten\t").isPrefixOf line ∧ s.fields = 7 then parseEn widths s (line.drop 5)
  else if (ascii "P\t").isPrefixOf line ∧ s.fields = 15 then parsePackage s (line.drop 2)
  else none

/-- The first line. -/
def header : Bytes := ascii "C1DESKTOP 1\n"

/-- `c1_desktop_parse` -/
def parse (data : Bytes) : Option Data :=
  if data.length < header.length ∨ bodyMax < data.length ∨ data.take header.length ≠ header ∨
      data.getLast? ≠ some 10 ∨ 0 ∈ data ∨ 13 ∈ data then none
  else do
    let s ← run 10 none (parseLine widths) data.length ⟨0, [], Data.zero⟩ (data.drop header.length)
    if s.fields ≠ 15 then none else some s.parsed

/-! ### The file -/

/-- The loop over the identifiers of a cache; `last` is the one before. -/
def validIds : Option Bytes → List (CharArray 33) → Bool
  | _, [] => true
  | last, a :: ids =>
    a.terminated && validId a.text && !(last.any fun l => (strcmp l a.text).isGE) &&
      validIds (some a.text) ids

def validCache (d : Data) : Bool :=
  d.count ≤ desktopPackages && d.sequence != 0 && d.source.terminated && d.source.text != [] &&
    d.date.terminated && validDate d.date.text && quoteValid widths d.quoteZh.bytes &&
    quoteValid widths d.quoteEn.bytes && validIds none (d.ids.slots.take d.count)

structure Record where
  magic : CharArray 16
  data : Data
  deriving DecidableEq

/-- `sizeof(record)` -/
def recordSize : ℕ := 5680

/-- A file; its content is a record exactly when it has the size of one. -/
structure File where
  regular : Bool
  owned : Bool
  closed : Bool
  content : Option Record
  deriving DecidableEq

/-- What a call of `read` or `write` does. -/
inductive Transfer
  | moved (n : ℕ)
  | interrupted
  | failed

/-- The loop around `read` or `write`, of a record of which some bytes are done; after the outcomes
that are given everything moves. -/
def transfer : ℕ → List Transfer → Bool
  | _, [] => true
  | used, outcome :: outcomes =>
    if recordSize ≤ used then true
    else
      match outcome with
      | .moved n => if n = 0 then false else transfer (used + n) outcomes
      | .interrupted => transfer used outcomes
      | .failed => false

/-- The outcomes of a load. -/
structure Loading where
  opened : Bool
  stated : Bool
  reads : List Transfer

def cacheMagic : Bytes := ascii "C1DESKCACHE1"

/-- `c1_desktop_load`: what it writes to the caller's record when it succeeds. -/
def load (ops : Loading) (file : Option File) : Option Data := do
  let f ← file
  let record ← f.content
  if ops.opened && ops.stated && f.regular && f.owned && f.closed && transfer 0 ops.reads &&
      record.magic.bytes == cacheMagic ++ List.replicate 4 0 && validCache widths record.data then
    some record.data
  else none

structure Saving where
  created : Bool
  writes : List Transfer
  synced : Bool
  closed : Bool
  renamed : Bool

/-- Whether the name of the temporary file fits. -/
def pathFits (pathLength : ℕ) : Bool := pathLength + 7 < 1024

def recordOf (d : Data) : Record := ⟨(CharArray.zero 16).strcpy cacheMagic, d⟩

/-- `c1_desktop_save`: whether it succeeds, and the file afterwards. -/
def save (d : Data) (pathLength : ℕ) (ops : Saving) (file : Option File) : Bool × Option File :=
  if !validCache widths d || !pathFits pathLength || !ops.created then (false, file)
  else if transfer 0 ops.writes && ops.synced && ops.closed && ops.renamed then
    (true, some ⟨true, true, true, some (recordOf d)⟩)
  else (false, file)

/-! ### The count -/

/-- `c1_desktop_new_count` -/
def newCount (current seen : Data) : ℕ :=
  if desktopPackages < current.count || desktopPackages < seen.count ||
      strcmp current.source.text seen.source.text != .eq || current.sequence < seen.sequence then 0
  else
    (current.idTexts.filter fun id => !internalPackageId id && !seen.idTexts.contains id).length

end C1auncher.Desktop.Summary
