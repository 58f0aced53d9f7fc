import C1auncher.BookReader.Outline
import C1auncher.Lines
import C1auncher.Runes

/-!
The scan of a text for its chapters: its encoding, and one pass over the pieces that a buffered
reader hands out.
-/

namespace C1auncher.BookReader.ChapterScan

open CString Utf8Bytes Runes BookReader.Titles BookReader.Outline

inductive Encoding
  | utf8
  | gb18030
  | utf16le
  | utf16be
deriving DecidableEq

def Encoding.name : Encoding → Text
  | .utf8 => ['u', 't', 'f', '-', '8']
  | .gb18030 => ['g', 'b', '1', '8', '0', '3', '0']
  | .utf16le => ['u', 't', 'f', '-', '1', '6', 'l', 'e']
  | .utf16be => ['u', 't', 'f', '-', '1', '6', 'b', 'e']

inductive Refused
  | utf32
  | invalidMarked
  | nulBytes
  | truncatedUnit
  | tooLarge
  | decodeLine (start : Int64)
  | readError
deriving DecidableEq

def byteOrderMark : Bytes := [0xef, 0xbb, 0xbf]

/-- One character after the other, up to the first that settles it. -/
def detectRunes (bom : ℕ) : List (Option Char) → Except Refused (Encoding × ℕ)
  | [] => .ok (.utf8, bom)
  | none :: _ => if 0 < bom then .error .invalidMarked else .ok (.gb18030, 0)
  | some c :: more => if c.toNat = 0 then .error .nulBytes else detectRunes bom more

def detectEncoding (content : Bytes) : Except Refused (Encoding × ℕ) :=
  if content.take 4 = [0xff, 0xfe, 0, 0] || content.take 4 = [0, 0, 0xfe, 0xff] then .error .utf32
  else if content.take 2 = [0xff, 0xfe] then .ok (.utf16le, 2)
  else if content.take 2 = [0xfe, 0xff] then .ok (.utf16be, 2)
  else if content.take 3 = byteOrderMark then detectRunes 3 (runes (content.drop 3))
  else detectRunes 0 (runes content)

def newline : UInt8 := 10

def carriageReturn : UInt8 := 13

def trimSuffix (byte : UInt8) (raw : Bytes) : Bytes :=
  if raw.getLast? = some byte then raw.dropLast else raw

/-- A line without its end. Text that is not UTF-8 goes to the GB18030 decoder. -/
def decodeBytes (gb18030 : Bytes → Option Text) (raw : Bytes) : Encoding → Option Text
  | .utf8 => text? (trimSuffix carriageReturn (trimSuffix newline raw))
  | _ => gb18030 (trimSuffix carriageReturn (trimSuffix newline raw))

/-- What the buffered reader hands out: bytes up to the end of a line, or a full buffer. -/
inductive Fragment
  | full (bytes : Bytes)
  | line (bytes : Bytes)

/-- All that is handed out, the last piece with the end of the file or with an error. -/
structure Reading where
  fragments : List Fragment
  last : Bytes
  failed : Bool

def Fragment.bytes : Fragment → Bytes
  | .full bytes => bytes
  | .line bytes => bytes

/-- A full buffer holds no end of a line, and the end of a line is the last byte of a piece. -/
def Fragment.WellFormed : Fragment → Prop
  | .full bytes => newline ∉ bytes
  | .line bytes => ∃ line, newline ∉ line ∧ bytes = line ++ [newline]

/-- All of a text, however the reader splits it. -/
structure Reads (content : Bytes) (reading : Reading) : Prop where
  whole : reading.fragments.flatMap Fragment.bytes ++ reading.last = content
  wellFormed : ∀ fragment ∈ reading.fragments, fragment.WellFormed
  last : newline ∉ reading.last
  complete : reading.failed = false

/-- The sections so far and the line that is read; a line that is too long for a title is dropped. -/
structure Scan where
  chapters : List Chapter
  lineStart : Int64
  offset : Int64
  preambleHasBody : Bool
  line : Option Bytes

def Scan.init : Scan := ⟨[], 0, 0, false, some []⟩

def maxTitleLineBytes : ℕ := 256 * 2 ^ 10

def Scan.read (s : Scan) (fragment : Bytes) : Scan :=
  { s with
    offset := s.offset + Int64.ofNat fragment.length
    line := s.line.bind fun line =>
      if line.length + fragment.length ≤ maxTitleLineBytes then some (line ++ fragment) else none }

def Scan.body (s : Scan) : Scan :=
  if s.chapters = [] then { s with preambleHasBody := true }
  else { s with chapters := s.chapters.modifyLast fun c => { c with hasBody := true } }

def Scan.heading (s : Scan) (size bom titleStart : Int64) (title : Text) : Scan :=
  let chapters := if s.chapters = [] && bom < titleStart
    then [⟨['开', '始'], bom, titleStart, s.preambleHasBody⟩] else s.chapters
  let chapters := chapters.modifyLast fun c => { c with end_ := titleStart }
  { s with chapters := chapters ++ [⟨normalizedChapterTitle title, titleStart, size, false⟩] }

/-- What a line says: a heading begins a section, any other text is the body of one. -/
def Scan.settle (s : Scan) (size bom titleStart : Int64) (text : Text) : Scan :=
  let title := trimSpace text
  if isChapterTitle title then s.heading size bom titleStart title
  else if meaningfulBodyLine title then s.body
  else s

section

variable (gb18030 : Bytes → Option Text) (encoding : Encoding) (size : Int64) (bom : ℕ)

/-- The end of a line. The mark of the text is not part of its first line. -/
def Scan.endLine (s : Scan) : Except Refused Scan := do
  let next ← match s.line with
    | none => pure s.body
    | some [] => pure s
    | some line =>
      let marked := s.lineStart == 0 && 0 < bom && bom ≤ line.length
      let content := if marked then line.drop bom else line
      let titleStart := if marked then s.lineStart + Int64.ofNat bom else s.lineStart
      match decodeBytes gb18030 content encoding with
      | none => throw (.decodeLine titleStart)
      | some text => pure (s.settle size (Int64.ofNat bom) titleStart text)
  pure { next with lineStart := s.offset, line := some [] }

def Scan.run (s : Scan) : List Fragment → Except Refused Scan
  | [] => pure s
  | .full bytes :: more => (s.read bytes).run more
  | .line bytes :: more => do
    let s ← (s.read bytes).endLine gb18030 encoding size bom
    s.run more

/-- Without a heading the whole text is one section. -/
def Scan.finish (s : Scan) : List Chapter :=
  if s.chapters = [] then [⟨['正', '文'], Int64.ofNat bom, size, s.preambleHasBody⟩]
  else s.chapters.modifyLast fun c => { c with end_ := size }

def scanChapters (reading : Reading) : Except Refused (List Chapter) := do
  let s ← Scan.init.run gb18030 encoding size bom reading.fragments
  let s ← (s.read reading.last).endLine gb18030 encoding size bom
  if reading.failed then throw .readError
  pure (s.finish size bom)

end

/-! ### The text that is scanned -/

/-- The text whose lines are scanned: the file itself, or its normalized copy. -/
structure Source where
  content : Bytes
  encoding : Encoding
  bom : ℕ
  normalized : Bool

def maxNormalizedTextBytes : ℕ := 256 * 2 ^ 20

/-- UTF-16 is scanned in a private UTF-8 copy, which has no mark. -/
def openSource (utf16 : Encoding → Bytes → Text) (content : Bytes) : Except Refused Source := do
  let (encoding, bom) ← detectEncoding content
  if encoding = .utf16le || encoding = .utf16be then
    if (content.length - bom) % 2 ≠ 0 then throw .truncatedUnit
    let copy := encode (utf16 encoding (content.drop bom))
    if maxNormalizedTextBytes < copy.length then throw .tooLarge
    pure ⟨copy, .utf8, 0, true⟩
  else pure ⟨content, encoding, bom, false⟩

end C1auncher.BookReader.ChapterScan
