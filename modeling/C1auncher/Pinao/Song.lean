import C1auncher.Json

/-!
A song: pages of sixteen cells of notes and drums, and the ties between them.
-/

namespace C1auncher.Pinao.Song

open CString Json

/-- Eight beats, quantized to eighth notes. -/
def steps : ℕ := 16

def maxPages : ℕ := 64

def voiceCount : ℕ := 8

structure Hit where
  midi : Int64
  tone : ℤ
  drum : ℤ
  /-- Continues the same pitch and tone from the cell before. -/
  tie : Bool
  deriving DecidableEq

abbrev Cell := Option (List Hit)

def hits (cell : Cell) : List Hit := cell.getD []

abbrev Page := Fin 16 → Cell

/-- `[steps][]Hit{}` -/
def blankPage : Page := fun _ => none

structure Song where
  format : ℤ
  bpm : ℤ
  octave : ℤ
  tone : ℤ
  volume : ℤ
  /-- The first page. -/
  pattern : Page
  /-- The other pages, in playback order. -/
  pages : List Page
  deriving DecidableEq

def sameNote (a b : Hit) : Bool :=
  a.drum == 0 && b.drum == 0 && a.midi == b.midi && a.tone == b.tone

/-- `none` for -1 -/
def noteIndex (notes : List Hit) (h : Hit) : Option ℕ := notes.findIdx? fun n => sameNote n h

/-- The texts of the errors. -/
inductive Invalid
  | settings
  | tooMany
  | tie
  | note
  deriving DecidableEq

def Invalid.text : Invalid → String
  | .settings => "invalid song settings"
  | .tooMany => "too many notes in a step"
  | .tie => "invalid tie"
  | .note => "invalid note"

namespace Song

variable (s : Song)

def pageCount : ℕ := 1 + s.pages.length

def patternAt (page : ℕ) : Page := if page = 0 then s.pattern else s.pages.getD (page - 1) blankPage

/-- `*s.patternAt(page) = pattern` -/
def setPattern (page : ℕ) (pattern : Page) : Song :=
  if page = 0 then { s with pattern := pattern }
  else { s with pages := s.pages.set (page - 1) pattern }

def cell (position : ℕ) : Cell :=
  s.patternAt (position / 16) ⟨position % 16, Nat.mod_lt _ (by decide)⟩

/-- `s.cell(position) = cell` -/
def setCell (position : ℕ) (cell : Cell) : Song :=
  s.setPattern (position / 16)
    (Function.update (s.patternAt (position / 16)) ⟨position % 16, Nat.mod_lt _ (by decide)⟩ cell)

/-! ### What is a song -/

/-- A tie that continues nothing becomes an attack. -/
def repairCell (position : ℕ) : Song :=
  match s.cell position with
  | none => s
  | some notes => s.setCell position (some (notes.map fun h =>
      if h.tie ∧ (position = 0 ∨ noteIndex (hits (s.cell (position - 1))) h = none) then
        { h with tie := false }
      else h))

def repairTies : Song := (List.range (s.pageCount * steps)).foldl repairCell s

/-! ### The text of a song -/

/-- An integer as `encoding/json` writes it. -/
def jsonInt (n : ℤ) : Json :=
  .number (if n < 0 then '-' :: Nat.toDigits 10 n.natAbs else Nat.toDigits 10 n.natAbs)

def jsonHit (h : Hit) : Json :=
  .object ([("midi".toList, jsonInt h.midi.toInt), ("tone".toList, jsonInt h.tone),
    ("drum".toList, jsonInt h.drum)] ++ if h.tie then [("tie".toList, .bool true)] else [])

def jsonCell : Cell → Json
  | none => .null
  | some notes => .array (notes.map jsonHit)

def jsonPage (page : Page) : Json := .array (List.ofFn fun i => jsonCell (page i))

def json : Json :=
  .object ([("format".toList, jsonInt s.format), ("bpm".toList, jsonInt s.bpm),
    ("octave".toList, jsonInt s.octave), ("tone".toList, jsonInt s.tone),
    ("volume".toList, jsonInt s.volume), ("pattern".toList, jsonPage s.pattern)] ++
      if s.pages = [] then [] else [("pages".toList, .array (s.pages.map jsonPage))])

end Song

end C1auncher.Pinao.Song
