import C1auncher.BookReader.VolumeNumber

/-!
The outline of a book: its volumes, the chapters they own, and which sections can be read.
-/

namespace C1auncher.BookReader.Outline

open CString Runs BookReader.Titles BookReader.VolumeNumber

/-- A section of the text; without a body it is a heading only. -/
structure Chapter where
  title : Text
  start : Int64
  end_ : Int64
  hasBody : Bool
deriving DecidableEq

structure Document where
  size : Int64
  chapters : List Chapter

/-- Of the characters behind a number the blanks and the mark are dropped. -/
def labelBlank (c : Char) : Bool := [' ', '：', ':', '\t', '　'].contains c

def behindNumber (title : Text) : Text :=
  match capture ending numberedVolumePattern title with
  | some (_, rest) => rest
  | none =>
    match capture ending reverseNumberedVolumePattern title with
    | some (_, rest) => rest
    | none => []

def normalizedVolumeTitle (title : Text) : Text :=
  let title := trimSpace title
  let title :=
    match volumeNumber title with
    | some (number, unit) =>
      unit ++ Nat.toDigits 10 number ++ ':' :: (behindNumber title).dropWhile labelBlank
    | none => title
  (title.filter fun c => !isSpace c).map fun c => if c = '：' then ':' else c

/-- An entry of the outline: the volume that owns it, its number in the book, and of a volume the
chapters it owns. -/
structure OutlineEntry where
  volume : Bool
  parent : Option ℕ
  chapterNo : ℕ
  chapterCount : ℕ
deriving DecidableEq

structure ChapterOutline where
  grouped : Bool
  entries : List OutlineEntry
  volumes : ℕ
  chapters : ℕ

/-- The outline so far, and the volume whose chapters come next. -/
structure Building where
  outline : ChapterOutline
  parent : Option ℕ

def Building.init : Building := ⟨⟨false, [], 0, 0⟩, none⟩

def Building.append (b : Building) (entry : OutlineEntry) : Building :=
  { b with outline := { b.outline with entries := b.outline.entries ++ [entry] } }

/-- A heading that begins a volume. -/
def Building.root (b : Building) : Building where
  outline :=
    { b.outline with
      entries := b.outline.entries ++ [⟨true, none, 0, 0⟩]
      volumes := b.outline.volumes + 1 }
  parent := some b.outline.entries.length

/-- A chapter with a number, which its volume counts. -/
def Building.numbered (b : Building) : Building :=
  let number := b.outline.chapters + 1
  let entries :=
    match b.parent with
    | none => b.outline.entries
    | some p => b.outline.entries.modify p fun e => { e with chapterCount := e.chapterCount + 1 }
  { b with
    outline :=
      { b.outline with entries := entries ++ [⟨false, b.parent, number, 0⟩], chapters := number } }

def introduction (title : Text) : Bool := title == ['开', '始'] || title == ['正', '文']

/-- Repeated headings of a volume are grouped together. -/
def Building.repeated (chapters : List Chapter) (b : Building) (title : Text) : Bool :=
  match b.parent.bind (chapters[·]?) with
  | none => false
  | some root => normalizedVolumeTitle title == normalizedVolumeTitle root.title

def Building.add (chapters : List Chapter) (b : Building) (chapter : Chapter) : Building :=
  if isVolumeTitle chapter.title then
    if b.repeated chapters chapter.title then b.append ⟨true, b.parent, 0, 0⟩ else b.root
  else if introduction chapter.title then b.append ⟨false, b.parent, 0, 0⟩
  else b.numbered

/-- Do the volumes carry the numbers 1, 2, ... with one unit? -/
def sequenceValid (last : ℕ) (kind : Text) : List (OutlineEntry × Chapter) → Bool
  | [] => true
  | (entry, chapter) :: rest =>
    if !entry.volume then sequenceValid last kind rest
    else
      match volumeNumber chapter.title with
      | none => false
      | some (number, unit) =>
        if entry.parent.isSome then sequenceValid last kind rest
        else if number ≠ last + 1 || (kind ≠ [] && unit ≠ kind) then false
        else sequenceValid number unit rest

/-- Without a proven sequence nothing is owned; sections and numbers stay. -/
def ChapterOutline.validateVolumeSequence (outline : ChapterOutline) (chapters : List Chapter) :
    ChapterOutline :=
  if 0 < outline.volumes && sequenceValid 0 [] (outline.entries.zip chapters) then
    { outline with grouped := true }
  else
    { outline with
      grouped := false
      volumes := 0
      entries := outline.entries.map fun e => { e with parent := none, chapterCount := 0 } }

def Document.chapterOutline (document : Document) : ChapterOutline :=
  let built := document.chapters.foldl (Building.add document.chapters) Building.init
  built.outline.validateVolumeSequence document.chapters

/-- A heading without a body: there is nothing to read. -/
def Document.headingOnly (document : Document) (index : ℕ) : Bool :=
  match document.chapters[index]?, document.chapterOutline.entries[index]? with
  | some chapter, some entry =>
    !chapter.hasBody && (entry.volume || chapter.title == ['开', '始'])
  | _, _ => false

/-- A section that can be read. -/
def Readable (document : Document) (index : ℕ) : Prop :=
  index < document.chapters.length ∧ document.headingOnly index = false

inductive Direction
  | forward
  | back

/-- The sections that are tried, one after the other, from an index on. -/
def candidates (count index : ℕ) : Direction → List ℕ
  | .forward => List.range' index (count - index)
  | .back => if index < count then (List.range (index + 1)).map (index - ·) else []

/-- The first section that can be read, from an index on. -/
def Document.readableChapter (document : Document) (index : ℕ) (direction : Direction) :
    Option ℕ :=
  (candidates document.chapters.length index direction).find? fun i => !document.headingOnly i

/-- Where a place in a section is read: heading-only sections open the next readable one, or the
one before at the end of the book. -/
def Document.readingTarget (document : Document) (index : ℕ) (offset : Int64) :
    Option (ℕ × Int64) :=
  if index < document.chapters.length then
    match document.readableChapter index .forward with
    | some target =>
      if target = index then some (target, offset)
      else (document.chapters[target]?).map fun chapter => (target, chapter.start)
    | none =>
      match document.readableChapter index .back with
      | some target =>
        (document.chapters[target]?).map fun chapter =>
          if chapter.start < chapter.end_ then (target, chapter.end_ - 1)
          else (target, chapter.start)
      | none => none
  else none

/-- The check of an index that was saved: the sections follow one another from the byte order mark
to the end of the text. -/
def sectionsFollow (size : Int64) : Int64 → List Chapter → Bool
  | previousEnd, [] => previousEnd == size
  | previousEnd, chapter :: rest =>
    if chapter.start < 0 || chapter.end_ < chapter.start || size < chapter.end_ ||
      chapter.start != previousEnd then false
    else sectionsFollow size chapter.end_ rest

def validChapterIndex (chapters : List Chapter) (size : Int64) : Bool :=
  match chapters with
  | [] => false
  | first :: _ =>
    if first.start != 0 && first.start != 3 then false
    else sectionsFollow size first.start chapters

end C1auncher.BookReader.Outline
