import C1auncher.Terminal.Utf8

/-!
The character grid of a terminal: two banks of rows of cells and a cursor.
-/

namespace C1auncher.Terminal.Grid

open Terminal.Utf8

/-- A column of a row. A wide glyph takes two, the second one marked as its continuation. -/
structure Cell where
  ch : Char32
  fg : ℕ
  bg : ℕ
  wide : Bool
  bright : Bool
  bgBright : Bool
  reverse : Bool
  continuation : Bool
  combining : List Char32
  deriving DecidableEq

structure Pen where
  fg : ℕ
  bg : ℕ
  bright : Bool
  bgBright : Bool
  reverse : Bool
  deriving DecidableEq

/-- `Pen{}` -/
def Pen.default : Pen := ⟨7, 0, false, false, false⟩

def blankCell (pen : Pen) : Cell :=
  ⟨0x20, pen.fg, pen.bg, false, pen.bright, pen.bgBright, pen.reverse, false, []⟩

/-- `Cell{}` -/
def Cell.default : Cell := blankCell Pen.default

abbrev Rows := List (List Cell)

structure Screen where
  grid : Rows
  otherGrid : Rows
  cursorRow : ℤ
  cursorCol : ℤ
  otherCursorRow : ℤ
  otherCursorCol : ℤ
  rows : ℤ
  cols : ℤ
  alternate : Bool
  deriving DecidableEq

/-- `std::clamp` -/
def clamp (x lo hi : ℤ) : ℤ := if x < lo then lo else if hi < x then hi else x

/-- `grid[row][col]` -/
def cellAt (grid : Rows) (row col : ℤ) : Cell :=
  (grid.getD row.toNat []).getD col.toNat Cell.default

/-- `grid[row][col] = cell` -/
def setAt (grid : Rows) (row col : ℤ) (cell : Cell) : Rows :=
  grid.modify row.toNat fun line => line.set col.toNat cell

namespace Screen

variable (s : Screen)

def inside (row col : ℤ) : Bool := 0 ≤ row && row < s.rows && 0 ≤ col && col < s.cols

def setCell (row col : ℤ) (cell : Cell) : Screen :=
  { s with grid := setAt s.grid row col cell }

/-- Blank a cell and the other half of its glyph. -/
def eraseGlyph (row col : ℤ) (pen : Pen) : Screen :=
  if !s.inside row col then s
  else
    let old := cellAt s.grid row col
    let blank := blankCell pen
    let s := s.setCell row col blank
    let s := if old.continuation && 0 < col then s.setCell row (col - 1) blank else s
    if old.wide && col + 1 < s.cols then s.setCell row (col + 1) blank else s

/-- A glyph at a place, both its halves if it is wide. -/
def put (width : Char32 → ℤ) (ch : Char32) (row col : ℤ) (pen : Pen) : Screen :=
  if !s.inside row col then s
  else
    let wide := width ch == 2
    let s := s.eraseGlyph row col pen
    -- never leave a truncated wide glyph
    if wide && s.cols ≤ col + 1 then s
    else
      let s := if wide then s.eraseGlyph row (col + 1) pen else s
      let cell := { blankCell pen with ch := ch, wide := wide }
      let s := s.setCell row col cell
      if wide then
        s.setCell row (col + 1) { cell with ch := 0, wide := false, continuation := true }
      else s

def appendCombining (ch : Char32) (row col : ℤ) : Screen :=
  if !s.inside row col then s
  else
    let col := if (cellAt s.grid row col).continuation then col - 1 else col
    let cell := cellAt s.grid row col
    -- bound malicious runs of combining marks
    if 0 ≤ col && cell.combining.length < 32 then
      s.setCell row col { cell with combining := cell.combining ++ [ch] }
    else s

def get (row col : ℤ) : Cell := if s.inside row col then cellAt s.grid row col else Cell.default

def moveCursor (row col : ℤ) : Screen :=
  { s with cursorRow := clamp row 0 (s.rows - 1), cursorCol := clamp col 0 (s.cols - 1) }

def blankLine (pen : Pen) : List Cell := List.replicate s.cols.toNat (blankCell pen)

/-- Up by `n` lines within the margins, down by `-n` for a negative `n`. -/
def scroll (top bottom n : ℤ) (pen : Pen) : Screen :=
  let top := clamp top 0 (s.rows - 1)
  let bottom := clamp bottom 0 (s.rows - 1)
  if bottom < top ∨ n = 0 then s
  else
    let n := clamp n (-(bottom - top + 1)) (bottom - top + 1)
    let before := s.grid.take top.toNat
    let region := (s.grid.drop top.toNat).take (bottom - top + 1).toNat
    let behind := s.grid.drop (bottom + 1).toNat
    let blanks := List.replicate n.natAbs (s.blankLine pen)
    let region :=
      if 0 < n then region.drop n.natAbs ++ blanks
      else blanks ++ region.take (region.length - n.natAbs)
    { s with grid := before ++ region ++ behind }

def clear : Screen :=
  { s with grid := s.grid.map fun line => line.map fun _ => Cell.default }

/-- The columns from `first` to `last`, as far as they are there. -/
def eraseCells (row first last : ℤ) (pen : Pen) : Screen :=
  if row < 0 ∨ s.rows ≤ row then s
  else
    let first := max 0 first
    let last := min last (s.cols - 1)
    (List.range (last - first + 1).toNat).foldl (fun s i => s.eraseGlyph row (first + i) pen) s

def eraseLine (mode : ℤ) (pen : Pen) : Screen :=
  if mode < 0 ∨ 2 < mode then s
  else
    s.eraseCells s.cursorRow (if mode = 0 then s.cursorCol else 0)
      (if mode = 1 then s.cursorCol else s.cols - 1) pen

/-- What `erase_display` erases of one row. -/
def eraseRow (mode r : ℤ) (pen : Pen) : Screen :=
  if (mode = 0 ∧ r < s.cursorRow) ∨ (mode = 1 ∧ s.cursorRow < r) then s
  else
    s.eraseCells r (if mode = 0 ∧ r = s.cursorRow then s.cursorCol else 0)
      (if mode = 1 ∧ r = s.cursorRow then s.cursorCol else s.cols - 1) pen

def eraseDisplay (mode : ℤ) (pen : Pen) : Screen :=
  if mode = 3 then s
  else
    let mode := if mode = 5 then 2 else mode
    if mode < 0 ∨ 2 < mode then s
    else (List.range s.rows.toNat).foldl (fun s r => s.eraseRow mode r pen) s

end Screen

/-- `std::vector::resize` -/
def resized {α : Type} (xs : List α) (n : ℕ) (x : α) : List α :=
  xs.take n ++ List.replicate (n - xs.length) x

/-- The loop of `repair_row` over the columns; one half of a glyph alone becomes a blank. -/
def repairRow (row : List Cell) : List Cell :=
  (List.range row.length).foldl (fun row c =>
    let row :=
      if (row.getD c Cell.default).wide &&
          (c + 1 == row.length || !(row.getD (c + 1) Cell.default).continuation) then
        row.set c Cell.default
      else row
    if (row.getD c Cell.default).continuation &&
        (c == 0 || !(row.getD (c - 1) Cell.default).wide) then
      row.set c Cell.default
    else row) row

namespace Screen

variable (s : Screen)

def shiftCells (row col count : ℤ) (insert : Bool) (pen : Pen) : Screen :=
  if !s.inside row col then s
  else
    let count := (clamp count 0 (s.cols - col)).toNat
    let s := if (cellAt s.grid row col).continuation then s.eraseGlyph row col pen else s
    let line := s.grid.getD row.toNat []
    let before := line.take col.toNat
    let rest := line.drop col.toNat
    let blanks := List.replicate count (blankCell pen)
    let shifted :=
      if insert then before ++ blanks ++ rest.take (rest.length - count)
      else before ++ rest.drop count ++ blanks
    { s with grid := s.grid.set row.toNat (repairRow shifted) }

def switchAlternate (enabled clearOnEnter : Bool) : Screen :=
  if enabled = s.alternate then s
  else
    let other :=
      if s.otherGrid = [] then
        List.replicate s.rows.toNat (List.replicate s.cols.toNat Cell.default)
      else s.otherGrid
    let s : Screen :=
      ⟨other, s.grid, s.otherCursorRow, s.otherCursorCol, s.cursorRow, s.cursorCol, s.rows, s.cols,
        enabled⟩
    if enabled && clearOnEnter then s.clear.moveCursor 0 0 else s

def resizeGrid (grid : Rows) (rows cols : ℤ) : Rows :=
  (resized grid rows.toNat []).map fun line => repairRow (resized line cols.toNat Cell.default)

def resize (rows cols : ℤ) : Screen :=
  let rows := if rows ≤ 0 then 24 else min rows 1000
  let cols := if cols ≤ 0 then 80 else min cols 1000
  let s : Screen :=
    { s with
      grid := resizeGrid s.grid rows cols
      otherGrid := if s.otherGrid = [] then [] else resizeGrid s.otherGrid rows cols
      rows := rows
      cols := cols }
  let s := s.moveCursor s.cursorRow s.cursorCol
  { s with
    otherCursorRow := clamp s.otherCursorRow 0 (s.rows - 1)
    otherCursorCol := clamp s.otherCursorCol 0 (s.cols - 1) }

/-- `Screen(rows, cols)` -/
def init (rows cols : ℤ) : Screen := resize ⟨[], [], 0, 0, 0, 0, 0, 0, false⟩ rows cols

end Screen

end C1auncher.Terminal.Grid
