import C1auncher.Terminal.Framer
import C1auncher.Terminal.Grid

/-!
The parser of the child's output: framed tokens are executed on the grid.

How many columns a character takes is a parameter.
-/

namespace C1auncher.Terminal.Parser

open Terminal.Utf8 Terminal.Framer Terminal.Grid

inductive State
  | normal
  | escape
  | escapeIntermediate
  | csi
  | osc
  | oscEsc
  deriving DecidableEq

structure SavedCursor where
  row : ℤ
  col : ℤ
  pen : Pen
  wrap : Bool
  deriving DecidableEq

/-- `kForwardedPrivateModes` -/
def forwardedPrivateModes : List ℤ := [1, 9, 25, 1000, 1002, 1003, 1004, 1005, 1006, 1015, 1016,
  2004]

/-- `-1` for the bottom margin stands for the last row. -/
structure Parser where
  screen : Screen
  stream : OutputStream
  state : State
  csiParams : Bytes
  csiPrefix : UInt8
  csiIntermediate : Bool
  oscBel : Bool
  pen : Pen
  wrapPending : Bool
  autowrap : Bool
  originMode : Bool
  top : ℤ
  bottom : ℤ
  savedMain : SavedCursor
  savedAlternate : SavedCursor
  mainPen : Pen
  mainWrap : Bool
  mainTop : ℤ
  mainBottom : ℤ
  mainOrigin : Bool
  privateModes : List Bool
  deriving DecidableEq

/-! ### Numbers -/

/-- `std::from_chars` of a whole field into an `int`: digits after a sign. -/
def parseParam (field : Bytes) (default : ℤ) : ℤ :=
  let digits := field.all fun b => 0x30 ≤ b && b ≤ 0x39
  if field = [] ∨ !digits then default
  else
    let v := field.foldl (fun n b => 10 * n + (b.toNat - 0x30 : ℤ)) 0
    if 0x7fffffff < v then default else min v 1000000

/-- Semicolons separate the parameters; an empty one is zero. -/
def params (text : Bytes) (default : ℤ) : List ℤ :=
  (text.splitOn 0x3b).map fun field => if field = [] then 0 else parseParam field default

namespace Parser

variable (p : Parser)

/-! ### Modes, margins and cursors -/

def resetModes : List Bool := forwardedPrivateModes.map (· == 25)

/-- `Parser(screen)` -/
def init (screen : Screen) : Parser where
  screen := screen
  stream := .init
  state := .normal
  csiParams := []
  csiPrefix := 0
  csiIntermediate := false
  oscBel := false
  pen := Pen.default
  wrapPending := false
  autowrap := true
  originMode := false
  top := 0
  bottom := -1
  savedMain := ⟨0, 0, Pen.default, false⟩
  savedAlternate := ⟨0, 0, Pen.default, false⟩
  mainPen := Pen.default
  mainWrap := false
  mainTop := 0
  mainBottom := -1
  mainOrigin := false
  privateModes := resetModes

def privateMode (mode : ℤ) : Bool :=
  match forwardedPrivateModes.idxOf? mode with
  | some i => p.privateModes.getD i false
  | none => false

def scrollTop : ℤ := clamp p.top 0 (p.screen.rows - 1)

def scrollBottom : ℤ :=
  if p.bottom < 0 then p.screen.rows - 1 else clamp p.bottom p.scrollTop (p.screen.rows - 1)

def moveCursor (row col : ℤ) : Parser := { p with screen := p.screen.moveCursor row col }

/-- The row below, behind a scroll at the bottom margin. -/
def nextRow (row : ℤ) : Parser × ℤ :=
  if row = p.scrollBottom then
    ({ p with screen := p.screen.scroll p.scrollTop p.scrollBottom 1 p.pen }, row)
  else (p, min (row + 1) (p.screen.rows - 1))

def place (width : Char32 → ℤ) (ch : Char32) (row col : ℤ) : Parser :=
  let p := { p with screen := p.screen.put width ch row col p.pen }
  let col := col + width ch
  if p.screen.cols ≤ col then
    { p with wrapPending := p.autowrap }.moveCursor row (p.screen.cols - 1)
  else p.moveCursor row col

def emitChar (width : Char32 → ℤ) (ch : Char32) : Parser :=
  let w := width ch
  let row := p.screen.cursorRow
  let col := p.screen.cursorCol
  if w ≤ 0 then
    if 0 < col ∨ p.wrapPending then
      { p with screen := p.screen.appendCombining ch row (if p.wrapPending then col else col - 1) }
    else p
  else
    let (p, row, col) :=
      if p.wrapPending && p.autowrap then ((p.nextRow row).1, (p.nextRow row).2, 0)
      else (p, row, col)
    let p := { p with wrapPending := false }
    if p.screen.cols < col + w then
      if !p.autowrap || p.screen.cols < w then p
      else (p.nextRow row).1.place width ch (p.nextRow row).2 0
    else p.place width ch row col

def saveCursor : Parser :=
  let saved := ⟨p.screen.cursorRow, p.screen.cursorCol, p.pen, p.wrapPending⟩
  if p.screen.alternate then { p with savedAlternate := saved } else { p with savedMain := saved }

def restoreCursor : Parser :=
  let saved := if p.screen.alternate then p.savedAlternate else p.savedMain
  { p.moveCursor saved.row saved.col with pen := saved.pen, wrapPending := saved.wrap }

def mouseTracking (mode : ℤ) : Bool :=
  mode == 9 || mode == 1000 || mode == 1002 || mode == 1003

/-- Mouse tracking is one selection, not four switches. -/
def setForwarded (mode : ℤ) (enabled : Bool) : List Bool :=
  let modes :=
    if enabled && mouseTracking mode then
      (forwardedPrivateModes.zip p.privateModes).map fun (m, on) => if mouseTracking m then false
        else on
    else p.privateModes
  match forwardedPrivateModes.idxOf? mode with
  | some i => modes.set i enabled
  | none => modes

def enterAlternate (clear : Bool) : Parser :=
  { p with
    mainPen := p.pen
    mainWrap := p.wrapPending
    mainTop := p.top
    mainBottom := p.bottom
    mainOrigin := p.originMode
    screen := p.screen.switchAlternate true clear
    top := 0
    bottom := -1
    originMode := false
    wrapPending := false }

def leaveAlternate : Parser :=
  { p with
    screen := p.screen.switchAlternate false true
    pen := p.mainPen
    wrapPending := p.mainWrap
    top := p.mainTop
    bottom := p.mainBottom
    originMode := p.mainOrigin }

def setPrivateMode (mode : ℤ) (enabled : Bool) : Parser :=
  if mode ∈ forwardedPrivateModes then { p with privateModes := p.setForwarded mode enabled }
  else if mode = 7 then { p with autowrap := enabled, wrapPending := false }
  else if mode = 6 then
    { p with originMode := enabled, wrapPending := false }.moveCursor
      (if enabled then p.scrollTop else 0) 0
  else if mode = 1048 then (if enabled then p.saveCursor else p.restoreCursor)
  else if mode = 47 ∨ mode = 1047 ∨ mode = 1049 then
    if enabled = p.screen.alternate then p
    else if enabled then p.enterAlternate (mode ≠ 47)
    else p.leaveAlternate
  else p

/-! ### Control sequences -/

/-- How many parameters a colour selection takes besides its first. -/
def colourArgs : List ℤ → ℕ
  | 2 :: _ => 4
  | 5 :: _ => 2
  | _ => 1

def applySgrParam (pen : Pen) (n : ℤ) : Pen :=
  if n = 0 then Pen.default
  else if n = 1 then { pen with bright := true }
  else if n = 22 then { pen with bright := false }
  else if n = 5 then { pen with bgBright := true }
  else if n = 25 then { pen with bgBright := false }
  else if n = 7 then { pen with reverse := true }
  else if n = 27 then { pen with reverse := false }
  else if n = 39 then { pen with fg := 7, bright := false }
  else if n = 49 then { pen with bg := 0, bgBright := false }
  else if 30 ≤ n ∧ n ≤ 37 then { pen with fg := (n - 30).toNat, bright := false }
  else if 90 ≤ n ∧ n ≤ 97 then { pen with fg := (n - 90).toNat, bright := true }
  else if 40 ≤ n ∧ n ≤ 47 then { pen with bg := (n - 40).toNat, bgBright := false }
  else if 100 ≤ n ∧ n ≤ 107 then { pen with bg := (n - 100).toNat, bgBright := true }
  else pen

/-- The loop over the parameters of a rendition; `skip` counts those of a colour. -/
def sgrLoop : ℕ → List ℤ → Pen → Pen
  | _, [], pen => pen
  | skip + 1, _ :: args, pen => sgrLoop skip args pen
  | 0, n :: args, pen =>
    if n = 38 ∨ n = 48 then sgrLoop (colourArgs args) args pen
    else sgrLoop 0 args (applySgrParam pen n)

def applySgr : Parser :=
  let args := if p.csiParams = [] then [0] else params p.csiParams (-1)
  { p with pen := sgrLoop 0 args p.pen }

/-- A parameter, with its default where it is absent or zero. -/
def arg (args : List ℤ) (i : ℕ) (default : ℤ) : ℤ :=
  if args.getD i 0 ≠ 0 then args.getD i 0 else default

/-- Move the cursor, within the margins in origin mode. -/
def move (row col : ℤ) : Parser :=
  let row := if p.originMode then clamp row p.scrollTop p.scrollBottom else row
  { p with wrapPending := false }.moveCursor row col

def setMargins (top bottom : ℤ) : Parser :=
  if 0 ≤ top ∧ top < bottom ∧ bottom < p.screen.rows then
    let p := { p with top := top, bottom := if bottom = p.screen.rows - 1 then -1 else bottom }
    p.move (if p.originMode then top else 0) 0
  else p

def onScreen (f : Screen → Screen) : Parser := { p with screen := f p.screen }

/-- The command of a CSI sequence without prefix and intermediates. -/
def csiCommand (c : Char) (args : List ℤ) : Parser :=
  let n := arg args 0 1
  let row := p.screen.cursorRow
  let col := p.screen.cursorCol
  let home := if p.originMode then p.scrollTop else 0
  match c with
  | 'H' | 'f' => p.move (arg args 0 1 - 1 + home) (arg args 1 1 - 1)
  | 'A' => p.move (row - n) col
  | 'B' | 'e' => p.move (row + n) col
  | 'C' | 'a' => p.move row (col + n)
  | 'D' => p.move row (col - n)
  | 'E' => p.move (row + n) 0
  | 'F' => p.move (row - n) 0
  | 'G' | '\x60' => p.move row (n - 1)
  | 'd' => p.move (n - 1 + home) col
  | 'I' => p.move row ((col / 8 + n) * 8)
  | 'Z' => p.move row ((max (col - 1) 0 / 8 - n + 1) * 8)
  | 'J' => p.onScreen fun s => s.eraseDisplay (args.getD 0 0) p.pen
  | 'K' => p.onScreen fun s => s.eraseLine (args.getD 0 0) p.pen
  | 'X' => p.onScreen fun s => s.eraseCells row col (col + n - 1) p.pen
  | '@' => p.onScreen fun s => s.shiftCells row col n true p.pen
  | 'P' => p.onScreen fun s => s.shiftCells row col n false p.pen
  | 'S' => p.onScreen fun s => s.scroll p.scrollTop p.scrollBottom n p.pen
  | 'T' => p.onScreen fun s => s.scroll p.scrollTop p.scrollBottom (-n) p.pen
  | 'L' =>
    if p.scrollTop ≤ row ∧ row ≤ p.scrollBottom then
      p.onScreen fun s => s.scroll row p.scrollBottom (-n) p.pen
    else p
  | 'M' =>
    if p.scrollTop ≤ row ∧ row ≤ p.scrollBottom then
      p.onScreen fun s => s.scroll row p.scrollBottom n p.pen
    else p
  | 'r' => p.setMargins (arg args 0 1 - 1) (arg args 1 p.screen.rows - 1)
  | 's' => p.saveCursor
  | 'u' => p.restoreCursor
  | 'm' => p.applySgr
  | _ => p

/-- A CSI sequence with a prefix; only private modes are known. -/
def csiPrivate (c : Char) (args : List ℤ) : Parser :=
  if p.csiPrefix = 0x3f ∧ (c = 'h' ∨ c = 'l') then
    args.foldl (fun p mode => p.setPrivateMode mode (c = 'h')) p
  else p

def handleCsi (byte : UInt8) : Parser :=
  if 0x30 ≤ byte ∧ byte ≤ 0x3f then
    if byte ≤ 0x39 ∨ byte = 0x3b then { p with csiParams := p.csiParams ++ [byte] }
    else { p with csiPrefix := byte }
  else if 0x20 ≤ byte ∧ byte ≤ 0x2f then { p with csiIntermediate := true }
  else if byte < 0x40 ∨ 0x7e < byte then p
  else
    let p := { p with state := .normal }
    if p.csiIntermediate then p
    else
      let args := params p.csiParams 0
      let c := Char.ofNat byte.toNat
      if p.csiPrefix ≠ 0 then p.csiPrivate c args else p.csiCommand c args

/-- `ESC c` -/
def hardReset : Parser :=
  { p with
    screen := ((p.screen.switchAlternate false true).clear).moveCursor 0 0
    pen := Pen.default
    wrapPending := false
    originMode := false
    autowrap := true
    privateModes := resetModes
    top := 0
    bottom := -1 }

/-- Down one row, at the same column or at the first. -/
def lineFeed (col : ℤ) : Parser :=
  let p := { p with wrapPending := false }
  let (q, row) := p.nextRow p.screen.cursorRow
  q.moveCursor row col

def reverseIndex : Parser :=
  let p := { p with wrapPending := false }
  if p.screen.cursorRow = p.scrollTop then
    p.onScreen fun s => s.scroll p.scrollTop p.scrollBottom (-1) p.pen
  else p.moveCursor (p.screen.cursorRow - 1) p.screen.cursorCol

def handleNormal (width : Char32 → ℤ) (c : UInt8) : Parser :=
  let row := p.screen.cursorRow
  let col := p.screen.cursorCol
  if c = 0x1b then { p with state := .escape }
  else if c = 0x0d then { p with wrapPending := false }.moveCursor row 0
  else if c = 0x0a ∨ c = 0x0b ∨ c = 0x0c then p.lineFeed col
  else if c = 0x08 then { p with wrapPending := false }.moveCursor row (col - 1)
  else if c = 0x09 then { p with wrapPending := false }.moveCursor row ((col / 8 + 1) * 8)
  else if 0x20 ≤ c ∧ c ≠ 0x7f then p.emitChar width c.toNat
  else p

def handleEscape (c : UInt8) : Parser :=
  let p := { p with state := .normal }
  if c = 0x5b then
    { p with state := .csi, csiParams := [], csiPrefix := 0, csiIntermediate := false }
  else if c = 0x5d ∨ c = 0x50 ∨ c = 0x58 ∨ c = 0x5e ∨ c = 0x5f then
    { p with state := .osc, oscBel := c == 0x5d }
  else if 0x20 ≤ c ∧ c ≤ 0x2f then { p with state := .escapeIntermediate }
  else if c = 0x37 then p.saveCursor
  else if c = 0x38 then p.restoreCursor
  else if c = 0x44 then p.lineFeed p.screen.cursorCol
  else if c = 0x45 then p.lineFeed 0
  else if c = 0x4d then p.reverseIndex
  else if c = 0x63 then p.hardReset
  else p

def handleChar (width : Char32 → ℤ) (c : UInt8) : Parser :=
  match p.state with
  | .normal => p.handleNormal width c
  | .escape => p.handleEscape c
  | .escapeIntermediate =>
    if 0x30 ≤ c ∧ c ≤ 0x7e then { p with state := .normal } else p
  | .csi => p.handleCsi c
  | .osc =>
    if p.oscBel ∧ c = 0x07 then { p with state := .normal }
    else if c = 0x1b then { p with state := .oscEsc }
    else p
  | .oscEsc =>
    { p with state := if c = 0x5c then .normal else if c = 0x1b then .oscEsc else .osc }

def consume (width : Char32 → ℤ) (p : Parser) (token : Bytes) : Parser :=
  match token with
  | [] => p
  | byte :: rest =>
    if byte < 0x80 then consume width (p.handleChar width byte) rest
    else if p.state ≠ .normal then
      -- the content of a control string is opaque
      consume width (if p.state = .oscEsc then { p with state := .osc } else p) rest
    else
      consume width (p.emitChar width (decode (byte :: rest)).1)
        (rest.drop ((decode (byte :: rest)).2 - 1))
  termination_by token.length
  decreasing_by all_goals simp only [List.length_cons, List.length_drop]; omega

def feed (width : Char32 → ℤ) (data : Bytes) : Parser :=
  let (tokens, stream) := p.stream.feed data
  tokens.foldl (consume width) { p with stream := stream }

/-! ### A new geometry -/

/-- A full line that gets wider has room for its next character; then all stays inside. -/
def resizeCursor (oldCols newRows newCols row col : ℤ) (wrap : Bool) : ℤ × ℤ × Bool :=
  let (col, wrap) :=
    if oldCols < newCols ∧ wrap ∧ col = oldCols - 1 then (col + 1, false) else (col, wrap)
  (clamp row 0 (newRows - 1), clamp col 0 (newCols - 1), wrap)

def resizeMargins (newRows top bottom : ℤ) : ℤ × ℤ :=
  let top := clamp top 0 (newRows - 1)
  let bottom := if 0 ≤ bottom then min bottom (newRows - 1) else bottom
  if (if bottom < 0 then newRows - 1 else bottom) ≤ top then (0, -1) else (top, bottom)

def resizeSaved (oldCols newRows newCols : ℤ) (saved : SavedCursor) : SavedCursor :=
  let (row, col, wrap) := resizeCursor oldCols newRows newCols saved.row saved.col saved.wrap
  ⟨row, col, saved.pen, wrap⟩

/-- The margins and the cursor of the screen that is shown. -/
def resizeShown (oldCols : ℤ) : Parser :=
  let margins := resizeMargins p.screen.rows p.top p.bottom
  let mainMargins := resizeMargins p.screen.rows p.mainTop p.mainBottom
  let p := { p with
    top := margins.1, bottom := margins.2, mainTop := mainMargins.1, mainBottom := mainMargins.2 }
  let (row, col, wrap) := resizeCursor oldCols p.screen.rows p.screen.cols p.screen.cursorRow
    p.screen.cursorCol p.wrapPending
  let p := { p with wrapPending := wrap }
  p.moveCursor (if p.originMode then clamp row p.scrollTop p.scrollBottom else row) col

def mainScrollBottom : ℤ := if p.mainBottom < 0 then p.screen.rows - 1 else p.mainBottom

/-- The cursor of the main screen while the other one is shown. -/
def resizeParked (oldCols : ℤ) : Parser :=
  if p.screen.alternate then
    let p := p.onScreen fun s => s.switchAlternate false false
    let (row, col, wrap) := resizeCursor oldCols p.screen.rows p.screen.cols p.screen.cursorRow
      p.screen.cursorCol p.mainWrap
    let p := { p with mainWrap := wrap }
    let row := if p.mainOrigin then clamp row p.mainTop p.mainScrollBottom else row
    let p := p.moveCursor row col
    p.onScreen fun s => s.switchAlternate true false
  else p

def resize (rows cols : ℤ) : Parser :=
  let oldCols := p.screen.cols
  let p := (({ p with screen := p.screen.resize rows cols }).resizeShown oldCols).resizeParked
    oldCols
  { p with
    savedMain := resizeSaved oldCols p.screen.rows p.screen.cols p.savedMain
    savedAlternate := resizeSaved oldCols p.screen.rows p.screen.cols p.savedAlternate }

end Parser

end C1auncher.Terminal.Parser
