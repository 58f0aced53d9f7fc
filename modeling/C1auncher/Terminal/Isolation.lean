import C1auncher.Terminal.Invariants

/-!
A program on the alternate screen leaves the main one alone.
-/

namespace C1auncher.Terminal.Isolation

open List
open Terminal.Utf8 Terminal.Grid Terminal.Framer Terminal.Parser Terminal.Drawing Terminal.Bounds
  Terminal.Invariants

/-- What a shell finds again. -/
structure MainScreen where
  grid : Rows
  row : ℤ
  col : ℤ
  pen : Pen
  wrap : Bool
  top : ℤ
  bottom : ℤ
  origin : Bool
  saved : SavedCursor
  rows : ℤ
  cols : ℤ
  deriving DecidableEq

def shown (p : Parser) : MainScreen :=
  ⟨p.screen.grid, p.screen.cursorRow, p.screen.cursorCol, p.pen, p.wrapPending, p.top, p.bottom,
    p.originMode, p.savedMain, p.screen.rows, p.screen.cols⟩

def parked (p : Parser) : MainScreen :=
  ⟨p.screen.otherGrid, p.screen.otherCursorRow, p.screen.otherCursorCol, p.mainPen, p.mainWrap,
    p.mainTop, p.mainBottom, p.mainOrigin, p.savedMain, p.screen.rows, p.screen.cols⟩

/-! ### Drawing -/

def back (s : Screen) : Screen := { s with grid := [], cursorRow := 0, cursorCol := 0 }

section Drawing

variable (s : Screen)

@[simp] lemma back_setCell (row col : ℤ) (cell : Cell) : back (s.setCell row col cell) = back s :=
  rfl

@[simp] lemma back_eraseGlyph (row col : ℤ) (pen : Pen) :
    back (s.eraseGlyph row col pen) = back s := by
  unfold Screen.eraseGlyph
  dsimp only
  split_ifs <;> simp

@[simp] lemma back_put (width : Char32 → ℤ) (ch : Char32) (row col : ℤ) (pen : Pen) :
    back (s.put width ch row col pen) = back s := by
  unfold Screen.put
  dsimp only
  split_ifs <;> simp

@[simp] lemma back_appendCombining (ch : Char32) (row col : ℤ) :
    back (s.appendCombining ch row col) = back s := by
  unfold Screen.appendCombining
  dsimp only
  split_ifs <;> simp

@[simp] lemma back_scroll (top bottom n : ℤ) (pen : Pen) :
    back (s.scroll top bottom n pen) = back s := by
  unfold Screen.scroll
  dsimp only
  split_ifs <;> rfl

@[simp] lemma back_shiftCells (row col n : ℤ) (insert : Bool) (pen : Pen) :
    back (s.shiftCells row col n insert pen) = back s := by
  unfold Screen.shiftCells
  dsimp only
  by_cases hin : s.inside row col = true
  · rw [if_neg (by simpa using hin)]
    change back (if (cellAt s.grid row col).continuation then s.eraseGlyph row col pen else s) = _
    split_ifs <;> simp
  · rw [if_pos (by simpa using hin)]

lemma back_foldl {α : Type} {f : Screen → α → Screen} (hf : ∀ s x, back (f s x) = back s)
    (xs : List α) : back (xs.foldl f s) = back s := by
  induction xs generalizing s with
  | nil => rfl
  | cons x xs ih => exact (ih (f s x)).trans (hf s x)

@[simp] lemma back_eraseCells (row first last : ℤ) (pen : Pen) :
    back (s.eraseCells row first last pen) = back s := by
  unfold Screen.eraseCells
  split_ifs
  · rfl
  · exact back_foldl s (fun s i => back_eraseGlyph s row _ pen) _

@[simp] lemma back_eraseLine (mode : ℤ) (pen : Pen) : back (s.eraseLine mode pen) = back s := by
  unfold Screen.eraseLine
  split_ifs <;> simp

@[simp] lemma back_eraseRow (mode r : ℤ) (pen : Pen) :
    back (s.eraseRow mode r pen) = back s := by
  unfold Screen.eraseRow
  split_ifs <;> simp

@[simp] lemma back_eraseDisplay (mode : ℤ) (pen : Pen) :
    back (s.eraseDisplay mode pen) = back s := by
  unfold Screen.eraseDisplay
  by_cases h3 : mode = 3
  · rw [if_pos h3]
  rw [if_neg h3]
  dsimp only
  generalize (if mode = 5 then (2 : ℤ) else mode) = m
  split_ifs
  · rfl
  · exact back_foldl s (fun s r => back_eraseRow s m _ pen) _

end Drawing

/-! ### Commands -/

/-- What of a terminal a program on the alternate screen must not touch. -/
structure Behind (p q : Parser) : Prop where
  back : back q.screen = back p.screen
  pen : q.mainPen = p.mainPen
  wrap : q.mainWrap = p.mainWrap
  top : q.mainTop = p.mainTop
  bottom : q.mainBottom = p.mainBottom
  origin : q.mainOrigin = p.mainOrigin
  saved : q.savedMain = p.savedMain

variable {width : Char32 → ℤ} {p q r : Parser}

lemma Behind.refl (p : Parser) : Behind p p := ⟨rfl, rfl, rfl, rfl, rfl, rfl, rfl⟩

lemma Behind.trans (h : Behind p q) (h' : Behind q r) : Behind p r :=
  ⟨h'.back.trans h.back, h'.pen.trans h.pen, h'.wrap.trans h.wrap, h'.top.trans h.top,
    h'.bottom.trans h.bottom, h'.origin.trans h.origin, h'.saved.trans h.saved⟩

lemma Behind.alternate (h : Behind p q) : q.screen.alternate = p.screen.alternate :=
  (congrArg Screen.alternate h.back :)

lemma Behind.parked (h : Behind p q) : parked q = parked p := by
  have hgrid : q.screen.otherGrid = p.screen.otherGrid :=
    (congrArg Screen.otherGrid h.back :)
  have hrow : q.screen.otherCursorRow = p.screen.otherCursorRow :=
    (congrArg Screen.otherCursorRow h.back :)
  have hcol : q.screen.otherCursorCol = p.screen.otherCursorCol :=
    (congrArg Screen.otherCursorCol h.back :)
  have hrows : q.screen.rows = p.screen.rows := (congrArg Screen.rows h.back :)
  have hcols : q.screen.cols = p.screen.cols := (congrArg Screen.cols h.back :)
  unfold Isolation.parked
  rw [hgrid, hrow, hcol, hrows, hcols, h.pen, h.wrap, h.top, h.bottom, h.origin, h.saved]

lemma behind_onScreen {f : Screen → Screen} (hf : ∀ s, back (f s) = back s) (p : Parser) :
    Behind p (p.onScreen f) :=
  ⟨hf p.screen, rfl, rfl, rfl, rfl, rfl, rfl⟩

lemma behind_moveCursor (p : Parser) (row col : ℤ) : Behind p (p.moveCursor row col) :=
  ⟨rfl, rfl, rfl, rfl, rfl, rfl, rfl⟩

lemma behind_move (p : Parser) (row col : ℤ) : Behind p (p.move row col) :=
  ⟨rfl, rfl, rfl, rfl, rfl, rfl, rfl⟩

lemma behind_nextRow (p : Parser) (row : ℤ) : Behind p (p.nextRow row).1 := by
  unfold Parser.nextRow
  split_ifs
  · exact behind_onScreen (fun s => back_scroll s p.scrollTop p.scrollBottom 1 p.pen) p
  · exact Behind.refl p

lemma behind_place (p : Parser) (ch : Char32) (row col : ℤ) :
    Behind p (p.place width ch row col) := by
  have hput := behind_onScreen (fun s => back_put s width ch row col p.pen) p
  unfold Parser.place
  dsimp only
  split_ifs
  · exact ⟨hput.back, rfl, rfl, rfl, rfl, rfl, rfl⟩
  · exact ⟨hput.back, rfl, rfl, rfl, rfl, rfl, rfl⟩

lemma behind_unwrapped (p : Parser) : Behind p { p with wrapPending := false } :=
  ⟨rfl, rfl, rfl, rfl, rfl, rfl, rfl⟩

lemma behind_emitChar (p : Parser) (ch : Char32) : Behind p (p.emitChar width ch) := by
  unfold Parser.emitChar
  dsimp only
  by_cases hzero : width ch ≤ 0
  · rw [if_pos hzero]
    split_ifs
    · exact behind_onScreen (fun s => back_appendCombining s ch _ _) p
    · exact behind_onScreen (fun s => back_appendCombining s ch _ _) p
    · exact Behind.refl p
  rw [if_neg hzero]
  -- behind the row that a full one leads to
  have hrow : ∀ q : Parser × ℤ × ℤ, Behind p q.1 → Behind p
      (let p := { q.1 with wrapPending := false }
      if p.screen.cols < q.2.2 + width ch then
        if !p.autowrap || p.screen.cols < width ch then p
        else (p.nextRow q.2.1).1.place width ch (p.nextRow q.2.1).2 0
      else p.place width ch q.2.1 q.2.2) := by
    intro q hq
    have hbase : Behind p { q.1 with wrapPending := false } := hq.trans (behind_unwrapped q.1)
    dsimp only
    split_ifs
    · exact hbase
    · exact hbase.trans ((behind_nextRow _ _).trans (behind_place _ ch _ _))
    · exact hbase.trans (behind_place _ ch _ _)
  refine hrow (if p.wrapPending && p.autowrap then
    ((p.nextRow p.screen.cursorRow).1, (p.nextRow p.screen.cursorRow).2, 0)
    else (p, p.screen.cursorRow, p.screen.cursorCol)) ?_
  split_ifs
  · exact behind_nextRow p _
  · exact Behind.refl p

lemma behind_saveCursor (halt : p.screen.alternate = true) : Behind p p.saveCursor := by
  unfold Parser.saveCursor
  rw [if_pos halt]
  exact ⟨rfl, rfl, rfl, rfl, rfl, rfl, rfl⟩

lemma behind_restoreCursor (p : Parser) : Behind p p.restoreCursor :=
  ⟨rfl, rfl, rfl, rfl, rfl, rfl, rfl⟩

lemma behind_setMargins (p : Parser) (top bottom : ℤ) : Behind p (p.setMargins top bottom) := by
  unfold Parser.setMargins
  by_cases hfit : 0 ≤ top ∧ top < bottom ∧ bottom < p.screen.rows
  · rw [if_pos hfit]
    exact ⟨rfl, rfl, rfl, rfl, rfl, rfl, rfl⟩
  · rw [if_neg hfit]
    exact Behind.refl p

lemma behind_lineFeed (p : Parser) (col : ℤ) : Behind p (p.lineFeed col) :=
  (behind_unwrapped p).trans ((behind_nextRow _ _).trans (behind_moveCursor _ _ col))

lemma behind_reverseIndex (p : Parser) : Behind p p.reverseIndex := by
  unfold Parser.reverseIndex
  dsimp only
  split_ifs
  · exact (behind_unwrapped p).trans
      (behind_onScreen (fun s => back_scroll s p.scrollTop p.scrollBottom (-1) p.pen) _)
  · exact (behind_unwrapped p).trans (behind_moveCursor _ _ _)

lemma behind_csiCommand (halt : p.screen.alternate = true) (c : Char) (args : List ℤ) :
    Behind p (p.csiCommand c args) := by
  -- lines go in and out of the bank that is shown only
  have hlines : ∀ n, Behind p (if p.scrollTop ≤ p.screen.cursorRow ∧
      p.screen.cursorRow ≤ p.scrollBottom then
        p.onScreen fun s => s.scroll p.screen.cursorRow p.scrollBottom n p.pen else p) := by
    intro n
    split_ifs
    · exact behind_onScreen (fun s => back_scroll s _ _ _ _) p
    · exact Behind.refl p
  unfold Parser.csiCommand
  dsimp only
  split
  all_goals first
    | exact behind_move p _ _
    | exact behind_onScreen (fun s => back_scroll s _ _ _ _) p
    | exact behind_onScreen (fun s => back_eraseDisplay s _ _) p
    | exact behind_onScreen (fun s => back_eraseLine s _ _) p
    | exact behind_onScreen (fun s => back_eraseCells s _ _ _ _) p
    | exact behind_onScreen (fun s => back_shiftCells s _ _ _ _ _) p
    | exact hlines _
    | exact behind_setMargins p _ _
    | exact behind_saveCursor halt
    | exact behind_restoreCursor p
    | exact ⟨rfl, rfl, rfl, rfl, rfl, rfl, rfl⟩

/-! ### Modes -/

/-- The modes that show the alternate screen. -/
def bankModes : List ℤ := [47, 1047, 1049]

lemma behind_setPrivateMode (halt : p.screen.alternate = true) {mode : ℤ} {enabled : Bool}
    (h : enabled = true ∨ mode ∉ bankModes) : Behind p (p.setPrivateMode mode enabled) := by
  unfold Parser.setPrivateMode
  by_cases hforwarded : mode ∈ forwardedPrivateModes
  · rw [if_pos hforwarded]
    exact ⟨rfl, rfl, rfl, rfl, rfl, rfl, rfl⟩
  rw [if_neg hforwarded]
  by_cases hautowrap : mode = 7
  · rw [if_pos hautowrap]
    exact ⟨rfl, rfl, rfl, rfl, rfl, rfl, rfl⟩
  rw [if_neg hautowrap]
  by_cases horigin : mode = 6
  · rw [if_pos horigin]
    exact ⟨rfl, rfl, rfl, rfl, rfl, rfl, rfl⟩
  rw [if_neg horigin]
  by_cases hcursor : mode = 1048
  · rw [if_pos hcursor]
    cases enabled
    · exact behind_restoreCursor p
    · exact behind_saveCursor halt
  rw [if_neg hcursor]
  by_cases hbank : mode = 47 ∨ mode = 1047 ∨ mode = 1049
  · rw [if_pos hbank]
    -- a second set of the alternate screen does nothing
    have henabled : enabled = true := h.resolve_right fun hmode => hmode (by simpa [bankModes])
    rw [if_pos (henabled.trans halt.symm)]
    exact Behind.refl p
  · rw [if_neg hbank]
    exact Behind.refl p

lemma behind_setPrivateModes (halt : p.screen.alternate = true) {enabled : Bool} (modes : List ℤ)
    (h : enabled = true ∨ ∀ mode ∈ modes, mode ∉ bankModes) :
    Behind p (modes.foldl (fun p mode => p.setPrivateMode mode enabled) p) := by
  induction modes generalizing p with
  | nil => exact Behind.refl p
  | cons mode modes ih =>
    have hfirst : Behind p (p.setPrivateMode mode enabled) :=
      behind_setPrivateMode halt (h.imp_right fun h => h mode mem_cons_self)
    exact hfirst.trans (ih (hfirst.alternate.trans halt)
      (h.imp_right fun h mode' hmem => h mode' (mem_cons_of_mem _ hmem)))

/-! ### Bytes -/

/-- The byte ends a command that shows the main screen: `ESC c` or a reset of a mode. -/
def Leaves (p : Parser) (c : UInt8) : Prop :=
  p.state = .escape ∧ c = 0x63 ∨
    p.state = .csi ∧ c = 0x6c ∧ p.csiPrefix = 0x3f ∧ p.csiIntermediate = false ∧
      ∃ mode ∈ params p.csiParams 0, mode ∈ bankModes

instance (p : Parser) (c : UInt8) : Decidable (Leaves p c) := by
  unfold Leaves
  infer_instance

lemma behind_machine (p : Parser) (stream : OutputStream) (state : Parser.State)
    (csiParams : Bytes) (csiPrefix : UInt8) (csiIntermediate oscBel : Bool) :
    Behind p { p with
      stream := stream, state := state, csiParams := csiParams, csiPrefix := csiPrefix
      csiIntermediate := csiIntermediate, oscBel := oscBel } :=
  ⟨rfl, rfl, rfl, rfl, rfl, rfl, rfl⟩

lemma behind_handleNormal (p : Parser) (c : UInt8) : Behind p (p.handleNormal width c) := by
  unfold Parser.handleNormal
  dsimp only
  split_ifs
  · exact behind_machine p _ _ _ _ _ _
  · exact (behind_unwrapped p).trans (behind_moveCursor _ _ _)
  · exact behind_lineFeed p _
  · exact (behind_unwrapped p).trans (behind_moveCursor _ _ _)
  · exact (behind_unwrapped p).trans (behind_moveCursor _ _ _)
  · exact behind_emitChar p _
  · exact Behind.refl p

lemma behind_handleEscape (halt : p.screen.alternate = true) {c : UInt8} (hc : c ≠ 0x63) :
    Behind p (p.handleEscape c) := by
  have hnormal : Behind p { p with state := .normal } := behind_machine p _ _ _ _ _ _
  unfold Parser.handleEscape
  dsimp only
  split_ifs
  · exact behind_machine p _ _ _ _ _ _
  · exact behind_machine p _ _ _ _ _ _
  · exact behind_machine p _ _ _ _ _ _
  · exact hnormal.trans (behind_saveCursor halt)
  · exact hnormal.trans (behind_restoreCursor _)
  · exact hnormal.trans (behind_lineFeed _ _)
  · exact hnormal.trans (behind_lineFeed _ _)
  · exact hnormal.trans (behind_reverseIndex _)
  · exact hnormal

lemma reset_byte {c : UInt8} (h : Char.ofNat c.toNat = 'l') : c = 0x6c := by
  have hbytes : ∀ n < 256, Char.ofNat n = 'l' → n = 0x6c := by decide +kernel
  exact UInt8.toNat_inj.mp (hbytes c.toNat c.toNat_lt h)

lemma behind_handleCsi (halt : p.screen.alternate = true) (hs : p.state = .csi) {c : UInt8}
    (h : ¬Leaves p c) : Behind p (p.handleCsi c) := by
  have hnormal : Behind p { p with state := .normal } := behind_machine p _ _ _ _ _ _
  unfold Parser.handleCsi
  by_cases hparam : 0x30 ≤ c ∧ c ≤ 0x3f
  · rw [if_pos hparam]
    split_ifs
    · exact behind_machine p _ _ _ _ _ _
    · exact behind_machine p _ _ _ _ _ _
  rw [if_neg hparam]
  by_cases hinter : 0x20 ≤ c ∧ c ≤ 0x2f
  · rw [if_pos hinter]
    exact behind_machine p _ _ _ _ _ _
  rw [if_neg hinter]
  by_cases hignored : c < 0x40 ∨ 0x7e < c
  · rw [if_pos hignored]
    exact Behind.refl p
  rw [if_neg hignored]
  dsimp only
  by_cases hintermediate : p.csiIntermediate = true
  · rw [if_pos hintermediate]
    exact hnormal
  rw [if_neg hintermediate]
  by_cases hprefix : p.csiPrefix ≠ 0
  swap
  · rw [if_neg hprefix]
    exact hnormal.trans (behind_csiCommand (p := { p with state := .normal }) halt _ _)
  rw [if_pos hprefix]
  refine hnormal.trans ?_
  unfold Parser.csiPrivate
  by_cases hmode : p.csiPrefix = 0x3f ∧
      (Char.ofNat c.toNat = 'h' ∨ Char.ofNat c.toNat = 'l')
  swap
  · rw [if_neg hmode]
    exact Behind.refl _
  rw [if_pos hmode]
  refine behind_setPrivateModes (p := { p with state := .normal }) halt _ ?_
  rcases hmode.2 with hset | hreset
  · exact .inl (decide_eq_true hset)
  · exact .inr fun mode hmem hbank => h (.inr ⟨hs, reset_byte hreset, hmode.1,
      by simpa using hintermediate, mode, hmem, hbank⟩)

lemma behind_handleChar (halt : p.screen.alternate = true) {c : UInt8} (h : ¬Leaves p c) :
    Behind p (p.handleChar width c) := by
  unfold Parser.handleChar
  split
  · exact behind_handleNormal p c
  · rename_i hs
    exact behind_handleEscape halt fun hc => h (.inl ⟨hs, hc⟩)
  · split_ifs
    · exact behind_machine p _ _ _ _ _ _
    · exact Behind.refl p
  · rename_i hs
    exact behind_handleCsi halt hs h
  · split_ifs
    · exact behind_machine p _ _ _ _ _ _
    · exact behind_machine p _ _ _ _ _ _
    · exact Behind.refl p
  · exact behind_machine p _ _ _ _ _ _

/-! ### Streams -/

variable (width) in
/-- The bytes of a token that reach the commands, each with the parser as it is then; `consume`
executes the same ones. -/
def executed (p : Parser) (token : Bytes) : List (Parser × UInt8) :=
  match token with
  | [] => []
  | byte :: rest =>
    if byte < 0x80 then (p, byte) :: executed (p.handleChar width byte) rest
    else if p.state ≠ .normal then
      executed (if p.state = .oscEsc then { p with state := .osc } else p) rest
    else
      executed (p.emitChar width (decode (byte :: rest)).1)
        (rest.drop ((decode (byte :: rest)).2 - 1))
  termination_by token.length
  decreasing_by all_goals simp only [List.length_cons, List.length_drop]; omega

variable (width) in
/-- The same for tokens one after the other. -/
def executedAll : Parser → List Bytes → List (Parser × UInt8)
  | _, [] => []
  | p, token :: tokens => executed width p token ++ executedAll (p.consume width token) tokens

variable (width) in
def fed (p : Parser) (data : Bytes) : List (Parser × UInt8) :=
  executedAll width { p with stream := (p.stream.feed data).2 } (p.stream.feed data).1

lemma behind_consume (token : Bytes) (halt : p.screen.alternate = true)
    (h : ∀ x ∈ executed width p token, ¬Leaves x.1 x.2) : Behind p (p.consume width token) := by
  fun_induction Parser.consume width p token with
  | case1 p => exact Behind.refl p
  | case2 p byte rest hbyte ih =>
    rw [executed, if_pos hbyte] at h
    have hfirst : Behind p (p.handleChar width byte) :=
      behind_handleChar halt (h _ mem_cons_self)
    exact hfirst.trans (ih (hfirst.alternate.trans halt) fun x hx =>
      h x (mem_cons_of_mem _ hx))
  | case3 p byte rest hbyte hstate ih =>
    rw [executed, if_neg hbyte, if_pos hstate] at h
    have hfirst : Behind p (if p.state = .oscEsc then { p with state := .osc } else p) := by
      split_ifs
      · exact behind_machine p _ _ _ _ _ _
      · exact Behind.refl p
    exact hfirst.trans (ih (hfirst.alternate.trans halt) h)
  | case4 p byte rest hbyte hstate ih =>
    rw [executed, if_neg hbyte, if_neg hstate] at h
    have hfirst : Behind p (p.emitChar width (decode (byte :: rest)).1) := behind_emitChar p _
    exact hfirst.trans (ih (hfirst.alternate.trans halt) h)

lemma behind_feed (halt : p.screen.alternate = true) {data : Bytes}
    (h : ∀ x ∈ fed width p data, ¬Leaves x.1 x.2) : Behind p (p.feed width data) := by
  have htokens : ∀ (tokens : List Bytes) (q : Parser), q.screen.alternate = true →
      (∀ x ∈ executedAll width q tokens, ¬Leaves x.1 x.2) →
      Behind q (tokens.foldl (Parser.consume width) q) := by
    intro tokens
    induction tokens with
    | nil => exact fun q _ _ => Behind.refl q
    | cons token tokens ih =>
      intro q hq hx
      have hfirst : Behind q (q.consume width token) := behind_consume token hq fun x hmem =>
        hx x (mem_append_left _ hmem)
      exact hfirst.trans (ih _ (hfirst.alternate.trans hq) fun x hmem =>
        hx x (mem_append_right _ hmem))
  have hstream : Behind p { p with stream := (p.stream.feed data).2 } :=
    behind_machine p _ _ _ _ _ _
  exact hstream.trans (htokens _ _ halt h)

/-! ### A new size -/

namespace MainScreen

variable (m : MainScreen)

/-- Its grid gets the new size, and its cursor comes inside. -/
def sized (rows cols : ℤ) : MainScreen :=
  let rows := if rows ≤ 0 then 24 else min rows 1000
  let cols := if cols ≤ 0 then 80 else min cols 1000
  { m with
    grid := Screen.resizeGrid m.grid rows cols
    row := clamp m.row 0 (rows - 1)
    col := clamp m.col 0 (cols - 1)
    rows := rows
    cols := cols }

def margined : MainScreen :=
  { m with
    top := (Parser.resizeMargins m.rows m.top m.bottom).1
    bottom := (Parser.resizeMargins m.rows m.top m.bottom).2 }

/-- The cursor goes on behind a full line and stays within the margins in origin mode. -/
def cursored (oldCols : ℤ) : MainScreen :=
  let cursor := Parser.resizeCursor oldCols m.rows m.cols m.row m.col m.wrap
  let bottom := if m.bottom < 0 then m.rows - 1 else m.bottom
  let row := if m.origin then clamp cursor.1 m.top bottom else cursor.1
  { m with
    row := clamp row 0 (m.rows - 1), col := clamp cursor.2.1 0 (m.cols - 1)
    wrap := cursor.2.2 }

def resize (rows cols : ℤ) : MainScreen :=
  let t := (m.sized rows cols).margined.cursored m.cols
  { t with saved := Parser.resizeSaved m.cols t.rows t.cols t.saved }

end MainScreen

lemma rows_resize_pos (s : Screen) (rows cols : ℤ) : 0 < (s.resize rows cols).rows := by
  change 0 < if rows ≤ 0 then (24 : ℤ) else min rows 1000
  split_ifs <;> omega

lemma shown_resizeShown (hrows : 0 < p.screen.rows) (oldCols : ℤ) :
    shown (p.resizeShown oldCols) = (shown p).margined.cursored oldCols := by
  have hmargins : Margins p.screen.rows
      (Parser.resizeMargins p.screen.rows p.top p.bottom).1
      (Parser.resizeMargins p.screen.rows p.top p.bottom).2 :=
    resizeMargins_margins hrows p.top p.bottom
  -- the margins of a new size are those the parser reports
  let q : Parser := { p with
    top := (Parser.resizeMargins p.screen.rows p.top p.bottom).1
    bottom := (Parser.resizeMargins p.screen.rows p.top p.bottom).2 }
  have htop : q.scrollTop = q.top := Margins.scrollTop (p := q) hmargins hrows
  have hbottom : q.scrollBottom = if q.bottom < 0 then q.screen.rows - 1 else q.bottom :=
    Margins.scrollBottom (p := q) hmargins hrows
  have hrow : ∀ row : ℤ, (if q.originMode then clamp row q.scrollTop q.scrollBottom else row) =
      if q.originMode then clamp row q.top (if q.bottom < 0 then q.screen.rows - 1 else q.bottom)
      else row := by
    intro row
    rw [htop, hbottom]
  exact congrArg (fun row => { (shown p).margined.cursored oldCols with
    row := clamp row 0 (p.screen.rows - 1) }) (hrow _)

lemma parked_resizeShown (oldCols : ℤ) :
    parked (p.resizeShown oldCols) = (parked p).margined := rfl

lemma parked_resizeParked (halt : p.screen.alternate = true) (hgrid : p.screen.grid ≠ [])
    (hother : p.screen.otherGrid ≠ []) (oldCols : ℤ) :
    parked (p.resizeParked oldCols) = (parked p).cursored oldCols := by
  have hmain : p.screen.switchAlternate false false = ⟨p.screen.otherGrid, p.screen.grid,
      p.screen.otherCursorRow, p.screen.otherCursorCol, p.screen.cursorRow, p.screen.cursorCol,
      p.screen.rows, p.screen.cols, false⟩ := by
    unfold Screen.switchAlternate
    rw [if_neg (by rw [halt]; decide), if_neg hother]
    rfl
  have hback : ∀ s : Screen, s.alternate = false → s.otherGrid ≠ [] →
      s.switchAlternate true false = ⟨s.otherGrid, s.grid, s.otherCursorRow, s.otherCursorCol,
        s.cursorRow, s.cursorCol, s.rows, s.cols, true⟩ := by
    intro s hs hs'
    unfold Screen.switchAlternate
    rw [if_neg (by rw [hs]; decide), if_neg hs']
    rfl
  unfold Parser.resizeParked
  rw [if_pos halt]
  simp only [Parser.onScreen, hmain, Parser.moveCursor, Screen.moveCursor]
  rw [hback _ rfl hgrid]
  rfl

/-- **On the main screen** a new size makes of it what it makes of it alone. -/
theorem shown_resize (halt : p.screen.alternate = false) (rows cols : ℤ) :
    shown (p.resize rows cols) = (shown p).resize rows cols := by
  let sized : Parser := { p with screen := p.screen.resize rows cols }
  have hrest : ∀ q : Parser, q.screen.alternate = false → q.resizeParked p.screen.cols = q := by
    intro q hq
    rw [Parser.resizeParked, if_neg (by rw [hq]; decide)]
  have hshown : shown ((sized.resizeShown p.screen.cols).resizeParked p.screen.cols) =
      ((shown p).sized rows cols).margined.cursored p.screen.cols := by
    rw [hrest (sized.resizeShown p.screen.cols) halt,
      shown_resizeShown (p := sized) (rows_resize_pos p.screen rows cols)]
    rfl
  exact congrArg (fun m : MainScreen =>
    { m with saved := Parser.resizeSaved p.screen.cols m.rows m.cols m.saved }) hshown

lemma resizeGrid_ne_nil (grid : Rows) {rows : ℤ} (hrows : 0 < rows) (cols : ℤ) :
    Screen.resizeGrid grid rows cols ≠ [] := by
  intro h
  have hlen := congrArg List.length h
  simp only [Screen.resizeGrid, resized, length_map, length_append, length_take,
    length_replicate, length_nil] at hlen
  omega

/-- **On the alternate screen** a new size makes the same of the main one. -/
theorem parked_resize (halt : p.screen.alternate = true) (hother : p.screen.otherGrid ≠ [])
    (rows cols : ℤ) : parked (p.resize rows cols) = (parked p).resize rows cols := by
  let sized : Parser := { p with screen := p.screen.resize rows cols }
  have hrows : 0 < if rows ≤ 0 then (24 : ℤ) else min rows 1000 :=
    rows_resize_pos p.screen rows cols
  have hgrid' : sized.screen.otherGrid = Screen.resizeGrid p.screen.otherGrid
      (if rows ≤ 0 then 24 else min rows 1000) (if cols ≤ 0 then 80 else min cols 1000) :=
    if_neg hother
  have hsized : parked sized = (parked p).sized rows cols := by
    unfold parked
    rw [hgrid']
    rfl
  have hparked : parked ((sized.resizeShown p.screen.cols).resizeParked p.screen.cols) =
      ((parked p).sized rows cols).margined.cursored p.screen.cols := by
    have hnil : sized.screen.otherGrid ≠ [] := hgrid' ▸ resizeGrid_ne_nil _ hrows _
    rw [parked_resizeParked (p := sized.resizeShown p.screen.cols) halt
      (resizeGrid_ne_nil _ hrows _) hnil, parked_resizeShown, hsized]
  exact congrArg (fun m : MainScreen =>
    { m with saved := Parser.resizeSaved p.screen.cols m.rows m.cols m.saved }) hparked

lemma alternate_resize (p : Parser) (rows cols : ℤ) :
    (p.resize rows cols).screen.alternate = p.screen.alternate := by
  have hparked : ∀ (q : Parser) (oldCols : ℤ),
      (q.resizeParked oldCols).screen.alternate = q.screen.alternate := by
    intro q oldCols
    unfold Parser.resizeParked
    by_cases halt : q.screen.alternate = true
    · rw [if_pos halt]
      exact (switchAlternate_alternate _ true false).trans halt.symm
    · rw [if_neg halt]
  exact hparked _ _

/-! ### The bank changes -/

lemma setPrivateMode_bank {mode : ℤ} (hmode : mode ∈ bankModes) (p : Parser) (enabled : Bool) :
    p.setPrivateMode mode enabled = if enabled = p.screen.alternate then p
      else if enabled then p.enterAlternate (mode ≠ 47) else p.leaveAlternate := by
  have hbank : mode = 47 ∨ mode = 1047 ∨ mode = 1049 := by simpa [bankModes] using hmode
  unfold Parser.setPrivateMode
  rw [if_neg (by rcases hbank with rfl | rfl | rfl <;> decide), if_neg (by omega),
    if_neg (by omega), if_neg (by omega), if_pos hbank]

lemma parked_set (halt : p.screen.alternate = false) {mode : ℤ} (hmode : mode ∈ bankModes) :
    parked (p.setPrivateMode mode true) = shown p ∧
      (p.setPrivateMode mode true).screen.alternate = true := by
  have hscreen : ∀ clear : Bool, back (p.screen.switchAlternate true clear) =
      ⟨[], p.screen.grid, 0, 0, p.screen.cursorRow, p.screen.cursorCol, p.screen.rows,
        p.screen.cols, true⟩ := by
    intro clear
    unfold Screen.switchAlternate
    rw [if_neg (by rw [halt]; decide)]
    dsimp only
    split_ifs <;> rfl
  rw [setPrivateMode_bank hmode, if_neg (by rw [halt]; decide), if_pos rfl]
  generalize decide (mode ≠ 47) = clear
  have h := hscreen clear
  refine ⟨?_, (congrArg Screen.alternate h :)⟩
  have hgrid : (p.screen.switchAlternate true clear).otherGrid = p.screen.grid :=
    (congrArg Screen.otherGrid h :)
  have hrow : (p.screen.switchAlternate true clear).otherCursorRow = p.screen.cursorRow :=
    (congrArg Screen.otherCursorRow h :)
  have hcol : (p.screen.switchAlternate true clear).otherCursorCol = p.screen.cursorCol :=
    (congrArg Screen.otherCursorCol h :)
  have hrows : (p.screen.switchAlternate true clear).rows = p.screen.rows :=
    (congrArg Screen.rows h :)
  have hcols : (p.screen.switchAlternate true clear).cols = p.screen.cols :=
    (congrArg Screen.cols h :)
  unfold parked Parser.enterAlternate
  rw [hgrid, hrow, hcol, hrows, hcols]
  rfl

lemma shown_reset (halt : p.screen.alternate = true) (hother : p.screen.otherGrid ≠ []) {mode : ℤ}
    (hmode : mode ∈ bankModes) :
    shown (p.setPrivateMode mode false) = parked p ∧
      (p.setPrivateMode mode false).screen.alternate = false := by
  have hscreen : p.screen.switchAlternate false true = ⟨p.screen.otherGrid, p.screen.grid,
      p.screen.otherCursorRow, p.screen.otherCursorCol, p.screen.cursorRow, p.screen.cursorCol,
      p.screen.rows, p.screen.cols, false⟩ := by
    unfold Screen.switchAlternate
    rw [if_neg (by rw [halt]; decide), if_neg hother]
    rfl
  rw [setPrivateMode_bank hmode, if_neg (by rw [halt]; decide), if_neg (by decide)]
  unfold shown Parser.leaveAlternate
  rw [hscreen]
  exact ⟨rfl, rfl⟩

/-! ### A whole run -/

/-- What a terminal is asked to do: a mode stands for one parameter of a sequence. -/
inductive Event
  | feed (data : Bytes)
  | mode (mode : ℤ) (enabled : Bool)
  | resize (rows cols : ℤ)

variable (width) in
def Event.run (p : Parser) : Event → Parser
  | .feed data => p.feed width data
  | .mode n enabled => p.setPrivateMode n enabled
  | .resize rows cols => p.resize rows cols

variable (width) in
/-- No reset of the alternate screen and no `ESC c` is executed. -/
def Event.Stays (p : Parser) : Event → Prop
  | .feed data => ∀ x ∈ fed width p data, ¬Leaves x.1 x.2
  | .mode n enabled => enabled = true ∨ n ∉ bankModes
  | .resize _ _ => True

variable (width) in
def Stays : Parser → List Event → Prop
  | _, [] => True
  | p, event :: events => event.Stays width p ∧ Stays (event.run width p) events

def sizes : List Event → List (ℤ × ℤ)
  | [] => []
  | .resize rows cols :: events => (rows, cols) :: sizes events
  | _ :: events => sizes events

lemma good_event (h : Good width p) (event : Event) : Good width (event.run width p) := by
  cases event with
  | feed data => exact h.feed data
  | mode mode enabled => exact h.setPrivateMode mode enabled
  | resize rows cols => exact h.resize rows cols

lemma otherGrid_ne_nil (h : Good width p) (halt : p.screen.alternate = true) :
    p.screen.otherGrid ≠ [] := by
  intro hnil
  have hshown := h.sound.filled.made hnil
  rw [halt] at hshown
  cases hshown

lemma parked_event (h : Good width p) (halt : p.screen.alternate = true) {event : Event}
    (hstays : event.Stays width p) :
    (event.run width p).screen.alternate = true ∧ parked (event.run width p) =
      (sizes [event]).foldl (fun m size => m.resize size.1 size.2) (parked p) := by
  cases event with
  | feed data =>
    have hbehind := behind_feed halt hstays
    exact ⟨hbehind.alternate.trans halt, hbehind.parked⟩
  | mode mode enabled =>
    have hbehind := behind_setPrivateMode halt hstays
    exact ⟨hbehind.alternate.trans halt, hbehind.parked⟩
  | resize rows cols =>
    exact ⟨(alternate_resize p rows cols).trans halt,
      parked_resize halt (otherGrid_ne_nil h halt) rows cols⟩

variable (width) in
def after (p : Parser) (events : List Event) : Parser := events.foldl (Event.run width) p

lemma good_after (h : Good width p) (events : List Event) : Good width (after width p events) := by
  induction events generalizing p with
  | nil => exact h
  | cons event events ih => exact ih (good_event h event)

lemma parked_after (events : List Event) (h : Good width p) (halt : p.screen.alternate = true)
    (hstays : Stays width p events) :
    (after width p events).screen.alternate = true ∧ parked (after width p events) =
      (sizes events).foldl (fun m size => m.resize size.1 size.2) (parked p) := by
  induction events generalizing p with
  | nil => exact ⟨halt, rfl⟩
  | cons event events ih =>
    obtain ⟨halt', hparked⟩ := parked_event h halt hstays.1
    obtain ⟨hlast, hrest⟩ := ih (good_event h event) halt' hstays.2
    refine ⟨hlast, hrest.trans ?_⟩
    rw [hparked]
    cases event <;> rfl

lemma shown_sizes (sizes : List (ℤ × ℤ)) (halt : p.screen.alternate = false) :
    shown (sizes.foldl (fun p size => p.resize size.1 size.2) p) =
      sizes.foldl (fun m size => m.resize size.1 size.2) (shown p) := by
  induction sizes generalizing p with
  | nil => rfl
  | cons size sizes ih =>
    rw [foldl_cons, foldl_cons, ih ((alternate_resize p _ _).trans halt), shown_resize halt]

/-- **The main screen comes back.** Whatever the terminal was asked to do before: when mode 47,
1047 or 1049 is set on the main screen, and until one of them is reset no other reset of them and
no `ESC c` is executed, the main screen is what the new sizes in between make of it alone, its
grid, cursor, pen, margins, modes and saved cursor. -/
theorem alternate_isolated (width : Char32 → ℤ) (rows cols : ℤ) (before between : List Event)
    (mode mode' : ℤ) (hmode : mode ∈ bankModes) (hmode' : mode' ∈ bankModes)
    (halt : (after width (Parser.init (Screen.init rows cols)) before).screen.alternate = false)
    (hstays : Stays width ((after width (Parser.init (Screen.init rows cols))
      before).setPrivateMode mode true) between) :
    let p := after width (Parser.init (Screen.init rows cols)) before
    let q := after width (p.setPrivateMode mode true) between
    shown (q.setPrivateMode mode' false) =
        shown ((sizes between).foldl (fun p size => p.resize size.1 size.2) p) ∧
      (q.setPrivateMode mode' false).screen.alternate = false ∧
      (sizes between = [] → (q.setPrivateMode mode' false).savedMain = p.savedMain) := by
  intro p q
  have hgood : Good width p := good_after (good_init width rows cols) before
  obtain ⟨hset, hset'⟩ := parked_set halt hmode
  have hgood' : Good width (p.setPrivateMode mode true) := hgood.setPrivateMode mode true
  obtain ⟨hq, hparked⟩ := parked_after between hgood' hset' hstays
  have hother : q.screen.otherGrid ≠ [] :=
    otherGrid_ne_nil (good_after hgood' between) hq
  obtain ⟨hreset, hreset'⟩ := shown_reset hq hother hmode'
  have hback : shown (q.setPrivateMode mode' false) =
      shown ((sizes between).foldl (fun p size => p.resize size.1 size.2) p) :=
    calc shown (q.setPrivateMode mode' false)
      _ = parked q := hreset
      _ = (sizes between).foldl (fun m size => m.resize size.1 size.2)
            (parked (p.setPrivateMode mode true)) := hparked
      _ = (sizes between).foldl (fun m size => m.resize size.1 size.2) (shown p) := by rw [hset]
      _ = shown ((sizes between).foldl (fun p size => p.resize size.1 size.2) p) :=
            (shown_sizes (sizes between) halt).symm
  refine ⟨hback, hreset', fun hnone => ?_⟩
  rw [hnone] at hback
  exact congrArg MainScreen.saved hback

/-- `MAIN`, a program with its own text, margins and a wider terminal, and back. -/
theorem alternate_isolated_run :
    let width : Char32 → ℤ := fun _ => 1
    let before : List Event := [.feed [0x4d, 0x41, 0x49, 0x4e]]
    let between : List Event := [.feed [0x41, 0x1b, 0x5b, 0x32, 0x4a], .resize 4 10]
    let p := after width (Parser.init (Screen.init 3 8)) before
    let q := after width (p.setPrivateMode 1049 true) between
    shown (q.setPrivateMode 1047 false) = shown (p.resize 4 10) := by
  refine (alternate_isolated (fun _ => 1) 3 8 [.feed [0x4d, 0x41, 0x49, 0x4e]]
    [.feed [0x41, 0x1b, 0x5b, 0x32, 0x4a], .resize 4 10] 1049 1047 (by decide) (by decide)
    (by decide +kernel) ⟨?_, trivial, trivial⟩).1
  change ∀ x ∈ fed _ _ _, ¬Leaves x.1 x.2
  decide +kernel

/-- A new size moves the saved cursor of the main screen as well, shown or not. -/
theorem alternate_isolated_fails :
    ¬∀ (width : Char32 → ℤ) (rows cols : ℤ) (before between : List Event) (mode mode' : ℤ),
      mode ∈ bankModes → mode' ∈ bankModes →
      let p := after width (Parser.init (Screen.init rows cols)) before
      let q := after width (p.setPrivateMode mode true) between
      p.screen.alternate = false → Stays width (p.setPrivateMode mode true) between →
      (q.setPrivateMode mode' false).savedMain = p.savedMain := by
  intro h
  have hsaved := h (fun _ => 1) 1 3 [.feed [0x41, 0x42], .mode 1048 true] [.resize 1 2] 47 47
    (by decide) (by decide) (by decide +kernel) ⟨trivial, trivial⟩
  exact absurd hsaved (by decide +kernel)

end C1auncher.Terminal.Isolation
