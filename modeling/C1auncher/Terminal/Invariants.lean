import C1auncher.Terminal.Parser
import C1auncher.Terminal.Bounds

/-!
What holds of the terminal after any bytes and any changes of its size.
-/

namespace C1auncher.Terminal.Invariants

open Terminal.Utf8 Terminal.Grid Terminal.Framer Terminal.Parser Terminal.Drawing Terminal.Bounds

/-- Margins with a row between them, or the whole screen. -/
structure Margins (rows top bottom : ℤ) : Prop where
  first : 0 ≤ top
  whole : bottom < 0 → top = 0 ∨ top < rows - 1
  inner : 0 ≤ bottom → top < bottom ∧ bottom < rows

/-- A cursor to go back to; one that waits to wrap is in the last column. -/
structure Kept (rows cols : ℤ) (saved : SavedCursor) : Prop where
  inside : Inside rows cols saved.row saved.col
  wrap : saved.wrap = true → saved.col = cols - 1

/-- What does not depend on where the cursor is. -/
structure Base (width : Char32 → ℤ) (p : Parser) : Prop where
  drawn : Drawn width p.screen
  margins : Margins p.screen.rows p.top p.bottom
  mainMargins : Margins p.screen.rows p.mainTop p.mainBottom
  savedMain : Kept p.screen.rows p.screen.cols p.savedMain
  savedAlternate : Kept p.screen.rows p.screen.cols p.savedAlternate
  mainWrap : p.screen.alternate = true → p.mainWrap = true →
    p.screen.otherCursorCol = p.screen.cols - 1

structure Good (width : Char32 → ℤ) (p : Parser) : Prop extends Base width p where
  wrap : p.wrapPending = true → p.screen.cursorCol = p.screen.cols - 1

variable {width : Char32 → ℤ} {p : Parser}

lemma Base.sound (h : Base width p) : Sound p.screen := h.drawn.sound

/-! ### Cursor and margins -/

variable {rows cols oldCols : ℤ} {s : Screen}

lemma margins_whole : Margins rows 0 (-1) :=
  ⟨Int.le_refl 0, fun _ => .inl rfl, fun h => by omega⟩

lemma Base.moveCursor (h : Base width p) (row col : ℤ) : Base width (p.moveCursor row col) :=
  { h with drawn := h.drawn.run (.moveCursor row col) }

lemma Base.good (h : Base width p) (hw : p.wrapPending = false) : Good width p :=
  ⟨h, fun ht => absurd (hw.symm.trans ht) (by decide)⟩

lemma Base.good_moveCursor (h : Base width p) (hw : p.wrapPending = false) (row col : ℤ) :
    Good width (p.moveCursor row col) :=
  (h.moveCursor row col).good hw

lemma Base.good_moveCursor_last (h : Base width p) (row col : ℤ)
    (hw : p.wrapPending = true → col = p.screen.cols - 1) : Good width (p.moveCursor row col) := by
  refine ⟨h.moveCursor row col, fun ht => ?_⟩
  have hcols := h.sound.cols
  rw [hw ht]
  exact clamp_self (by omega) (Int.le_refl _)

lemma Base.unwrapped (h : Base width p) : Base width { p with wrapPending := false } :=
  { h with }

lemma Good.redraw (h : Good width p) (op : Operation)
    (hop : Redrawn p.screen (op.run width p.screen)) :
    Good width { p with screen := op.run width p.screen } := by
  have hframe := hop.frame
  have hrows : (op.run width p.screen).rows = p.screen.rows := by rw [hframe]
  have hcols : (op.run width p.screen).cols = p.screen.cols := by rw [hframe]
  have halt : (op.run width p.screen).alternate = p.screen.alternate := by rw [hframe]
  have hcol : (op.run width p.screen).cursorCol = p.screen.cursorCol := by rw [hframe]
  have hother : (op.run width p.screen).otherCursorCol = p.screen.otherCursorCol := by rw [hframe]
  exact
    { drawn := h.drawn.run op
      margins := hrows.symm ▸ h.margins
      mainMargins := hrows.symm ▸ h.mainMargins
      savedMain := by rw [hrows, hcols]; exact h.savedMain
      savedAlternate := by rw [hrows, hcols]; exact h.savedAlternate
      mainWrap := by rw [halt, hother, hcols]; exact h.mainWrap
      wrap := by rw [hcol, hcols]; exact h.wrap }

lemma Margins.scrollTop (h : Margins p.screen.rows p.top p.bottom) (hrows : 0 < p.screen.rows) :
    p.scrollTop = p.top := by
  refine clamp_self h.first ?_
  rcases lt_or_ge p.bottom 0 with hneg | hpos
  · have := h.whole hneg
    omega
  · have := h.inner hpos
    omega

lemma Margins.scrollBottom (h : Margins p.screen.rows p.top p.bottom)
    (hrows : 0 < p.screen.rows) :
    p.scrollBottom = if p.bottom < 0 then p.screen.rows - 1 else p.bottom := by
  rw [Parser.scrollBottom, h.scrollTop hrows]
  split_ifs with hneg
  · rfl
  · have := h.inner (by omega)
    exact clamp_self (by omega) (by omega)

lemma Margins.bounds (h : Margins p.screen.rows p.top p.bottom) (hrows : 0 < p.screen.rows) :
    0 ≤ p.scrollTop ∧ p.scrollBottom < p.screen.rows ∧ (p.scrollTop < p.scrollBottom ∨
      p.scrollTop = 0 ∧ p.scrollBottom = p.screen.rows - 1) := by
  rw [h.scrollTop hrows, h.scrollBottom hrows]
  have htop := h.first
  have hwhole := h.whole
  have hinner := h.inner
  split_ifs with hneg
  · have := hwhole hneg
    omega
  · have := hinner (by omega)
    omega

/-! ### Characters -/

lemma Good.nextRow (h : Good width p) (row : ℤ) : Good width (p.nextRow row).1 := by
  unfold Parser.nextRow
  split_ifs
  · exact h.redraw (.scroll p.scrollTop p.scrollBottom 1 p.pen) (redrawn_scroll h.sound _ _ _)
  · exact h

lemma nextRow_wrapPending (p : Parser) (row : ℤ) :
    (p.nextRow row).1.wrapPending = p.wrapPending := by
  unfold Parser.nextRow
  split_ifs <;> rfl

lemma Good.place (h : Good width p) (hw : p.wrapPending = false) (ch : Char32) (row col : ℤ) :
    Good width (p.place width ch row col) := by
  have hput := h.redraw (.put ch row col p.pen) (redrawn_put h.sound width ch)
  unfold Parser.place
  dsimp only
  split_ifs
  · refine Base.good_moveCursor_last ?_ _ _ fun _ => rfl
    exact { hput with }
  · exact hput.toBase.good_moveCursor hw _ _

lemma Good.emitChar (h : Good width p) (ch : Char32) : Good width (p.emitChar width ch) := by
  unfold Parser.emitChar
  dsimp only
  by_cases hzero : width ch ≤ 0
  · rw [if_pos hzero]
    by_cases hbefore : 0 < p.screen.cursorCol ∨ p.wrapPending = true
    · rw [if_pos hbefore]
      exact h.redraw (.appendCombining ch _ _) (redrawn_appendCombining h.sound ch)
    · rw [if_neg hbefore]
      exact h
  rw [if_neg hzero]
  -- behind the row that a full one leads to
  have hrow : ∀ q : Parser × ℤ × ℤ, Good width q.1 → Good width
      (let p := { q.1 with wrapPending := false }
      if p.screen.cols < q.2.2 + width ch then
        if !p.autowrap || p.screen.cols < width ch then p
        else (p.nextRow q.2.1).1.place width ch (p.nextRow q.2.1).2 0
      else p.place width ch q.2.1 q.2.2) := by
    intro q hq
    have hbase : Good width { q.1 with wrapPending := false } := hq.toBase.unwrapped.good rfl
    dsimp only
    split_ifs
    · exact hbase
    · exact (hbase.nextRow _).place (nextRow_wrapPending _ _) ch _ _
    · exact hbase.place rfl ch _ _
  refine hrow (if p.wrapPending && p.autowrap then
    ((p.nextRow p.screen.cursorRow).1, (p.nextRow p.screen.cursorRow).2, 0)
    else (p, p.screen.cursorRow, p.screen.cursorCol)) ?_
  split_ifs
  · exact h.nextRow _
  · exact h

/-! ### Saved cursors and banks -/

lemma Good.kept (h : Good width p) :
    Kept p.screen.rows p.screen.cols ⟨p.screen.cursorRow, p.screen.cursorCol, p.pen,
      p.wrapPending⟩ :=
  ⟨h.sound.cursor, h.wrap⟩

lemma Good.saveCursor (h : Good width p) : Good width p.saveCursor := by
  unfold Parser.saveCursor
  dsimp only
  split_ifs
  · exact ⟨⟨h.drawn, h.margins, h.mainMargins, h.savedMain, h.kept, h.mainWrap⟩, h.wrap⟩
  · exact ⟨⟨h.drawn, h.margins, h.mainMargins, h.kept, h.savedAlternate, h.mainWrap⟩, h.wrap⟩

lemma Good.restoreCursor (h : Good width p) : Good width p.restoreCursor := by
  have hsaved : Kept p.screen.rows p.screen.cols
      (if p.screen.alternate then p.savedAlternate else p.savedMain) := by
    split_ifs
    · exact h.savedAlternate
    · exact h.savedMain
  unfold Parser.restoreCursor
  generalize (if p.screen.alternate then p.savedAlternate else p.savedMain) = saved at hsaved ⊢
  have hbase : Base width { p with pen := saved.pen, wrapPending := saved.wrap } :=
    { h with }
  exact hbase.good_moveCursor_last saved.row saved.col hsaved.wrap

lemma switchAlternate_rows (s : Screen) (enabled clear : Bool) :
    (s.switchAlternate enabled clear).rows = s.rows := by
  unfold Screen.switchAlternate
  split_ifs <;> rfl

lemma switchAlternate_cols (s : Screen) (enabled clear : Bool) :
    (s.switchAlternate enabled clear).cols = s.cols := by
  unfold Screen.switchAlternate
  split_ifs <;> rfl

lemma switchAlternate_alternate (s : Screen) (enabled clear : Bool) :
    (s.switchAlternate enabled clear).alternate = enabled := by
  unfold Screen.switchAlternate
  split_ifs with hsame
  · exact hsame.symm
  all_goals rfl

lemma switchAlternate_other {enabled : Bool} (h : enabled ≠ s.alternate)
    (clear : Bool) :
    (s.switchAlternate enabled clear).otherCursorCol = s.cursorCol := by
  unfold Screen.switchAlternate
  rw [if_neg h]
  dsimp only
  split_ifs <;> rfl

lemma switchAlternate_cursor (h : s.alternate = true) (clear : Bool) :
    (s.switchAlternate false clear).cursorCol = s.otherCursorCol := by
  unfold Screen.switchAlternate
  rw [if_neg (by rw [h]; decide)]
  rfl

lemma Good.enterAlternate (h : Good width p) (hmain : p.screen.alternate = false) (clear : Bool) :
    Good width (p.enterAlternate clear) := by
  have hrows := switchAlternate_rows p.screen true clear
  have hcols := switchAlternate_cols p.screen true clear
  refine Base.good ?_ rfl
  exact
    { drawn := h.drawn.run (.switchAlternate true clear)
      margins := margins_whole
      mainMargins := hrows.symm ▸ h.margins
      savedMain := by
        change Kept (p.screen.switchAlternate true clear).rows
          (p.screen.switchAlternate true clear).cols p.savedMain
        rw [hrows, hcols]
        exact h.savedMain
      savedAlternate := by
        change Kept (p.screen.switchAlternate true clear).rows
          (p.screen.switchAlternate true clear).cols p.savedAlternate
        rw [hrows, hcols]
        exact h.savedAlternate
      mainWrap := fun _ hw => by
        change (p.screen.switchAlternate true clear).otherCursorCol =
          (p.screen.switchAlternate true clear).cols - 1
        rw [switchAlternate_other (by rw [hmain]; decide), hcols]
        exact h.wrap hw }

lemma Good.leaveAlternate (h : Good width p) (hother : p.screen.alternate = true) :
    Good width p.leaveAlternate := by
  have hrows := switchAlternate_rows p.screen false true
  have hcols := switchAlternate_cols p.screen false true
  have halt := switchAlternate_alternate p.screen false true
  exact
    { drawn := h.drawn.run (.switchAlternate false true)
      margins := hrows.symm ▸ h.mainMargins
      mainMargins := hrows.symm ▸ h.mainMargins
      savedMain := by
        change Kept (p.screen.switchAlternate false true).rows
          (p.screen.switchAlternate false true).cols p.savedMain
        rw [hrows, hcols]
        exact h.savedMain
      savedAlternate := by
        change Kept (p.screen.switchAlternate false true).rows
          (p.screen.switchAlternate false true).cols p.savedAlternate
        rw [hrows, hcols]
        exact h.savedAlternate
      mainWrap := fun hshown => absurd (halt.symm.trans hshown) (by decide)
      wrap := fun hw => by
        change (p.screen.switchAlternate false true).cursorCol =
          (p.screen.switchAlternate false true).cols - 1
        rw [switchAlternate_cursor hother, hcols]
        exact h.mainWrap hother hw }

lemma Good.setPrivateMode (h : Good width p) (mode : ℤ) (enabled : Bool) :
    Good width (p.setPrivateMode mode enabled) := by
  have hbase : Base width { p with wrapPending := false } := h.toBase.unwrapped
  unfold Parser.setPrivateMode
  by_cases hforwarded : mode ∈ forwardedPrivateModes
  · rw [if_pos hforwarded]
    exact ⟨{ h with }, h.wrap⟩
  rw [if_neg hforwarded]
  by_cases hautowrap : mode = 7
  · rw [if_pos hautowrap]
    exact Base.good { h with } rfl
  rw [if_neg hautowrap]
  by_cases horigin : mode = 6
  · rw [if_pos horigin]
    have : Base width { p with originMode := enabled, wrapPending := false } :=
      { h with }
    exact this.good_moveCursor rfl _ 0
  rw [if_neg horigin]
  by_cases hcursor : mode = 1048
  · rw [if_pos hcursor]
    cases enabled
    · exact h.restoreCursor
    · exact h.saveCursor
  rw [if_neg hcursor]
  by_cases hbank : mode = 47 ∨ mode = 1047 ∨ mode = 1049
  · rw [if_pos hbank]
    rcases hshown : p.screen.alternate <;> cases enabled
    · exact h
    · exact h.enterAlternate hshown _
    · exact h.leaveAlternate hshown
    · exact h
  · rw [if_neg hbank]
    exact h

/-! ### Control sequences -/

lemma Good.move (h : Good width p) (row col : ℤ) : Good width (p.move row col) :=
  h.toBase.unwrapped.good_moveCursor rfl _ col

lemma Good.setMargins (h : Good width p) (top bottom : ℤ) :
    Good width (p.setMargins top bottom) := by
  unfold Parser.setMargins
  by_cases hfit : 0 ≤ top ∧ top < bottom ∧ bottom < p.screen.rows
  · rw [if_pos hfit]
    have hmargins : Margins p.screen.rows top
        (if bottom = p.screen.rows - 1 then -1 else bottom) := by
      refine ⟨hfit.1, fun _ => ?_, fun hpos => ?_⟩
      · omega
      · split_ifs at hpos ⊢ <;> omega
    have hgood : Good width { p with
        top := top, bottom := if bottom = p.screen.rows - 1 then -1 else bottom } :=
      ⟨{ h with margins := hmargins }, h.wrap⟩
    exact hgood.move _ 0
  · rw [if_neg hfit]
    exact h

lemma Good.applySgr (h : Good width p) : Good width p.applySgr :=
  ⟨{ h with }, h.wrap⟩

lemma Good.scroll (h : Good width p) (top bottom n : ℤ) :
    Good width (p.onScreen fun s => s.scroll top bottom n p.pen) :=
  h.redraw (.scroll top bottom n p.pen) (redrawn_scroll h.sound top bottom n)

lemma Good.csiCommand (h : Good width p) (c : Char) (args : List ℤ) :
    Good width (p.csiCommand c args) := by
  have hdisplay : ∀ mode, Good width (p.onScreen fun s => s.eraseDisplay mode p.pen) :=
    fun mode => h.redraw (.eraseDisplay mode p.pen) (redrawn_eraseDisplay h.sound mode)
  have hline : ∀ mode, Good width (p.onScreen fun s => s.eraseLine mode p.pen) :=
    fun mode => h.redraw (.eraseLine mode p.pen) (redrawn_eraseLine h.sound mode)
  have hcells : ∀ row first last,
      Good width (p.onScreen fun s => s.eraseCells row first last p.pen) := fun row first last =>
    h.redraw (.eraseCells row first last p.pen) (redrawn_eraseCells h.sound row first last)
  have hshift : ∀ row col n insert,
      Good width (p.onScreen fun s => s.shiftCells row col n insert p.pen) :=
    fun row col n insert => h.redraw (.shiftCells row col n insert p.pen)
      (redrawn_shiftCells h.sound row col n insert)
  -- lines go in and out within the margins only
  have hlines : ∀ n, Good width (if p.scrollTop ≤ p.screen.cursorRow ∧
      p.screen.cursorRow ≤ p.scrollBottom then
        p.onScreen fun s => s.scroll p.screen.cursorRow p.scrollBottom n p.pen else p) := by
    intro n
    split_ifs
    · exact h.scroll _ _ _
    · exact h
  unfold Parser.csiCommand
  dsimp only
  split
  all_goals first
    | exact h.move _ _
    | exact h.scroll _ _ _
    | exact hdisplay _
    | exact hline _
    | exact hcells _ _ _
    | exact hshift _ _ _ _
    | exact hlines _
    | exact h.setMargins _ _
    | exact h.saveCursor
    | exact h.restoreCursor
    | exact h.applySgr
    | exact h

lemma Good.csiPrivate (h : Good width p) (c : Char) (args : List ℤ) :
    Good width (p.csiPrivate c args) := by
  unfold Parser.csiPrivate
  by_cases hmode : p.csiPrefix = 0x3f ∧ (c = 'h' ∨ c = 'l')
  · rw [if_pos hmode]
    clear hmode
    induction args generalizing p with
    | nil => exact h
    | cons mode args ih => exact ih (h.setPrivateMode mode _)
  · rw [if_neg hmode]
    exact h

lemma Good.machine (h : Good width p) (stream : OutputStream) (state : Parser.State)
    (csiParams : Bytes) (csiPrefix : UInt8) (csiIntermediate oscBel : Bool) :
    Good width { p with
      stream := stream, state := state, csiParams := csiParams, csiPrefix := csiPrefix
      csiIntermediate := csiIntermediate, oscBel := oscBel } :=
  ⟨{ h with }, h.wrap⟩

lemma Good.handleCsi (h : Good width p) (byte : UInt8) : Good width (p.handleCsi byte) := by
  have hnormal : Good width { p with state := .normal } := h.machine _ _ _ _ _ _
  unfold Parser.handleCsi
  by_cases hparam : 0x30 ≤ byte ∧ byte ≤ 0x3f
  · rw [if_pos hparam]
    split_ifs
    · exact h.machine _ _ _ _ _ _
    · exact h.machine _ _ _ _ _ _
  rw [if_neg hparam]
  by_cases hintermediate : 0x20 ≤ byte ∧ byte ≤ 0x2f
  · rw [if_pos hintermediate]
    exact h.machine _ _ _ _ _ _
  rw [if_neg hintermediate]
  by_cases hignored : byte < 0x40 ∨ 0x7e < byte
  · rw [if_pos hignored]
    exact h
  rw [if_neg hignored]
  dsimp only
  split_ifs
  · exact hnormal
  · exact hnormal.csiPrivate _ _
  · exact hnormal.csiCommand _ _

lemma Good.hardReset (h : Good width p) : Good width p.hardReset := by
  have hrows := switchAlternate_rows p.screen false true
  have hcols := switchAlternate_cols p.screen false true
  have halt := switchAlternate_alternate p.screen false true
  refine Base.good ?_ rfl
  exact
    { drawn := ((h.drawn.run (.switchAlternate false true)).run .clear).run (.moveCursor 0 0)
      margins := margins_whole
      mainMargins := hrows.symm ▸ h.mainMargins
      savedMain := by
        change Kept (p.screen.switchAlternate false true).rows
          (p.screen.switchAlternate false true).cols p.savedMain
        rw [hrows, hcols]
        exact h.savedMain
      savedAlternate := by
        change Kept (p.screen.switchAlternate false true).rows
          (p.screen.switchAlternate false true).cols p.savedAlternate
        rw [hrows, hcols]
        exact h.savedAlternate
      mainWrap := fun hshown => absurd (halt.symm.trans hshown) (by decide) }

lemma Good.lineFeed (h : Good width p) (col : ℤ) : Good width (p.lineFeed col) := by
  have hbase : Good width { p with wrapPending := false } := h.toBase.unwrapped.good rfl
  exact (hbase.nextRow p.screen.cursorRow).toBase.good_moveCursor (nextRow_wrapPending _ _) _ col

lemma Good.reverseIndex (h : Good width p) : Good width p.reverseIndex := by
  have hbase : Good width { p with wrapPending := false } := h.toBase.unwrapped.good rfl
  unfold Parser.reverseIndex
  dsimp only
  split_ifs
  · exact hbase.scroll _ _ _
  · exact hbase.toBase.good_moveCursor rfl _ _

lemma Good.handleNormal (h : Good width p) (c : UInt8) : Good width (p.handleNormal width c) := by
  unfold Parser.handleNormal
  dsimp only
  split_ifs
  · exact h.machine _ _ _ _ _ _
  · exact h.toBase.unwrapped.good_moveCursor rfl _ _
  · exact h.lineFeed _
  · exact h.toBase.unwrapped.good_moveCursor rfl _ _
  · exact h.toBase.unwrapped.good_moveCursor rfl _ _
  · exact h.emitChar _
  · exact h

lemma Good.handleEscape (h : Good width p) (c : UInt8) : Good width (p.handleEscape c) := by
  have hnormal : Good width { p with state := .normal } := h.machine _ _ _ _ _ _
  unfold Parser.handleEscape
  dsimp only
  split_ifs
  · exact h.machine _ _ _ _ _ _
  · exact h.machine _ _ _ _ _ _
  · exact h.machine _ _ _ _ _ _
  · exact hnormal.saveCursor
  · exact hnormal.restoreCursor
  · exact hnormal.lineFeed _
  · exact hnormal.lineFeed _
  · exact hnormal.reverseIndex
  · exact hnormal.hardReset
  · exact hnormal

lemma Good.handleChar (h : Good width p) (c : UInt8) : Good width (p.handleChar width c) := by
  unfold Parser.handleChar
  split
  · exact h.handleNormal c
  · exact h.handleEscape c
  · split_ifs
    · exact h.machine _ _ _ _ _ _
    · exact h
  · exact h.handleCsi c
  · split_ifs
    · exact h.machine _ _ _ _ _ _
    · exact h.machine _ _ _ _ _ _
    · exact h
  · exact h.machine _ _ _ _ _ _

lemma Good.consume (h : Good width p) (token : Bytes) : Good width (p.consume width token) := by
  induction hn : token.length using Nat.strong_induction_on generalizing p token with
  | _ n ih =>
    subst hn
    cases token with
    | nil => rw [Parser.consume]; exact h
    | cons byte rest =>
      rw [Parser.consume]
      split_ifs
      · exact ih _ (by simp) (h.handleChar byte) rest rfl
      · exact ih _ (by simp) (h.machine _ _ _ _ _ _) rest rfl
      · exact ih _ (by simp) h rest rfl
      refine ih _ ?_ (h.emitChar _) _ rfl
      rw [List.length_drop, List.length_cons]
      omega

lemma Good.feed (h : Good width p) (data : Bytes) : Good width (p.feed width data) := by
  have htokens : ∀ (tokens : List Bytes) (q : Parser), Good width q →
      Good width (tokens.foldl (Parser.consume width) q) := by
    intro tokens
    induction tokens with
    | nil => exact fun _ hq => hq
    | cons token tokens ih => exact fun q hq => ih _ (hq.consume token)
  exact htokens _ _ (h.machine _ _ _ _ _ _)

/-! ### A new size -/

lemma resizeMargins_margins (hrows : 0 < rows) (top bottom : ℤ) :
    Margins rows (Parser.resizeMargins rows top bottom).1
      (Parser.resizeMargins rows top bottom).2 := by
  have htop := clamp_bounds (x := top) (show (0 : ℤ) ≤ rows - 1 by omega)
  unfold Parser.resizeMargins
  dsimp only
  generalize clamp top 0 (rows - 1) = first at htop ⊢
  rcases lt_or_ge bottom 0 with hneg | hpos
  · rw [if_neg (show ¬0 ≤ bottom by omega), if_pos hneg]
    split_ifs
    · exact margins_whole
    · exact ⟨htop.1, fun _ => .inr (by omega), fun h => by dsimp only at h; omega⟩
  rw [if_pos hpos, if_neg (show ¬min bottom (rows - 1) < 0 by omega)]
  split_ifs
  · exact margins_whole
  refine ⟨htop.1, fun h => ?_, fun _ => ?_⟩
  · dsimp only at h
    omega
  · dsimp only
    omega

lemma resizeCursor_kept (hrows : 0 < rows) (hcols : 0 < cols)
    (oldCols row col : ℤ) (wrap : Bool) (h : wrap = true →
      col = min (oldCols - 1) (cols - 1) ∨ col = oldCols - 1) :
    Inside rows cols (Parser.resizeCursor oldCols rows cols row col wrap).1
        (Parser.resizeCursor oldCols rows cols row col wrap).2.1 ∧
      ((Parser.resizeCursor oldCols rows cols row col wrap).2.2 = true →
        (Parser.resizeCursor oldCols rows cols row col wrap).2.1 = cols - 1) := by
  have hrow := clamp_bounds (x := row) (show (0 : ℤ) ≤ rows - 1 by omega)
  unfold Parser.resizeCursor
  split_ifs with hmoved
  · have hcol := clamp_bounds (x := col + 1) (show (0 : ℤ) ≤ cols - 1 by omega)
    exact ⟨⟨hrow.1, by dsimp only; omega, hcol.1, by dsimp only; omega⟩, fun h => by cases h⟩
  have hcol := clamp_bounds (x := col) (show (0 : ℤ) ≤ cols - 1 by omega)
  refine ⟨⟨hrow.1, by dsimp only; omega, hcol.1, by dsimp only; omega⟩, fun hw => ?_⟩
  dsimp only at hw ⊢
  have hlast : cols - 1 ≤ col := by
    rcases h hw with h | h
    · by_contra hlt
      exact hmoved ⟨by omega, hw, by omega⟩
    · by_contra hlt
      exact hmoved ⟨by omega, hw, h⟩
  unfold clamp
  split_ifs <;> omega

lemma kept_resizeSaved {oldRows : ℤ} {saved : SavedCursor}
    (h : Kept oldRows oldCols saved) (hrows : 0 < rows) (hcols : 0 < cols) :
    Kept rows cols (Parser.resizeSaved oldCols rows cols saved) := by
  obtain ⟨hinside, hwrap⟩ := resizeCursor_kept hrows hcols oldCols saved.row saved.col saved.wrap
    fun hw => .inr (h.wrap hw)
  exact ⟨hinside, hwrap⟩

structure Shown (width : Char32 → ℤ) (p : Parser) : Prop where
  drawn : Drawn width p.screen
  margins : Margins p.screen.rows p.top p.bottom
  mainMargins : Margins p.screen.rows p.mainTop p.mainBottom
  wrap : p.wrapPending = true → p.screen.cursorCol = p.screen.cols - 1

lemma shown_resizeShown (hdrawn : Drawn width p.screen)
    (hwrap : p.wrapPending = true →
      p.screen.cursorCol = min (oldCols - 1) (p.screen.cols - 1)) :
    Shown width (p.resizeShown oldCols) := by
  have hrows := hdrawn.sound.rows
  have hcols := hdrawn.sound.cols
  obtain ⟨-, hkept⟩ := resizeCursor_kept hrows hcols oldCols p.screen.cursorRow
    p.screen.cursorCol p.wrapPending fun hw => .inl (hwrap hw)
  refine ⟨hdrawn.run (.moveCursor _ _), resizeMargins_margins hrows _ _,
    resizeMargins_margins hrows _ _, fun hw => ?_⟩
  have hlast := hkept hw
  change clamp (Parser.resizeCursor oldCols p.screen.rows p.screen.cols p.screen.cursorRow
    p.screen.cursorCol p.wrapPending).2.1 0 (p.screen.cols - 1) = p.screen.cols - 1
  rw [hlast]
  exact clamp_self (by omega) (Int.le_refl _)

lemma switchAlternate_false_cursor (h : s.alternate = false) :
    (s.switchAlternate true false).cursorCol = s.otherCursorCol := by
  unfold Screen.switchAlternate
  rw [if_neg (by rw [h]; decide)]
  rfl

lemma shown_moveParked (h : Shown width p) (hshown : p.screen.alternate = true)
    (row : ℤ) {col : ℤ} {wrap : Bool} (hkept : wrap = true → col = p.screen.cols - 1) :
    Shown width ({ p with
        mainWrap := wrap
        screen := ((p.screen.switchAlternate false false).moveCursor row col).switchAlternate
          true false } : Parser) ∧
      (wrap = true →
        (((p.screen.switchAlternate false false).moveCursor row col).switchAlternate
          true false).otherCursorCol =
        (((p.screen.switchAlternate false false).moveCursor row col).switchAlternate
          true false).cols - 1) := by
  have hmain : Drawn width ((p.screen.switchAlternate false false).moveCursor row col) :=
    (h.drawn.run (.switchAlternate false false)).run (.moveCursor row col)
  have hcols := switchAlternate_cols p.screen false false
  have hrows := switchAlternate_rows p.screen false false
  have halt : ((p.screen.switchAlternate false false).moveCursor row col).alternate = false :=
    switchAlternate_alternate p.screen false false
  have hother : ((p.screen.switchAlternate false false).moveCursor row col).otherCursorCol =
      p.screen.cursorCol :=
    switchAlternate_other (show false ≠ p.screen.alternate by rw [hshown]; decide) false
  have hcol : ((p.screen.switchAlternate false false).moveCursor row col).cursorCol =
      clamp col 0 ((p.screen.switchAlternate false false).cols - 1) := rfl
  have hmcols : ((p.screen.switchAlternate false false).moveCursor row col).cols =
      p.screen.cols := hcols
  have hmrows : ((p.screen.switchAlternate false false).moveCursor row col).rows =
      p.screen.rows := hrows
  rw [hcols] at hcol
  have hpos := h.drawn.sound.cols
  generalize (p.screen.switchAlternate false false).moveCursor row col = t
    at hmain halt hother hcol hmcols hmrows ⊢
  have hback : Drawn width (t.switchAlternate true false) :=
    hmain.run (.switchAlternate true false)
  have hbrows := (switchAlternate_rows t true false).trans hmrows
  have hbcols := (switchAlternate_cols t true false).trans hmcols
  refine ⟨⟨hback, hbrows.symm ▸ h.margins, hbrows.symm ▸ h.mainMargins, fun hw => ?_⟩,
    fun hw => ?_⟩
  · change (t.switchAlternate true false).cursorCol = (t.switchAlternate true false).cols - 1
    rw [switchAlternate_false_cursor halt, hbcols, hother]
    exact h.wrap hw
  · rw [switchAlternate_other (by rw [halt]; decide), hbcols, hcol, hkept hw]
    exact clamp_self (by omega) (Int.le_refl _)

lemma shown_resizeParked (h : Shown width p)
    (hwrap : p.screen.alternate = true → p.mainWrap = true →
      p.screen.otherCursorCol = min (oldCols - 1) (p.screen.cols - 1)) :
    Shown width (p.resizeParked oldCols) ∧
      ((p.resizeParked oldCols).screen.alternate = true →
        (p.resizeParked oldCols).mainWrap = true →
          (p.resizeParked oldCols).screen.otherCursorCol =
            (p.resizeParked oldCols).screen.cols - 1) := by
  unfold Parser.resizeParked
  rcases hshown : p.screen.alternate with _ | _
  · rw [if_neg (by decide)]
    exact ⟨h, fun ht => absurd (hshown.symm.trans ht) (by decide)⟩
  rw [if_pos rfl]
  have hrows := switchAlternate_rows p.screen false false
  have hcols := switchAlternate_cols p.screen false false
  have hcursor := switchAlternate_cursor hshown false
  have hsound := h.drawn.sound
  obtain ⟨-, hkept⟩ := resizeCursor_kept (hrows.symm ▸ hsound.rows) (hcols.symm ▸ hsound.cols)
    oldCols (p.screen.switchAlternate false false).cursorRow
    (p.screen.switchAlternate false false).cursorCol p.mainWrap
    fun hw => .inl (by rw [hcursor, hcols]; exact hwrap hshown hw)
  obtain ⟨hback, hlast⟩ := shown_moveParked h hshown _ (fun hw => (hkept hw).trans (by rw [hcols]))
  exact ⟨hback, fun _ => hlast⟩

lemma resizeParked_saved (p : Parser) (oldCols : ℤ) :
    (p.resizeParked oldCols).savedMain = p.savedMain ∧
      (p.resizeParked oldCols).savedAlternate = p.savedAlternate := by
  unfold Parser.resizeParked
  split_ifs
  · exact ⟨rfl, rfl⟩
  · exact ⟨rfl, rfl⟩

lemma min_clamp {x : ℤ} (hx : 0 ≤ x) :
    clamp x 0 (cols - 1) = min x (cols - 1) := by
  unfold clamp
  split_ifs <;> omega

theorem Good.resize (h : Good width p) (rows cols : ℤ) : Good width (p.resize rows cols) := by
  have hdrawn : Drawn width (p.screen.resize rows cols) := h.drawn.run (.resize rows cols)
  have hpos := hdrawn.sound.rows
  have hpos' := hdrawn.sound.cols
  have hold := h.sound.cols
  -- the screen brings both of its cursors inside
  have hcursor : (p.screen.resize rows cols).cursorCol =
      clamp p.screen.cursorCol 0 ((p.screen.resize rows cols).cols - 1) := rfl
  have hother : (p.screen.resize rows cols).otherCursorCol =
      clamp p.screen.otherCursorCol 0 ((p.screen.resize rows cols).cols - 1) := rfl
  have hshown : Shown width
      (({ p with screen := p.screen.resize rows cols }).resizeShown p.screen.cols) := by
    refine shown_resizeShown hdrawn fun hw => ?_
    change (p.screen.resize rows cols).cursorCol = _
    rw [hcursor, h.wrap hw]
    exact min_clamp (by omega)
  have hwait : p.screen.alternate = true → p.mainWrap = true →
      (p.screen.resize rows cols).otherCursorCol =
        min (p.screen.cols - 1) ((p.screen.resize rows cols).cols - 1) := fun hshow hw => by
    rw [hother, h.mainWrap hshow hw]
    exact min_clamp (by omega)
  have hparked := shown_resizeParked hshown hwait
  obtain ⟨hsaved, hsaved'⟩ := resizeParked_saved
    (({ p with screen := p.screen.resize rows cols }).resizeShown p.screen.cols) p.screen.cols
  have hsound := hparked.1.drawn.sound
  exact
    { drawn := hparked.1.drawn
      margins := hparked.1.margins
      mainMargins := hparked.1.mainMargins
      savedMain := kept_resizeSaved (hsaved ▸ h.savedMain) hsound.rows hsound.cols
      savedAlternate := kept_resizeSaved (hsaved' ▸ h.savedAlternate) hsound.rows hsound.cols
      mainWrap := hparked.2
      wrap := hparked.1.wrap }

/-! ### Any calls -/

inductive Call
  | feed (data : Bytes)
  | resize (rows cols : ℤ)

def Call.run (width : Char32 → ℤ) (p : Parser) : Call → Parser
  | .feed data => p.feed width data
  | .resize rows cols => p.resize rows cols

def terminal (width : Char32 → ℤ) (rows cols : ℤ) (calls : List Call) : Parser :=
  calls.foldl (Call.run width) (Parser.init (Screen.init rows cols))

lemma good_init (width : Char32 → ℤ) (rows cols : ℤ) :
    Good width (Parser.init (Screen.init rows cols)) := by
  have hsound := sound_init rows cols
  have hrows := hsound.rows
  have hcols := hsound.cols
  have hkept : Kept (Screen.init rows cols).rows (Screen.init rows cols).cols
      ⟨0, 0, Pen.default, false⟩ :=
    ⟨⟨Int.le_refl 0, hrows, Int.le_refl 0, hcols⟩, fun h => by cases h⟩
  exact ⟨⟨.init rows cols, margins_whole, margins_whole, hkept, hkept, fun _ h => by cases h⟩,
    fun h => by cases h⟩

lemma Good.call (h : Good width p) (call : Call) : Good width (call.run width p) := by
  cases call with
  | feed data => exact h.feed data
  | resize rows cols => exact h.resize rows cols

lemma good_terminal (width : Char32 → ℤ) (rows cols : ℤ) (calls : List Call) :
    Good width (terminal width rows cols calls) := by
  unfold terminal
  have hstart := good_init width rows cols
  generalize Parser.init (Screen.init rows cols) = p at hstart
  induction calls generalizing p with
  | nil => exact hstart
  | cons call calls ih => exact ih _ (hstart.call call)

/-- **Whatever the terminal is fed** and however its size changes: the grid has its rows and
columns, as has the other one from the first change of the bank on, with whole glyphs and few
marks; all cursors are inside; the margins leave a row between them or the whole screen; only a
cursor in the last column waits to wrap; and the screen was made by operations none of which
looks up an index outside the grid. -/
theorem terminal_invariants (width : Char32 → ℤ) (rows cols : ℤ) (calls : List Call) :
    let p := terminal width rows cols calls
    let s := p.screen
    Lines s.rows s.cols s.grid ∧
    (s.otherGrid = [] ∧ s.alternate = false ∨ Lines s.rows s.cols s.otherGrid) ∧
    Inside s.rows s.cols s.cursorRow s.cursorCol ∧
    Inside s.rows s.cols s.otherCursorRow s.otherCursorCol ∧
    Inside s.rows s.cols p.savedMain.row p.savedMain.col ∧
    Inside s.rows s.cols p.savedAlternate.row p.savedAlternate.col ∧
    (0 ≤ p.scrollTop ∧ p.scrollBottom < s.rows ∧ (p.scrollTop < p.scrollBottom ∨
      p.scrollTop = 0 ∧ p.scrollBottom = s.rows - 1)) ∧
    (p.wrapPending = true → s.cursorCol = s.cols - 1) ∧
    Drawn width s ∧
    ∀ t, Drawn width t → ∀ op : Operation, op.checked width t = some (op.run width t) := by
  have h := good_terminal width rows cols calls
  have hsound := h.sound
  exact ⟨hsound.grid, hsound.other, hsound.cursor, hsound.otherCursor, h.savedMain.inside,
    h.savedAlternate.inside, h.margins.bounds hsound.rows, h.wrap, h.drawn,
    fun t ht op => checked_eq width ht.sound op⟩

/-- The grid that is not shown has no cells before the first change of the bank. -/
theorem terminal_invariants_fails :
    ¬∀ (width : Char32 → ℤ) (rows cols : ℤ) (calls : List Call),
      let s := (terminal width rows cols calls).screen
      Lines s.rows s.cols s.grid ∧ Lines s.rows s.cols s.otherGrid := by
  intro h
  have hlines := (h (fun _ => 1) 2 2 []).2
  exact absurd hlines.length (by decide)

end C1auncher.Terminal.Invariants
