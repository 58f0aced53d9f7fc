import C1auncher.Terminal.Pairing

/-!
What drawing keeps: the size of the grids, whole glyphs and a cursor that is inside.
-/

namespace C1auncher.Terminal.Drawing

open Terminal.Utf8 Terminal.Grid Terminal.Pairing List

structure Lines (rows cols : ℤ) (grid : Rows) : Prop where
  length : (grid.length : ℤ) = rows
  lines : ∀ row ∈ grid, Line cols row

/-- A place on the screen. -/
def Inside (rows cols row col : ℤ) : Prop := 0 ≤ row ∧ row < rows ∧ 0 ≤ col ∧ col < cols

/-- What always holds of a screen. The grid that is not shown is made when it is first asked
for. -/
structure Sound (s : Screen) : Prop where
  rows : 0 < s.rows
  cols : 0 < s.cols
  grid : Lines s.rows s.cols s.grid
  other : s.otherGrid = [] ∧ s.alternate = false ∨ Lines s.rows s.cols s.otherGrid
  cursor : Inside s.rows s.cols s.cursorRow s.cursorCol
  otherCursor : Inside s.rows s.cols s.otherCursorRow s.otherCursorCol

/-- Only the grid is another one, of the same size. -/
structure Redrawn (s s' : Screen) : Prop where
  frame : s' = { s with grid := s'.grid }
  lines : Lines s.rows s.cols s'.grid

variable {s s' s'' : Screen} {row c : ℤ} {pen : Pen}

lemma Redrawn.refl (h : Sound s) : Redrawn s s := ⟨rfl, h.grid⟩

lemma Redrawn.trans (h : Redrawn s s') (h' : Redrawn s' s'') : Redrawn s s'' := by
  constructor
  · rw [h'.frame, h.frame]
  have := h'.lines
  rw [h.frame] at this
  exact this

lemma Redrawn.sound (h : Sound s) (h' : Redrawn s s') : Sound s' := by
  rw [h'.frame]
  exact { h with grid := h'.lines }

lemma inside_iff : s.inside row c = true ↔ Inside s.rows s.cols row c := by
  simp [Screen.inside, Inside, and_assoc]

lemma clamp_bounds {x lo hi : ℤ} (h : lo ≤ hi) : lo ≤ clamp x lo hi ∧ clamp x lo hi ≤ hi := by
  unfold clamp
  split_ifs <;> omega

lemma clamp_self {x lo hi : ℤ} (h : lo ≤ x) (h' : x ≤ hi) : clamp x lo hi = x := by
  unfold clamp
  rw [if_neg (by omega), if_neg (by omega)]

/-! ### One row -/

def withRow (s : Screen) (row : ℤ) (line : List Cell) : Screen :=
  { s with grid := s.grid.set row.toNat line }

def rowAt (s : Screen) (row : ℤ) : List Cell := s.grid.getD row.toNat []

lemma lt_length (h : Sound s) (hin : Inside s.rows s.cols row c) : row.toNat < s.grid.length := by
  have := h.grid.length
  obtain ⟨h0, h1, -⟩ := hin
  omega

lemma rowAt_eq (hr : row.toNat < s.grid.length) : rowAt s row = s.grid[row.toNat] := by
  rw [rowAt, getD_eq_getElem?_getD, getElem?_eq_getElem hr, Option.getD_some]

lemma withRow_rowAt (hr : row.toNat < s.grid.length) : withRow s row (rowAt s row) = s := by
  rw [withRow, rowAt_eq hr, set_getElem_self]

lemma line_rowAt (h : Sound s) (hin : Inside s.rows s.cols row c) :
    Line s.cols (rowAt s row) := by
  rw [rowAt_eq (lt_length h hin)]
  exact h.grid.lines _ (getElem_mem _)

lemma rowAt_withRow (hr : row.toNat < s.grid.length) (line : List Cell) :
    rowAt (withRow s row line) row = line := by
  rw [rowAt, withRow, getD_eq_getElem?_getD, getElem?_set_self hr, Option.getD_some]

lemma cellAt_eq : cellAt s.grid row c = col (rowAt s row) c.toNat := rfl

lemma setCell_withRow (hr : row.toNat < s.grid.length) (line : List Cell) (cell : Cell) :
    (withRow s row line).setCell row c cell = withRow s row (line.set c.toNat cell) := by
  unfold withRow Screen.setCell setAt
  rw [modify_eq_set_getElem?]
  simp [getElem?_set_self hr]

lemma redrawn_withRow (h : Sound s) {line : List Cell} (hline : Line s.cols line) :
    Redrawn s (withRow s row line) := by
  refine ⟨rfl, ?_, fun l hm => ?_⟩
  · rw [withRow, List.length_set]
    exact h.grid.length
  rcases mem_or_eq_of_mem_set hm with hm | rfl
  · exact h.grid.lines l hm
  · exact hline

/-! ### Glyphs -/

lemma eraseGlyph_withRow {line : List Cell} (hr : row.toNat < s.grid.length)
    (hlen : (line.length : ℤ) = s.cols) (hin : Inside s.rows s.cols row c) :
    (withRow s row line).eraseGlyph row c pen =
      withRow s row (eraseGlyph line c.toNat (blankCell pen)) := by
  obtain ⟨h0, h1, h2, h3⟩ := hin
  have hin : (withRow s row line).inside row c = true := inside_iff.mpr ⟨h0, h1, h2, h3⟩
  have hsucc : (c + 1).toNat = c.toNat + 1 := by omega
  have hpred : (c - 1).toNat = c.toNat - 1 := by omega
  have hcells : ∀ l : List Cell, (withRow s row l).cols = s.cols := fun _ => rfl
  have hpos : decide (0 < c) = decide (0 < c.toNat) := by
    rw [decide_eq_decide]
    omega
  have hlast : decide (c + 1 < s.cols) = decide (c.toNat + 1 < line.length) := by
    rw [decide_eq_decide]
    omega
  rw [Screen.eraseGlyph, hin]
  simp only [Bool.not_true, Bool.false_eq_true, if_false, cellAt_eq, rowAt_withRow hr,
    setCell_withRow hr, hpos]
  unfold eraseGlyph
  dsimp only
  by_cases hcont : ((col line c.toNat).continuation && decide (0 < c.toNat)) = true
  · simp only [hcont, if_true, setCell_withRow hr, hcells, hlast, List.length_set, hsucc, hpred]
    split_ifs <;> rfl
  rw [Bool.not_eq_true] at hcont
  simp only [hcont, Bool.false_eq_true, if_false, setCell_withRow hr, hcells, hlast,
    List.length_set, hsucc]
  split_ifs <;> rfl

lemma line_eraseGlyph {line : List Cell} (h : Line s.cols line) {i : ℕ}
    (hi : i < line.length) : Line s.cols (eraseGlyph line i (blankCell pen)) where
  length := by rw [length_eraseGlyph]; exact h.length
  fit := fit_eraseGlyph h.fit (fit_blankCell pen)
  paired := paired_eraseGlyph h.fit h.paired hi (narrow_blankCell pen)

theorem redrawn_eraseGlyph (h : Sound s) : Redrawn s (s.eraseGlyph row c pen) := by
  by_cases hin : s.inside row c = true
  · have hin' := inside_iff.mp hin
    have hr := lt_length h hin'
    have hline := line_rowAt h hin'
    have heq : (withRow s row (rowAt s row)).eraseGlyph row c pen = _ :=
      eraseGlyph_withRow hr hline.length hin'
    rw [withRow_rowAt hr] at heq
    rw [heq]
    refine redrawn_withRow h (line_eraseGlyph hline ?_)
    have := hline.length
    obtain ⟨-, -, h2, h3⟩ := hin'
    omega
  · rw [Screen.eraseGlyph, if_pos (by simpa using hin)]
    exact Redrawn.refl h

theorem redrawn_put (h : Sound s) (width : Char32 → ℤ) (ch : Char32) :
    Redrawn s (s.put width ch row c pen) := by
  by_cases hin : s.inside row c = true
  swap
  · rw [Screen.put, if_pos (by simpa using hin)]
    exact Redrawn.refl h
  have hin' := inside_iff.mp hin
  have hr := lt_length h hin'
  have hline := line_rowAt h hin'
  have hlen := hline.length
  obtain ⟨h0, h1, h2, h3⟩ := hin'
  have hc : c.toNat < (rowAt s row).length := by omega
  have hsucc : (c + 1).toNat = c.toNat + 1 := by omega
  -- both columns are blanked first
  obtain ⟨blanked, hblanked⟩ : ∃ line, line = eraseGlyph (rowAt s row) c.toNat (blankCell pen) :=
    ⟨_, rfl⟩
  have hbline : Line s.cols blanked := hblanked ▸ line_eraseGlyph hline hc
  have hblen := hbline.length
  have hnarrow : Narrow (col blanked c.toNat) :=
    hblanked ▸ narrow_eraseGlyph_self hc (narrow_blankCell pen)
  have herase : s.eraseGlyph row c pen = withRow s row blanked := by
    rw [hblanked, ← eraseGlyph_withRow hr hlen ⟨h0, h1, h2, h3⟩, withRow_rowAt hr]
  rw [Screen.put, if_neg (by simpa using hin)]
  simp only [herase]
  by_cases hwide : (width ch == 2) = true
  · simp only [hwide, Bool.true_and, if_true]
    by_cases hend : s.cols ≤ c + 1
    · rw [if_pos (decide_eq_true (show (withRow s row blanked).cols ≤ c + 1 from hend))]
      exact redrawn_withRow h hbline
    rw [if_neg (fun hle : decide ((withRow s row blanked).cols ≤ c + 1) = true =>
      hend (of_decide_eq_true hle))]
    rw [eraseGlyph_withRow hr hblen ⟨h0, h1, by omega, by omega⟩, hsucc,
      setCell_withRow hr, setCell_withRow hr, hsucc]
    have hc1 : c.toNat + 1 < blanked.length := by omega
    have hline2 : Line s.cols (eraseGlyph blanked (c.toNat + 1) (blankCell pen)) :=
      line_eraseGlyph hbline hc1
    refine redrawn_withRow h ⟨?_, ?_, ?_⟩
    · simpa using hblen
    · exact fit_set (fit_set hline2.fit ⟨rfl, Nat.zero_le _⟩ _) ⟨rfl, Nat.zero_le _⟩ _
    refine paired_set_wide hline2.paired (by simpa using hc1)
      (narrow_eraseGlyph hc1 (narrow_blankCell pen) hnarrow)
      (narrow_eraseGlyph_self hc1 (narrow_blankCell pen)) rfl rfl rfl rfl
  · simp only [hwide, Bool.false_and, Bool.false_eq_true, if_false, setCell_withRow hr]
    refine redrawn_withRow h ⟨?_, ?_, ?_⟩
    · simpa using hblen
    · exact fit_set hbline.fit ⟨rfl, Nat.zero_le _⟩ _
    · exact paired_set_narrow hbline.paired (by omega) hnarrow ⟨rfl, rfl⟩

theorem redrawn_appendCombining (h : Sound s) (ch : Char32) :
    Redrawn s (s.appendCombining ch row c) := by
  by_cases hin : s.inside row c = true
  swap
  · rw [Screen.appendCombining, if_pos (by simpa using hin)]
    exact Redrawn.refl h
  have hin' := inside_iff.mp hin
  have hr := lt_length h hin'
  have hline := line_rowAt h hin'
  have hlen := hline.length
  obtain ⟨h0, h1, h2, h3⟩ := hin'
  rw [Screen.appendCombining, if_neg (by simpa using hin)]
  dsimp only
  generalize hcol : (if (cellAt s.grid row c).continuation then c - 1 else c) = c'
  have hle : c' ≤ c := by
    rw [← hcol]
    split_ifs <;> omega
  split_ifs with hfits
  · have hfits' : 0 ≤ c' ∧ (cellAt s.grid row c').combining.length < 32 := by simpa using hfits
    have hc : c'.toNat < (rowAt s row).length := by omega
    have heq := setCell_withRow (c := c') hr (rowAt s row)
      { cellAt s.grid row c' with combining := (cellAt s.grid row c').combining ++ [ch] }
    rw [withRow_rowAt hr] at heq
    rw [heq]
    refine redrawn_withRow h ⟨by simpa using hlen, fit_set hline.fit ⟨?_, ?_⟩ _, ?_⟩
    · exact (fit_col hline.fit c'.toNat).half
    · rw [length_append, length_singleton]
      omega
    · exact paired_set_same hline.paired hc rfl rfl
  · exact Redrawn.refl h

/-! ### Rows -/

lemma sound_moveCursor (h : Sound s) (row c : ℤ) : Sound (s.moveCursor row c) := by
  have hrow := clamp_bounds (x := row) (show (0 : ℤ) ≤ s.rows - 1 by have := h.rows; omega)
  have hcol := clamp_bounds (x := c) (show (0 : ℤ) ≤ s.cols - 1 by have := h.cols; omega)
  exact ⟨h.rows, h.cols, h.grid, h.other, ⟨hrow.1, by unfold Screen.moveCursor; dsimp only; omega,
    hcol.1, by unfold Screen.moveCursor; dsimp only; omega⟩, h.otherCursor⟩

theorem redrawn_scroll (h : Sound s) (top bottom n : ℤ) :
    Redrawn s (s.scroll top bottom n pen) := by
  have hrows := h.rows
  have hlen := h.grid.length
  have htop := clamp_bounds (x := top) (show (0 : ℤ) ≤ s.rows - 1 by omega)
  have hbottom := clamp_bounds (x := bottom) (show (0 : ℤ) ≤ s.rows - 1 by omega)
  unfold Screen.scroll
  dsimp only
  generalize clamp top 0 (s.rows - 1) = t at htop ⊢
  generalize clamp bottom 0 (s.rows - 1) = b at hbottom ⊢
  by_cases hout : b < t ∨ n = 0
  · rw [if_pos hout]
    exact Redrawn.refl h
  rw [if_neg hout]
  have hn := clamp_bounds (x := n) (show -(b - t + 1) ≤ b - t + 1 by omega)
  generalize clamp n (-(b - t + 1)) (b - t + 1) = k at hn ⊢
  have hblank : Line s.cols (s.blankLine pen) := line_replicate h.cols.le pen
  -- the rows that move are those of the region, and blank ones
  refine ⟨rfl, ?_, fun line hm => ?_⟩
  · dsimp only
    split_ifs
    · simp only [length_append, length_take, length_drop, length_replicate]
      omega
    · simp only [length_append, length_take, length_drop, length_replicate]
      omega
  · have hold : ∀ l ∈ s.grid, Line s.cols l := h.grid.lines
    have hregion : ∀ l ∈ (s.grid.drop t.toNat).take (b - t + 1).toNat, Line s.cols l :=
      fun l hl => hold l (mem_of_mem_drop (mem_of_mem_take hl))
    dsimp only at hm
    rcases List.mem_append.mp hm with hm | hm
    · rcases List.mem_append.mp hm with hm | hm
      · exact hold line (mem_of_mem_take hm)
      split_ifs at hm
      · rcases List.mem_append.mp hm with hm | hm
        · exact hregion line (mem_of_mem_drop hm)
        · exact eq_of_mem_replicate hm ▸ hblank
      rcases List.mem_append.mp hm with hm | hm
      · exact eq_of_mem_replicate hm ▸ hblank
      · exact hregion line (mem_of_mem_take hm)
    · exact hold line (mem_of_mem_drop hm)

lemma map_default (line : List Cell) :
    (line.map fun _ => Cell.default) = List.replicate line.length (blankCell Pen.default) := by
  rw [map_const']
  rfl

theorem redrawn_clear (h : Sound s) : Redrawn s s.clear := by
  refine ⟨rfl, ?_, fun line hm => ?_⟩
  · rw [Screen.clear, length_map]
    exact h.grid.length
  obtain ⟨l, hl, rfl⟩ := List.mem_map.mp hm
  have hline := h.grid.lines l hl
  rw [map_default]
  have hblank := line_replicate h.cols.le Pen.default
  have hlen : l.length = s.cols.toNat := by
    have := hline.length
    omega
  rw [hlen]
  exact hblank

lemma redrawn_foldl {α : Type} {f : Screen → α → Screen}
    (hf : ∀ s, Sound s → ∀ x, Redrawn s (f s x)) (xs : List α) (h : Sound s) :
    Redrawn s (xs.foldl f s) := by
  induction xs generalizing s with
  | nil => exact Redrawn.refl h
  | cons x xs ih => exact (hf s h x).trans (ih ((hf s h x).sound h))

theorem redrawn_eraseCells (h : Sound s) (row first last : ℤ) :
    Redrawn s (s.eraseCells row first last pen) := by
  unfold Screen.eraseCells
  split_ifs
  · exact Redrawn.refl h
  · exact redrawn_foldl (fun _ h _ => redrawn_eraseGlyph h) _ h

theorem redrawn_eraseLine (h : Sound s) (mode : ℤ) : Redrawn s (s.eraseLine mode pen) := by
  unfold Screen.eraseLine
  split_ifs
  · exact Redrawn.refl h
  · exact redrawn_eraseCells h _ _ _
  · exact redrawn_eraseCells h _ _ _
  · exact redrawn_eraseCells h _ _ _
  · exact redrawn_eraseCells h _ _ _

lemma redrawn_eraseRow (h : Sound s) (mode r : ℤ) : Redrawn s (s.eraseRow mode r pen) := by
  unfold Screen.eraseRow
  split_ifs
  · exact Redrawn.refl h
  all_goals exact redrawn_eraseCells h _ _ _

theorem redrawn_eraseDisplay (h : Sound s) (mode : ℤ) :
    Redrawn s (s.eraseDisplay mode pen) := by
  unfold Screen.eraseDisplay
  by_cases h3 : mode = 3
  · rw [if_pos h3]
    exact Redrawn.refl h
  rw [if_neg h3]
  dsimp only
  generalize (if mode = 5 then (2 : ℤ) else mode) = m
  split_ifs
  · exact Redrawn.refl h
  · exact redrawn_foldl (fun _ h _ => redrawn_eraseRow h _ _) _ h

lemma line_repairRow_of {line : List Cell} {cols : ℤ} (hlen : (line.length : ℤ) = cols)
    (hfit : ∀ cell ∈ line, Fit cell) : Line cols (repairRow line) :=
  hlen ▸ line_repairRow hfit

theorem redrawn_shiftCells (h : Sound s) (row c count : ℤ) (insert : Bool) :
    Redrawn s (s.shiftCells row c count insert pen) := by
  by_cases hin : s.inside row c = true
  swap
  · rw [Screen.shiftCells, if_pos (by simpa using hin)]
    exact Redrawn.refl h
  have hin' := inside_iff.mp hin
  rw [Screen.shiftCells, if_neg (by simpa using hin)]
  dsimp only
  have hcount := clamp_bounds (x := count) (show 0 ≤ s.cols - c by
    obtain ⟨-, -, -, h3⟩ := hin'
    omega)
  generalize clamp count 0 (s.cols - c) = n at hcount ⊢
  -- the glyph that the place cuts in two goes first
  have herase : Redrawn s (if (cellAt s.grid row c).continuation then s.eraseGlyph row c pen
      else s) := by
    split_ifs
    · exact redrawn_eraseGlyph h
    · exact Redrawn.refl h
  generalize (if (cellAt s.grid row c).continuation then s.eraseGlyph row c pen else s) = t
    at herase ⊢
  have ht : Sound t := herase.sound h
  have hcols : t.cols = s.cols := by rw [herase.frame]
  have hrows : t.rows = s.rows := by rw [herase.frame]
  have hin'' : Inside t.rows t.cols row c := by rw [hrows, hcols]; exact hin'
  refine herase.trans (?_ : Redrawn t (withRow t row (repairRow _)))
  refine redrawn_withRow ht ?_
  have hline := line_rowAt ht hin''
  have hlen := hline.length
  obtain ⟨h0, h1, h2, h3⟩ := hin''
  have hblank : ∀ cell ∈ replicate n.toNat (blankCell pen), Fit cell := fun cell hm =>
    eq_of_mem_replicate hm ▸ fit_blankCell pen
  have hfit : ∀ cell ∈ rowAt t row, Fit cell := hline.fit
  change Line t.cols (repairRow (if insert = true then (rowAt t row).take c.toNat ++
    replicate n.toNat (blankCell pen) ++ ((rowAt t row).drop c.toNat).take
      (((rowAt t row).drop c.toNat).length - n.toNat) else
    (rowAt t row).take c.toNat ++ ((rowAt t row).drop c.toNat).drop n.toNat ++
      replicate n.toNat (blankCell pen)))
  refine line_repairRow_of ?_ fun cell hm => ?_
  · split_ifs
    · simp only [length_append, length_take, length_drop, length_replicate]
      omega
    · simp only [length_append, length_take, length_drop, length_replicate]
      omega
  · split_ifs at hm
    · rcases List.mem_append.mp hm with hm | hm
      · rcases List.mem_append.mp hm with hm | hm
        · exact hfit cell (mem_of_mem_take hm)
        · exact hblank cell hm
      · exact hfit cell (mem_of_mem_drop (mem_of_mem_take hm))
    · rcases List.mem_append.mp hm with hm | hm
      · rcases List.mem_append.mp hm with hm | hm
        · exact hfit cell (mem_of_mem_take hm)
        · exact hfit cell (mem_of_mem_drop (mem_of_mem_drop hm))
      · exact hblank cell hm

/-! ### Banks and sizes -/

theorem sound_switchAlternate (h : Sound s) (enabled clear : Bool) :
    Sound (s.switchAlternate enabled clear) := by
  unfold Screen.switchAlternate
  by_cases hsame : enabled = s.alternate
  · rw [if_pos hsame]
    exact h
  rw [if_neg hsame]
  dsimp only
  have hother : Lines s.rows s.cols (if s.otherGrid = [] then
      replicate s.rows.toNat (replicate s.cols.toNat Cell.default)
      else s.otherGrid) := by
    split_ifs with hempty
    · refine ⟨?_, fun line hm => ?_⟩
      · have := h.rows
        rw [length_replicate]
        omega
      · exact eq_of_mem_replicate hm ▸ line_replicate h.cols.le Pen.default
    · exact h.other.resolve_left fun hnil => hempty hnil.1
  generalize (if s.otherGrid = [] then
      replicate s.rows.toNat (replicate s.cols.toNat Cell.default)
      else s.otherGrid) = other at hother ⊢
  have hs : Sound ⟨other, s.grid, s.otherCursorRow, s.otherCursorCol, s.cursorRow, s.cursorCol,
      s.rows, s.cols, enabled⟩ :=
    ⟨h.rows, h.cols, hother, .inr h.grid, h.otherCursor, h.cursor⟩
  split_ifs
  · exact sound_moveCursor ((redrawn_clear hs).sound hs) 0 0
  · exact hs

structure Filled (s : Screen) : Prop where
  grid : ∀ line ∈ s.grid, ∀ cell ∈ line, Fit cell
  other : ∀ line ∈ s.otherGrid, ∀ cell ∈ line, Fit cell
  made : s.otherGrid = [] → s.alternate = false

lemma Sound.filled (h : Sound s) : Filled s where
  grid := fun line hm => (h.grid.lines line hm).fit
  other := fun line hm => by
    rcases h.other with ⟨hnil, -⟩ | hother
    · rw [hnil] at hm
      cases hm
    · exact (hother.lines line hm).fit
  made := fun hnil => by
    rcases h.other with ⟨-, hshown⟩ | hother
    · exact hshown
    have hlen := hother.length
    have hrows := h.rows
    rw [hnil, length_nil] at hlen
    omega

lemma lines_resizeGrid {grid : Rows} (h : ∀ line ∈ grid, ∀ cell ∈ line, Fit cell) {rows cols : ℤ}
    (hrows : 0 < rows) (hcols : 0 < cols) :
    Lines rows cols (Screen.resizeGrid grid rows cols) := by
  unfold Screen.resizeGrid resized
  refine ⟨?_, fun line hm => ?_⟩
  · simp only [length_map, length_append, length_take, length_replicate]
    omega
  obtain ⟨l, hl, rfl⟩ := List.mem_map.mp hm
  have hfit : ∀ cell ∈ l, Fit cell := by
    rcases List.mem_append.mp hl with hl | hl
    · exact h l (mem_of_mem_take hl)
    · rw [eq_of_mem_replicate hl]
      exact fun _ hm => by cases hm
  refine line_repairRow_of ?_ fun cell hm => ?_
  · simp only [length_append, length_take, length_replicate]
    omega
  rcases List.mem_append.mp hm with hm | hm
  · exact hfit cell (mem_of_mem_take hm)
  · exact eq_of_mem_replicate hm ▸ fit_default

theorem sound_resize (h : Filled s) (rows cols : ℤ) : Sound (s.resize rows cols) := by
  have hrows : 0 < (if rows ≤ 0 then (24 : ℤ) else min rows 1000) := by split_ifs <;> omega
  have hcols : 0 < (if cols ≤ 0 then (80 : ℤ) else min cols 1000) := by split_ifs <;> omega
  unfold Screen.resize
  dsimp only
  generalize (if rows ≤ 0 then (24 : ℤ) else min rows 1000) = r at hrows ⊢
  generalize (if cols ≤ 0 then (80 : ℤ) else min cols 1000) = k at hcols ⊢
  have hr := fun x => clamp_bounds (x := x) (show (0 : ℤ) ≤ r - 1 by omega)
  have hk := fun x => clamp_bounds (x := x) (show (0 : ℤ) ≤ k - 1 by omega)
  have hinside : ∀ x y, Inside r k (clamp x 0 (r - 1)) (clamp y 0 (k - 1)) := fun x y =>
    ⟨(hr x).1, by have := (hr x).2; omega, (hk y).1, by have := (hk y).2; omega⟩
  refine ⟨hrows, hcols, lines_resizeGrid h.grid hrows hcols, ?_, hinside _ _, hinside _ _⟩
  by_cases hnil : s.otherGrid = []
  · exact .inl ⟨if_pos hnil, h.made hnil⟩
  refine .inr ?_
  change Lines r k (if s.otherGrid = [] then [] else _)
  rw [if_neg hnil]
  exact lines_resizeGrid h.other hrows hcols

theorem sound_init (rows cols : ℤ) : Sound (Screen.init rows cols) :=
  sound_resize ⟨fun _ hm => absurd hm not_mem_nil, fun _ hm => absurd hm not_mem_nil,
    fun _ => rfl⟩ rows cols

end C1auncher.Terminal.Drawing
