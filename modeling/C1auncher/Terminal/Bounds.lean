import C1auncher.Terminal.Drawing

/-!
The operations of the screen with every index looked up: on a sound screen none is outside.
-/

namespace C1auncher.Terminal.Bounds

open Terminal.Utf8 Terminal.Grid Terminal.Pairing Terminal.Drawing List Option

/-! ### Checked operations -/

/-- `grid[row][col]`, if it is there. -/
def at? (grid : Rows) (row col : ℤ) : Option Cell :=
  if 0 ≤ row ∧ 0 ≤ col then grid[row.toNat]?.bind fun cells => cells[col.toNat]? else none

def write? (s : Screen) (row col : ℤ) (cell : Cell) : Option Screen :=
  (at? s.grid row col).map fun _ => s.setCell row col cell

def eraseGlyph? (s : Screen) (row col : ℤ) (pen : Pen) : Option Screen :=
  if !s.inside row col then some s
  else do
    let old ← at? s.grid row col
    let blank := blankCell pen
    let s ← write? s row col blank
    let s ← (if old.continuation && 0 < col then write? s row (col - 1) blank else some s)
    if old.wide && col + 1 < s.cols then write? s row (col + 1) blank else some s

def put? (width : Char32 → ℤ) (s : Screen) (ch : Char32) (row col : ℤ) (pen : Pen) :
    Option Screen :=
  if !s.inside row col then some s
  else do
    let wide := width ch == 2
    let s ← eraseGlyph? s row col pen
    if wide && s.cols ≤ col + 1 then some s
    else do
      let s ← (if wide then eraseGlyph? s row (col + 1) pen else some s)
      let cell := { blankCell pen with ch := ch, wide := wide }
      let s ← write? s row col cell
      if wide then
        write? s row (col + 1) { cell with ch := 0, wide := false, continuation := true }
      else some s

def appendCombining? (s : Screen) (ch : Char32) (row col : ℤ) : Option Screen :=
  if !s.inside row col then some s
  else do
    let cell ← at? s.grid row col
    let col := if cell.continuation then col - 1 else col
    if 0 ≤ col then do
      let cell ← at? s.grid row col
      if cell.combining.length < 32 then
        write? s row col { cell with combining := cell.combining ++ [ch] }
      else some s
    else some s

def get? (s : Screen) (row col : ℤ) : Option Cell :=
  if s.inside row col then at? s.grid row col else some Cell.default

/-- The ends of the rows that move are ends in the grid. -/
def scroll? (s : Screen) (top bottom n : ℤ) (pen : Pen) : Option Screen :=
  let first := clamp top 0 (s.rows - 1)
  let last := clamp bottom 0 (s.rows - 1)
  if last < first ∨ n = 0 then some s
  else
    let count := clamp n (-(last - first + 1)) (last - first + 1)
    if 0 ≤ first ∧ last + 1 ≤ s.grid.length ∧ first + count ≤ last + 1 ∧
        first - count ≤ last + 1 then
      some (s.scroll top bottom n pen)
    else none

def eraseCells? (s : Screen) (row first last : ℤ) (pen : Pen) : Option Screen :=
  if row < 0 ∨ s.rows ≤ row then some s
  else
    let first := max 0 first
    let last := min last (s.cols - 1)
    (List.range (last - first + 1).toNat).foldlM (fun s i => eraseGlyph? s row (first + i) pen) s

def eraseLine? (s : Screen) (mode : ℤ) (pen : Pen) : Option Screen :=
  if mode < 0 ∨ 2 < mode then some s
  else
    eraseCells? s s.cursorRow (if mode = 0 then s.cursorCol else 0)
      (if mode = 1 then s.cursorCol else s.cols - 1) pen

def eraseRow? (s : Screen) (mode r : ℤ) (pen : Pen) : Option Screen :=
  if (mode = 0 ∧ r < s.cursorRow) ∨ (mode = 1 ∧ s.cursorRow < r) then some s
  else
    eraseCells? s r (if mode = 0 ∧ r = s.cursorRow then s.cursorCol else 0)
      (if mode = 1 ∧ r = s.cursorRow then s.cursorCol else s.cols - 1) pen

def eraseDisplay? (s : Screen) (mode : ℤ) (pen : Pen) : Option Screen :=
  if mode = 3 then some s
  else
    let mode := if mode = 5 then 2 else mode
    if mode < 0 ∨ 2 < mode then some s
    else (List.range s.rows.toNat).foldlM (fun s r => eraseRow? s mode r pen) s

/-- A column whose other half is looked for only where there is a neighbour. -/
def repairCell? (row : List Cell) (c : ℕ) : Option (List Cell) := do
  let cell ← row[c]?
  let lone ← (if cell.wide && c + 1 != row.length then
    row[c + 1]?.map fun next => !next.continuation else some true)
  let row := if cell.wide && lone then row.set c Cell.default else row
  let cell ← row[c]?
  let lone ← (if cell.continuation && c != 0 then
    row[c - 1]?.map fun before => !before.wide else some true)
  some (if cell.continuation && lone then row.set c Cell.default else row)

def repairRow? (row : List Cell) : Option (List Cell) :=
  (List.range row.length).foldlM repairCell? row

def shiftCells? (s : Screen) (row col count : ℤ) (insert : Bool) (pen : Pen) : Option Screen :=
  if !s.inside row col then some s
  else do
    let count := clamp count 0 (s.cols - col)
    let cell ← at? s.grid row col
    let s ← (if cell.continuation then eraseGlyph? s row col pen else some s)
    let cells ← s.grid[row.toNat]?
    let before := cells.take col.toNat
    let behind := cells.drop col.toNat
    let blanks := List.replicate count.toNat (blankCell pen)
    let shifted :=
      if insert then before ++ blanks ++ behind.take (behind.length - count.toNat)
      else before ++ behind.drop count.toNat ++ blanks
    let repaired ← repairRow? shifted
    -- the ends of what moves are ends in the row
    if 0 ≤ count ∧ col + count ≤ cells.length then
      some { s with grid := s.grid.set row.toNat repaired }
    else none

def resizeGrid? (grid : Rows) (rows cols : ℤ) : Option Rows :=
  (resized grid rows.toNat []).mapM fun cells => repairRow? (resized cells cols.toNat Cell.default)

def resize? (s : Screen) (rows cols : ℤ) : Option Screen := do
  let toRows := if rows ≤ 0 then 24 else min rows 1000
  let toCols := if cols ≤ 0 then 80 else min cols 1000
  let _ ← resizeGrid? s.grid toRows toCols
  let _ ← (if s.otherGrid = [] then some [] else resizeGrid? s.otherGrid toRows toCols)
  some (s.resize rows cols)

/-! ### Single cells -/

variable {s : Screen} {row c : ℤ} {pen : Pen}

def Full (s : Screen) : Prop :=
  ∀ row c, Inside s.rows s.cols row c → at? s.grid row c = some (cellAt s.grid row c)

lemma full_of_sound (h : Sound s) : Full s := by
  intro row c hin
  have hr := lt_length h hin
  have hlen := (line_rowAt h hin).length
  obtain ⟨h0, -, h2, h3⟩ := hin
  have hc : c.toNat < (rowAt s row).length := by omega
  rw [at?, if_pos ⟨h0, h2⟩, getElem?_eq_getElem hr, ← rowAt_eq hr, bind_some, cellAt_eq, col,
    getElem?_eq_getElem hc, getD_eq_getElem?_getD, getElem?_eq_getElem hc, getD_some]

lemma write?_eq (h : Full s) (hin : Inside s.rows s.cols row c) (cell : Cell) :
    write? s row c cell = some (s.setCell row c cell) := by
  rw [write?, h row c hin, map_some]

lemma getElem?_isSome_set (cells : List Cell) (i j : ℕ) (cell : Cell) :
    (cells.set j cell)[i]?.isSome = cells[i]?.isSome := by
  rcases lt_or_ge i cells.length with hi | hi
  · rw [getElem?_eq_getElem hi, getElem?_eq_getElem (by simpa using hi)]
    rfl
  · rw [getElem?_eq_none hi, getElem?_eq_none (by simpa using hi)]

lemma full_setCell (h : Full s) (cell : Cell) : Full (s.setCell row c cell) := by
  intro r k hin
  have hold := h r k hin
  obtain ⟨h0, -, h2, -⟩ := hin
  rw [at?, if_pos ⟨h0, h2⟩] at hold ⊢
  rw [cellAt, getD_eq_getElem?_getD, getD_eq_getElem?_getD]
  rcases hline : s.grid[r.toNat]? with _ | cells
  · rw [hline] at hold
    cases hold
  rw [hline, bind_some] at hold
  have hset : ∃ cells', (s.setCell row c cell).grid[r.toNat]? = some cells' ∧
      cells'[k.toNat]?.isSome = true := by
    rw [Screen.setCell, setAt, getElem?_modify, hline]
    refine ⟨_, rfl, ?_⟩
    dsimp only
    split_ifs
    · rw [getElem?_isSome_set, hold]
      rfl
    · rw [hold]
      rfl
  obtain ⟨cells', hline', hsome⟩ := hset
  rw [hline', bind_some, getD_some]
  obtain ⟨cell', hcell'⟩ := isSome_iff_exists.mp hsome
  rw [hcell', getD_some]

/-- A checked operation comes to its end, on a screen of the same size. -/
structure Runs (s : Screen) (checked : Option Screen) (s' : Screen) : Prop where
  eq : checked = some s'
  full : Full s'
  rows : s'.rows = s.rows
  cols : s'.cols = s.cols

lemma Runs.refl (h : Full s) : Runs s (some s) s := ⟨rfl, h, rfl, rfl⟩

lemma Runs.ite {p : Prop} [Decidable p] {o o' : Option Screen} {t t' : Screen}
    (h : p → Runs s o t) (h' : ¬p → Runs s o' t') :
    Runs s (if p then o else o') (if p then t else t') := by
  by_cases hp : p
  · rw [if_pos hp, if_pos hp]
    exact h hp
  · rw [if_neg hp, if_neg hp]
    exact h' hp

lemma Runs.bind {o : Option Screen} {f : Screen → Option Screen} {t t' : Screen}
    (h : Runs s o t) (h' : Full t → t.rows = s.rows → t.cols = s.cols → Runs t (f t) t') :
    Runs s (o >>= f) t' := by
  have hnext := h' h.full h.rows h.cols
  refine ⟨?_, hnext.full, hnext.rows.trans h.rows, hnext.cols.trans h.cols⟩
  rw [h.eq]
  exact hnext.eq

lemma runs_write? (h : Full s) (hin : Inside s.rows s.cols row c) (cell : Cell) :
    Runs s (write? s row c cell) (s.setCell row c cell) :=
  ⟨write?_eq h hin cell, full_setCell h cell, rfl, rfl⟩

lemma runs_eraseGlyph? (h : Full s) :
    Runs s (eraseGlyph? s row c pen) (s.eraseGlyph row c pen) := by
  unfold eraseGlyph? Screen.eraseGlyph
  refine Runs.ite (fun _ => Runs.refl h) fun hin => ?_
  obtain ⟨h0, h1, h2, h3⟩ := inside_iff.mp (by simpa using hin : s.inside row c = true)
  rw [h row c ⟨h0, h1, h2, h3⟩]
  dsimp only [bind_eq_bind, bind_some]
  refine Runs.bind (runs_write? h ⟨h0, h1, h2, h3⟩ _) fun hfull hrows hcols => ?_
  have hbefore : Runs (s.setCell row c (blankCell pen))
      (if (cellAt s.grid row c).continuation && decide (0 < c) then
        write? (s.setCell row c (blankCell pen)) row (c - 1) (blankCell pen)
      else some (s.setCell row c (blankCell pen)))
      (if (cellAt s.grid row c).continuation && decide (0 < c) then
        (s.setCell row c (blankCell pen)).setCell row (c - 1) (blankCell pen)
      else s.setCell row c (blankCell pen)) := by
    refine Runs.ite (fun hb => ?_) fun _ => Runs.refl hfull
    have : 0 < c := by simp_all
    exact runs_write? hfull ⟨h0, by omega, by omega, by omega⟩ _
  refine Runs.bind hbefore fun hfull' hrows' hcols' => ?_
  refine Runs.ite (fun hb => runs_write? hfull' ⟨h0, by omega, by omega, ?_⟩ _)
    fun _ => Runs.refl hfull'
  rw [Bool.and_eq_true] at hb
  exact of_decide_eq_true hb.2

lemma runs_put? (h : Full s) (width : Char32 → ℤ) (ch : Char32) :
    Runs s (put? width s ch row c pen) (s.put width ch row c pen) := by
  unfold put? Screen.put
  refine Runs.ite (fun _ => Runs.refl h) fun hin => ?_
  obtain ⟨h0, h1, h2, h3⟩ := inside_iff.mp (by simpa using hin : s.inside row c = true)
  dsimp only [bind_eq_bind]
  refine Runs.bind (runs_eraseGlyph? h) fun hfull hrows hcols => ?_
  refine Runs.ite (fun _ => Runs.refl hfull) fun hend => ?_
  have hnext : Runs (s.eraseGlyph row c pen)
      (if width ch == 2 then eraseGlyph? (s.eraseGlyph row c pen) row (c + 1) pen
        else some (s.eraseGlyph row c pen))
      (if width ch == 2 then (s.eraseGlyph row c pen).eraseGlyph row (c + 1) pen
        else s.eraseGlyph row c pen) :=
    Runs.ite (fun _ => runs_eraseGlyph? hfull) fun _ => Runs.refl hfull
  refine Runs.bind hnext fun hfull' hrows' hcols' => ?_
  refine Runs.bind (runs_write? hfull' ⟨h0, by omega, h2, by omega⟩ _)
    fun hfull'' hrows'' hcols'' => ?_
  refine Runs.ite (fun hwide => runs_write? hfull'' ⟨h0, by omega, by omega, ?_⟩ _)
    fun _ => Runs.refl hfull''
  have : ¬(s.eraseGlyph row c pen).cols ≤ c + 1 := by simpa [hwide] using hend
  omega

lemma runs_appendCombining? (h : Full s) (ch : Char32) :
    Runs s (appendCombining? s ch row c) (s.appendCombining ch row c) := by
  unfold appendCombining? Screen.appendCombining
  refine Runs.ite (fun _ => Runs.refl h) fun hin => ?_
  obtain ⟨h0, h1, h2, h3⟩ := inside_iff.mp (by simpa using hin : s.inside row c = true)
  rw [h row c ⟨h0, h1, h2, h3⟩]
  dsimp only [bind_eq_bind, bind_some]
  have hle : (if (cellAt s.grid row c).continuation then c - 1 else c) < s.cols := by
    split_ifs <;> omega
  generalize (if (cellAt s.grid row c).continuation then c - 1 else c) = k at hle ⊢
  by_cases hk : 0 ≤ k
  · rw [if_pos hk, h row k ⟨h0, h1, hk, hle⟩]
    simp only [bind_some, hk, decide_true, Bool.true_and, decide_eq_true_eq]
    exact Runs.ite (fun _ => runs_write? h ⟨h0, h1, hk, hle⟩ _) fun _ => Runs.refl h
  · rw [if_neg hk, if_neg (by simp [hk])]
    exact Runs.refl h

lemma get?_eq (h : Full s) : get? s row c = some (s.get row c) := by
  unfold get? Screen.get
  split_ifs with hin
  · exact h row c (inside_iff.mp hin)
  · rfl

lemma runs_foldlM {α : Type} {f : Screen → α → Screen} {f? : Screen → α → Option Screen}
    (hf : ∀ s x, Full s → Runs s (f? s x) (f s x)) (xs : List α) (h : Full s) :
    Runs s (xs.foldlM f? s) (xs.foldl f s) := by
  induction xs generalizing s with
  | nil => exact Runs.refl h
  | cons x xs ih =>
    rw [foldlM_cons, foldl_cons]
    exact Runs.bind (hf s x h) fun hfull _ _ => ih hfull

lemma runs_eraseCells? (h : Full s) (row first last : ℤ) :
    Runs s (eraseCells? s row first last pen) (s.eraseCells row first last pen) := by
  unfold eraseCells? Screen.eraseCells
  exact Runs.ite (fun _ => Runs.refl h) fun _ =>
    runs_foldlM (fun _ _ h => runs_eraseGlyph? h) _ h

lemma runs_eraseLine? (h : Full s) (mode : ℤ) :
    Runs s (eraseLine? s mode pen) (s.eraseLine mode pen) := by
  unfold eraseLine? Screen.eraseLine
  exact Runs.ite (fun _ => Runs.refl h) fun _ => runs_eraseCells? h _ _ _

lemma runs_eraseRow? (h : Full s) (mode r : ℤ) :
    Runs s (eraseRow? s mode r pen) (s.eraseRow mode r pen) := by
  unfold eraseRow? Screen.eraseRow
  exact Runs.ite (fun _ => Runs.refl h) fun _ => runs_eraseCells? h _ _ _

lemma runs_eraseDisplay? (h : Full s) (mode : ℤ) :
    Runs s (eraseDisplay? s mode pen) (s.eraseDisplay mode pen) := by
  unfold eraseDisplay? Screen.eraseDisplay
  refine Runs.ite (fun _ => Runs.refl h) fun _ => ?_
  exact Runs.ite (fun _ => Runs.refl h) fun _ =>
    runs_foldlM (fun _ _ h => runs_eraseRow? h _ _) _ h

/-! ### Rows -/

lemma scroll?_eq (h : Sound s) (top bottom n : ℤ) :
    scroll? s top bottom n pen = some (s.scroll top bottom n pen) := by
  have hrows := h.rows
  have hlen := h.grid.length
  have htop := clamp_bounds (x := top) (show (0 : ℤ) ≤ s.rows - 1 by omega)
  have hbottom := clamp_bounds (x := bottom) (show (0 : ℤ) ≤ s.rows - 1 by omega)
  unfold scroll?
  dsimp only
  by_cases hout : clamp bottom 0 (s.rows - 1) < clamp top 0 (s.rows - 1) ∨ n = 0
  · rw [if_pos hout, Screen.scroll]
    dsimp only
    rw [if_pos hout]
  rw [if_neg hout, if_pos]
  have hn := clamp_bounds (x := n) (show -(clamp bottom 0 (s.rows - 1) -
    clamp top 0 (s.rows - 1) + 1) ≤ clamp bottom 0 (s.rows - 1) - clamp top 0 (s.rows - 1) + 1
    by omega)
  omega

lemma getElem?_col {cells : List Cell} {i : ℕ} (hi : i < cells.length) :
    cells[i]? = some (col cells i) := by
  rw [col, getD_eq_getElem?_getD, getElem?_eq_getElem hi, getD_some]

lemma map_lone {cells : List Cell} {i : ℕ} {half last : Bool} (hi : last = false → i < cells.length)
    (f : Cell → Bool) :
    (if half && !last then cells[i]?.map f else some true) =
      some (if half && !last then f (col cells i) else true) := by
  split_ifs with h
  · have hlast : last = false := by simp_all
    rw [getElem?_col (hi hlast), map_some]
  · rfl

lemma repairCell?_eq {cells : List Cell} {c : ℕ} (hc : c < cells.length) :
    repairCell? cells c = some (repairCell cells c) := by
  unfold repairCell? repairCell
  simp only [bind_eq_bind, getElem?_col hc, bind_some, bne]
  rw [map_lone (i := c + 1) (fun h => by simp at h; omega), bind_some]
  -- the row behind the first half of the turn
  have hrow : (if (col cells c).wide && (if (col cells c).wide && !(c + 1 == cells.length) then
        !(col cells (c + 1)).continuation else true) then cells.set c Cell.default else cells) =
      if (cells.getD c Cell.default).wide &&
          (c + 1 == cells.length || !(cells.getD (c + 1) Cell.default).continuation) then
        cells.set c Cell.default
      else cells := by
    change _ = if (col cells c).wide &&
      (c + 1 == cells.length || !(col cells (c + 1)).continuation) then _ else _
    cases (col cells c).wide <;> cases (c + 1 == cells.length) <;> rfl
  rw [hrow]
  have hlen : c < (if (cells.getD c Cell.default).wide &&
      (c + 1 == cells.length || !(cells.getD (c + 1) Cell.default).continuation) then
      cells.set c Cell.default else cells).length := by
    split_ifs
    · simpa using hc
    · exact hc
  generalize (if (cells.getD c Cell.default).wide &&
      (c + 1 == cells.length || !(cells.getD (c + 1) Cell.default).continuation) then
      cells.set c Cell.default else cells) = row at hlen ⊢
  rw [getElem?_col hlen, bind_some, map_lone (i := c - 1) (fun _ => by omega),
    bind_some]
  change _ = some (if (col row c).continuation && (c == 0 || !(col row (c - 1)).wide) then _
    else _)
  cases (col row c).continuation <;> cases (c == 0) <;> rfl

lemma repairRow?_eq (cells : List Cell) : repairRow? cells = some (repairRow cells) := by
  have hfold : ∀ (cs : List ℕ) (row : List Cell), (∀ c ∈ cs, c < row.length) →
      cs.foldlM repairCell? row = some (cs.foldl repairCell row) := by
    intro cs
    induction cs with
    | nil => exact fun _ _ => rfl
    | cons c cs ih =>
      intro row hcs
      rw [foldlM_cons, repairCell?_eq (hcs c mem_cons_self), foldl_cons]
      refine ih _ fun k hk => ?_
      rw [length_repairCell]
      exact hcs k (mem_cons_of_mem _ hk)
  rw [repairRow?, repairRow_eq]
  exact hfold _ _ fun c hc => mem_range.mp hc

lemma shiftCells?_eq (h : Sound s) (row c count : ℤ) (insert : Bool) :
    shiftCells? s row c count insert pen = some (s.shiftCells row c count insert pen) := by
  unfold shiftCells? Screen.shiftCells
  by_cases hin : s.inside row c = true
  swap
  · rw [if_pos (by simpa using hin), if_pos (by simpa using hin)]
  have hin' := inside_iff.mp hin
  rw [if_neg (by simpa using hin), if_neg (by simpa using hin)]
  simp only [full_of_sound h row c hin', bind_eq_bind, bind_some]
  have herase : Redrawn s (if (cellAt s.grid row c).continuation then s.eraseGlyph row c pen
      else s) := by
    split_ifs
    · exact redrawn_eraseGlyph h
    · exact Redrawn.refl h
  have hcheck : (if (cellAt s.grid row c).continuation then eraseGlyph? s row c pen else some s) =
      some (if (cellAt s.grid row c).continuation then s.eraseGlyph row c pen else s) := by
    split_ifs
    · exact (runs_eraseGlyph? (full_of_sound h)).eq
    · rfl
  rw [hcheck, bind_some]
  generalize (if (cellAt s.grid row c).continuation then s.eraseGlyph row c pen else s) = t
    at herase ⊢
  have ht : Sound t := herase.sound h
  have hcols : t.cols = s.cols := by rw [herase.frame]
  have hrows : t.rows = s.rows := by rw [herase.frame]
  have hin'' : Inside t.rows t.cols row c := by rw [hrows, hcols]; exact hin'
  have hr := lt_length ht hin''
  have hlen := (line_rowAt ht hin'').length
  have hcount := clamp_bounds (x := count) (show 0 ≤ s.cols - c by
    obtain ⟨-, -, -, h3⟩ := hin'; omega)
  rw [getElem?_eq_getElem hr, bind_some, ← rowAt_eq hr]
  simp only [repairRow?_eq, bind_some]
  rw [if_pos ⟨hcount.1, by omega⟩]
  rfl

/-! ### Sizes -/

lemma resizeGrid?_eq (grid : Rows) (rows cols : ℤ) :
    resizeGrid? grid rows cols = some (Screen.resizeGrid grid rows cols) := by
  unfold resizeGrid? Screen.resizeGrid
  simp only [repairRow?_eq]
  generalize resized grid rows.toNat [] = cells
  induction cells with
  | nil => rfl
  | cons row cells ih =>
    rw [mapM_cons, ih]
    rfl

lemma resize?_eq (s : Screen) (rows cols : ℤ) :
    resize? s rows cols = some (s.resize rows cols) := by
  unfold resize?
  simp only [resizeGrid?_eq, bind_eq_bind, bind_some]
  split_ifs <;> rfl

/-! ### All operations -/

inductive Operation
  | put (ch : Char32) (row col : ℤ) (pen : Pen)
  | appendCombining (ch : Char32) (row col : ℤ)
  | get (row col : ℤ)
  | moveCursor (row col : ℤ)
  | scroll (top bottom n : ℤ) (pen : Pen)
  | clear
  | eraseCells (row first last : ℤ) (pen : Pen)
  | eraseLine (mode : ℤ) (pen : Pen)
  | eraseDisplay (mode : ℤ) (pen : Pen)
  | shiftCells (row col count : ℤ) (insert : Bool) (pen : Pen)
  | switchAlternate (enabled clearOnEnter : Bool)
  | resize (rows cols : ℤ)

variable (width : Char32 → ℤ)

def Operation.run (s : Screen) : Operation → Screen
  | .put ch row col pen => s.put width ch row col pen
  | .appendCombining ch row col => s.appendCombining ch row col
  | .get _ _ => s
  | .moveCursor row col => s.moveCursor row col
  | .scroll top bottom n pen => s.scroll top bottom n pen
  | .clear => s.clear
  | .eraseCells row first last pen => s.eraseCells row first last pen
  | .eraseLine mode pen => s.eraseLine mode pen
  | .eraseDisplay mode pen => s.eraseDisplay mode pen
  | .shiftCells row col count insert pen => s.shiftCells row col count insert pen
  | .switchAlternate enabled clearOnEnter => s.switchAlternate enabled clearOnEnter
  | .resize rows cols => s.resize rows cols

/-- Moving the cursor, clearing and changing the bank look up no index. -/
def Operation.checked (s : Screen) : Operation → Option Screen
  | .put ch row col pen => put? width s ch row col pen
  | .appendCombining ch row col => appendCombining? s ch row col
  | .get row col => (get? s row col).map fun _ => s
  | .moveCursor row col => some (s.moveCursor row col)
  | .scroll top bottom n pen => scroll? s top bottom n pen
  | .clear => some s.clear
  | .eraseCells row first last pen => eraseCells? s row first last pen
  | .eraseLine mode pen => eraseLine? s mode pen
  | .eraseDisplay mode pen => eraseDisplay? s mode pen
  | .shiftCells row col count insert pen => shiftCells? s row col count insert pen
  | .switchAlternate enabled clearOnEnter => some (s.switchAlternate enabled clearOnEnter)
  | .resize rows cols => resize? s rows cols

/-- **No index is outside the grid** in an operation on a sound screen. -/
theorem checked_eq (h : Sound s) (op : Operation) : op.checked width s = some (op.run width s) := by
  have hfull := full_of_sound h
  cases op with
  | put ch row col pen => exact (runs_put? hfull width ch).eq
  | appendCombining ch row col => exact (runs_appendCombining? hfull ch).eq
  | get row col => rw [Operation.checked, get?_eq hfull]; rfl
  | moveCursor row col => rfl
  | scroll top bottom n pen => exact scroll?_eq h top bottom n
  | clear => rfl
  | eraseCells row first last pen => exact (runs_eraseCells? hfull row first last).eq
  | eraseLine mode pen => exact (runs_eraseLine? hfull mode).eq
  | eraseDisplay mode pen => exact (runs_eraseDisplay? hfull mode).eq
  | shiftCells row col count insert pen => exact shiftCells?_eq h row col count insert
  | switchAlternate enabled clearOnEnter => rfl
  | resize rows cols => exact resize?_eq s rows cols

theorem sound_run (h : Sound s) (op : Operation) : Sound (op.run width s) := by
  cases op with
  | put ch row col pen => exact (redrawn_put h width ch).sound h
  | appendCombining ch row col => exact (redrawn_appendCombining h ch).sound h
  | get row col => exact h
  | moveCursor row col => exact sound_moveCursor h row col
  | scroll top bottom n pen => exact (redrawn_scroll h top bottom n).sound h
  | clear => exact (redrawn_clear h).sound h
  | eraseCells row first last pen => exact (redrawn_eraseCells h row first last).sound h
  | eraseLine mode pen => exact (redrawn_eraseLine h mode).sound h
  | eraseDisplay mode pen => exact (redrawn_eraseDisplay h mode).sound h
  | shiftCells row col count insert pen => exact (redrawn_shiftCells h row col count insert).sound h
  | switchAlternate enabled clearOnEnter => exact sound_switchAlternate h enabled clearOnEnter
  | resize rows cols => exact sound_resize h.filled rows cols

/-- A screen that operations have made of a new one. -/
inductive Drawn : Screen → Prop
  | init (rows cols : ℤ) : Drawn (Screen.init rows cols)
  | run {s : Screen} (h : Drawn s) (op : Operation) : Drawn (op.run width s)

lemma Drawn.sound (h : Drawn width s) : Sound s := by
  induction h with
  | init rows cols => exact sound_init rows cols
  | run _ op ih => exact sound_run width ih op

end C1auncher.Terminal.Bounds
