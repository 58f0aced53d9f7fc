import C1auncher.Terminal.Grid

/-!
The two halves of a wide glyph stay together whatever is drawn.

A row is read as cells without an end, where all cells behind the last one are blank. A cell
that starts a wide glyph is then one whose neighbour on the right is a continuation.
-/

namespace C1auncher.Terminal.Pairing

open Terminal.Utf8 Terminal.Grid List

/-! ### Rows -/

/-- A column of a row; behind its end there are only blanks. -/
def col (row : List Cell) (i : ℕ) : Cell := row.getD i Cell.default

lemma col_of_length_le {row : List Cell} {i : ℕ} (h : row.length ≤ i) :
    col row i = Cell.default := by
  simp [col, getD_eq_getElem?_getD, getElem?_eq_none h]

lemma lt_of_continuation {row : List Cell} {i : ℕ} (h : (col row i).continuation = true) :
    i < row.length := by
  by_contra hle
  rw [col_of_length_le (Nat.le_of_not_lt hle)] at h
  cases h

lemma col_set (row : List Cell) {j : ℕ} (hj : j < row.length) (cell : Cell) (i : ℕ) :
    col (row.set j cell) i = if i = j then cell else col row i := by
  unfold col
  rw [getD_eq_getElem?_getD, getElem?_set, getD_eq_getElem?_getD]
  by_cases h : j = i
  · rw [if_pos h, if_pos hj, if_pos h.symm, Option.getD_some]
  · rw [if_neg h, if_neg (Ne.symm h)]

/-- A wide cell is followed by a continuation, and a continuation is behind a wide cell. -/
structure Paired (row : List Cell) : Prop where
  first : (col row 0).continuation = false
  halves : ∀ i, (col row (i + 1)).continuation = (col row i).wide

/-- What is in a cell: at most one half of a glyph, and a bounded number of marks. -/
structure Fit (cell : Cell) : Prop where
  half : (cell.wide && cell.continuation) = false
  combining : cell.combining.length ≤ 32

lemma fit_blankCell (pen : Pen) : Fit (blankCell pen) := ⟨rfl, Nat.zero_le _⟩

lemma fit_default : Fit Cell.default := fit_blankCell Pen.default

lemma fit_col {row : List Cell} (h : ∀ cell ∈ row, Fit cell) (i : ℕ) : Fit (col row i) := by
  unfold col
  rw [getD_eq_getElem?_getD]
  rcases hi : row[i]? with _ | cell
  · exact fit_default
  · exact h cell (mem_of_getElem? hi)

structure Line (cols : ℤ) (row : List Cell) : Prop where
  length : (row.length : ℤ) = cols
  fit : ∀ cell ∈ row, Fit cell
  paired : Paired row

lemma fit_set {row : List Cell} (h : ∀ cell ∈ row, Fit cell) {cell : Cell} (hc : Fit cell)
    (j : ℕ) : ∀ c ∈ row.set j cell, Fit c := by
  intro c hm
  rcases mem_or_eq_of_mem_set hm with hm | rfl
  · exact h c hm
  · exact hc

lemma paired_replicate (n : ℕ) (pen : Pen) : Paired (List.replicate n (blankCell pen)) := by
  have hcol : ∀ i, (col (replicate n (blankCell pen)) i).wide = false ∧
      (col (replicate n (blankCell pen)) i).continuation = false := by
    intro i
    unfold col
    rw [getD_eq_getElem?_getD, getElem?_replicate]
    split_ifs <;> exact ⟨rfl, rfl⟩
  exact ⟨(hcol 0).2, fun i => (hcol (i + 1)).2.trans (hcol i).1.symm⟩

lemma line_replicate {cols : ℤ} (h : 0 ≤ cols) (pen : Pen) :
    Line cols (List.replicate cols.toNat (blankCell pen)) where
  length := by rw [length_replicate]; omega
  fit := fun cell hm => (eq_of_mem_replicate hm) ▸ fit_blankCell pen
  paired := paired_replicate _ pen

/-! ### Writing into a row -/

/-- Neither half of a wide glyph. -/
def Narrow (cell : Cell) : Prop := cell.wide = false ∧ cell.continuation = false

lemma narrow_blankCell (pen : Pen) : Narrow (blankCell pen) := ⟨rfl, rfl⟩

/-- `erase_glyph` on a row -/
def eraseGlyph (row : List Cell) (c : ℕ) (blank : Cell) : List Cell :=
  let old := col row c
  let row := row.set c blank
  let row := if old.continuation && decide (0 < c) then row.set (c - 1) blank else row
  if old.wide && decide (c + 1 < row.length) then row.set (c + 1) blank else row

variable {row : List Cell} {c : ℕ} {blank : Cell}

@[simp] lemma length_eraseGlyph : (eraseGlyph row c blank).length = row.length := by
  unfold eraseGlyph
  dsimp only
  split_ifs <;> simp

lemma fit_eraseGlyph (h : ∀ cell ∈ row, Fit cell) (hb : Fit blank) :
    ∀ cell ∈ eraseGlyph row c blank, Fit cell := by
  unfold eraseGlyph
  dsimp only
  split_ifs
  · exact fit_set (fit_set (fit_set h hb _) hb _) hb _
  · exact fit_set (fit_set h hb _) hb _
  · exact fit_set (fit_set h hb _) hb _
  · exact fit_set h hb _

lemma col_eraseGlyph (hc : c < row.length) (i : ℕ) :
    col (eraseGlyph row c blank) i =
      if i = c ∨ (i + 1 = c ∧ (col row c).continuation) ∨
        (i = c + 1 ∧ (col row c).wide ∧ c + 1 < row.length) then blank else col row i := by
  unfold eraseGlyph
  dsimp only
  split_ifs with h1 h2 h3 h4
  all_goals grind [col_set]

lemma paired_eraseGlyph (hfit : ∀ cell ∈ row, Fit cell) (h : Paired row) (hc : c < row.length)
    (hb : Narrow blank) : Paired (eraseGlyph row c blank) := by
  have hone : ∀ i, (col row i).wide = true → (col row i).continuation = false := by
    intro i hw
    have := (fit_col hfit i).half
    rw [hw] at this
    simpa using this
  have hend : ∀ i, (col row i).wide = true → i + 1 < row.length := fun i hw =>
    lt_of_continuation ((h.halves i).trans hw)
  have hhalves := h.halves
  have hfirst := h.first
  obtain ⟨hbw, hbc⟩ := hb
  constructor
  · rw [col_eraseGlyph hc]
    grind
  intro i
  rw [col_eraseGlyph hc, col_eraseGlyph hc]
  grind

lemma narrow_eraseGlyph_self (hc : c < row.length) (hb : Narrow blank) :
    Narrow (col (eraseGlyph row c blank) c) := by
  rw [col_eraseGlyph hc, if_pos (Or.inl rfl)]
  exact hb

lemma narrow_eraseGlyph {i : ℕ} (hc : c < row.length) (hb : Narrow blank)
    (h : Narrow (col row i)) : Narrow (col (eraseGlyph row c blank) i) := by
  rw [col_eraseGlyph hc]
  split_ifs
  · exact hb
  · exact h

lemma paired_set_narrow (h : Paired row) (hc : c < row.length) (hold : Narrow (col row c))
    {cell : Cell} (hcell : Narrow cell) : Paired (row.set c cell) := by
  obtain ⟨hold1, hold2⟩ := hold
  obtain ⟨hcell1, hcell2⟩ := hcell
  have hhalves := h.halves
  have hfirst := h.first
  constructor
  · rw [col_set row hc]
    split_ifs <;> assumption
  intro i
  rw [col_set row hc, col_set row hc]
  grind

lemma paired_set_wide (h : Paired row) (hc : c + 1 < row.length) (hold : Narrow (col row c))
    (hnext : Narrow (col row (c + 1))) {cell half : Cell} (hcell : cell.wide = true)
    (hcell' : cell.continuation = false) (hhalf : half.wide = false)
    (hhalf' : half.continuation = true) : Paired ((row.set c cell).set (c + 1) half) := by
  obtain ⟨hold1, hold2⟩ := hold
  obtain ⟨hnext1, hnext2⟩ := hnext
  have hhalves := h.halves
  have hfirst := h.first
  have hc' : c < row.length := by omega
  constructor
  · rw [col_set _ (by simpa using hc), col_set row hc']
    grind
  intro i
  rw [col_set _ (by simpa using hc), col_set row hc', col_set _ (by simpa using hc),
    col_set row hc']
  grind

lemma paired_set_same (h : Paired row) (hc : c < row.length) {cell : Cell}
    (hwide : cell.wide = (col row c).wide)
    (hcont : cell.continuation = (col row c).continuation) : Paired (row.set c cell) := by
  have hhalves := h.halves
  have hfirst := h.first
  constructor
  · rw [col_set row hc]
    grind
  intro i
  rw [col_set row hc, col_set row hc]
  grind

/-! ### Repair -/

/-- One column of `repair_row`. -/
def repairCell (row : List Cell) (c : ℕ) : List Cell :=
  let row :=
    if (row.getD c Cell.default).wide &&
        (c + 1 == row.length || !(row.getD (c + 1) Cell.default).continuation) then
      row.set c Cell.default
    else row
  if (row.getD c Cell.default).continuation &&
      (c == 0 || !(row.getD (c - 1) Cell.default).wide) then
    row.set c Cell.default
  else row

lemma repairRow_eq (row : List Cell) :
    repairRow row = (List.range row.length).foldl repairCell row := rfl

@[simp] lemma length_repairCell : (repairCell row c).length = row.length := by
  unfold repairCell
  dsimp only
  split_ifs <;> simp

lemma fit_repairCell (h : ∀ cell ∈ row, Fit cell) : ∀ cell ∈ repairCell row c, Fit cell := by
  unfold repairCell
  dsimp only
  split_ifs
  · exact fit_set (fit_set h fit_default _) fit_default _
  · exact fit_set h fit_default _
  · exact fit_set h fit_default _
  · exact h

lemma col_repairCell (hfit : ∀ cell ∈ row, Fit cell) (hc : c < row.length) (i : ℕ) :
    col (repairCell row c) i =
      if i = c ∧ ((col row c).wide = true ∧ (col row (c + 1)).continuation = false ∨
        (col row c).continuation = true ∧ (c = 0 ∨ (col row (c - 1)).wide = false)) then
        Cell.default
      else col row i := by
  have hone := (fit_col hfit c).half
  have hend : c + 1 = row.length → (col row (c + 1)).continuation = false := fun h => by
    rw [col_of_length_le h.ge]
    rfl
  have hd : Cell.default.wide = false ∧ Cell.default.continuation = false := ⟨rfl, rfl⟩
  have hset := col_set row hc Cell.default
  unfold repairCell
  change col (if _ then _ else _) i = _
  simp only [← col.eq_1]
  split_ifs
  all_goals grind [col_set]

/-- The columns before a number are paired, and a wide cell in the last of them has its other
half behind. -/
structure Repaired (k : ℕ) (row : List Cell) : Prop where
  first : 0 < k → (col row 0).continuation = false
  halves : ∀ i, i + 1 < k → (col row (i + 1)).continuation = (col row i).wide
  last : ∀ i, i + 1 = k → (col row i).wide = true → (col row k).continuation = true

lemma repaired_repairCell (hfit : ∀ cell ∈ row, Fit cell) (h : Repaired c row)
    (hc : c < row.length) : Repaired (c + 1) (repairCell row c) := by
  have hone := (fit_col hfit c).half
  have hd : Cell.default.wide = false ∧ Cell.default.continuation = false := ⟨rfl, rfl⟩
  obtain ⟨hfirst, hhalves, hlast⟩ := h
  constructor
  · intro _
    rw [col_repairCell hfit hc]
    rcases Nat.eq_zero_or_pos c with rfl | hpos
    · grind
    · rw [if_neg (by omega)]
      exact hfirst hpos
  · intro i hi
    rw [col_repairCell hfit hc, col_repairCell hfit hc]
    grind
  · intro i hi
    rw [col_repairCell hfit hc, col_repairCell hfit hc]
    grind

lemma repairCells_spec (hfit : ∀ cell ∈ row, Fit cell) (k : ℕ) (hk : k ≤ row.length) :
    ((List.range k).foldl repairCell row).length = row.length ∧
      (∀ cell ∈ (List.range k).foldl repairCell row, Fit cell) ∧
        Repaired k ((List.range k).foldl repairCell row) := by
  induction k with
  | zero => exact ⟨rfl, hfit, fun h => absurd h (by omega), fun _ h => by omega,
      fun _ h => by omega⟩
  | succ k ih =>
    obtain ⟨hlen, hfits, hrep⟩ := ih (by omega)
    rw [range_succ, foldl_append, foldl_cons, foldl_nil]
    exact ⟨length_repairCell.trans hlen, fit_repairCell hfits,
      repaired_repairCell hfits hrep (by omega)⟩

/-- Whatever the halves in a row, none is alone once the row is repaired. -/
theorem line_repairRow (hfit : ∀ cell ∈ row, Fit cell) : Line row.length (repairRow row) := by
  obtain ⟨hlen, hfits, hrep⟩ := repairCells_spec hfit row.length (Nat.le_refl _)
  rw [← repairRow_eq] at hlen hfits hrep
  refine ⟨by rw [hlen], hfits, ?_, fun i => ?_⟩
  · by_cases h0 : 0 < row.length
    · exact hrep.first h0
    · rw [col_of_length_le (by omega)]
      rfl
  have hout : ∀ j, row.length ≤ j → col (repairRow row) j = Cell.default := fun j hj =>
    col_of_length_le (by omega)
  rcases Nat.lt_trichotomy (i + 1) row.length with hlt | heq | hgt
  · exact hrep.halves i hlt
  · rw [hout _ heq.ge]
    have hlast := hrep.last i heq
    rw [hout _ (Nat.le_refl _)] at hlast
    by_contra hne
    exact absurd (hlast (by
      revert hne
      cases (col (repairRow row) i).wide <;> decide)) (by decide)
  · rw [hout _ (by omega), hout _ (by omega)]
    rfl

end C1auncher.Terminal.Pairing
