import C1auncher.Games.Input
import Mathlib.Data.List.GetD
import C1auncher.Merging
import Mathlib.Tactic.Ring

/-!
The game 2048 on a board of four by four: sliding and merging a line, a move, the spawned tile, the
end of the game, and the drawing of the board. A cell holds `0` or the exponent of its tile.
-/

namespace C1auncher.Games.G2048

open Input

inductive Dir
  | left | right | up | down
deriving DecidableEq

/-- Right and down read a line from its far end. -/
def Dir.far : Dir → Bool
  | .left | .up => false
  | .right | .down => true

/-- Left and right move the rows, up and down the columns. -/
def Dir.onRows : Dir → Bool
  | .left | .right => true
  | .up | .down => false

/-- The tiles of a line, in the order in which they lie. -/
def pack (line : List UInt8) : List UInt8 := line.filter (· ≠ 0)

/-- Every tile from place `j` on takes the value of the next one. -/
def shiftDown (tmp : List UInt8) (j : ℕ) : List UInt8 :=
  (List.range' j (tmp.length - 1 - j)).foldl (fun t k => t.set k (t.getD (k + 1) 0)) tmp

/-- Equal neighbours merge, from place `i` on; the later tiles move up in place. `n` bounds the
turns of the loop. -/
def mergeFrom : ℕ → List UInt8 → UInt32 → ℕ → List UInt8 × UInt32
  | 0, tmp, gain, _ => (tmp, gain)
  | n + 1, tmp, gain, i =>
    if i + 1 < tmp.length then
      if tmp.getD i 0 = tmp.getD (i + 1) 0 then
        let v := tmp.getD i 0 + 1
        mergeFrom n (shiftDown (tmp.set i v) (i + 1)).dropLast (gain + 1 <<< v.toUInt32) (i + 1)
      else mergeFrom n tmp gain (i + 1)
    else (tmp, gain)

/-- The two ends of the tiles change places, pair by pair. -/
def reverse (tmp : List UInt8) : List UInt8 :=
  (List.range (tmp.length / 2)).foldl
    (fun t i => (t.set i (t.getD (tmp.length - 1 - i) 0)).set (tmp.length - 1 - i) (t.getD i 0)) tmp

def slideLine (d : Dir) (line : List UInt8) (gain : UInt32) : List UInt8 × UInt32 :=
  if d.far then
    let out := mergeFrom 4 (pack line.reverse) gain 0
    let tmp := reverse out.1
    ((List.range 4).map fun i =>
      if 4 - tmp.length ≤ i then tmp.getD (i - (4 - tmp.length)) 0 else 0, out.2)
  else
    let out := mergeFrom 4 (pack line) gain 0
    ((List.range 4).map fun i => if i < out.1.length then out.1.getD i 0 else 0, out.2)

@[simp] lemma length_slideLine (d : Dir) (line : List UInt8) (gain : UInt32) :
    (slideLine d line gain).1.length = 4 := by
  unfold slideLine
  split <;> simp

example : slideLine .left [1, 1, 1, 1] 0 = ([2, 2, 0, 0], 8) := by decide
example : slideLine .left [2, 1, 1, 0] 0 = ([2, 2, 0, 0], 4) := by decide
example : slideLine .right [1, 0, 0, 1] 0 = ([0, 0, 0, 2], 4) := by decide

/-- The cells, row by row. -/
structure Board where
  rows : List (List UInt8)
  height : rows.length = 4
  width : ∀ row ∈ rows, row.length = 4
deriving DecidableEq

@[ext] lemma Board.ext {b b' : Board} (h : b.rows = b'.rows) : b = b' := by
  cases b; cases b'; simpa using h

namespace Board

variable (b : Board)

def empty : Board := ⟨List.replicate 4 (List.replicate 4 0), rfl, by simp⟩

/-- `g2_cell[y][x]`. -/
def at_ (y x : ℕ) : UInt8 := (b.rows.getD y []).getD x 0

def set (y x : ℕ) (v : UInt8) : Board where
  rows := b.rows.set y ((b.rows.getD y []).set x v)
  height := by rw [List.length_set, b.height]
  width row hrow := by
    rcases List.mem_or_eq_of_mem_set hrow with hrow | rfl
    · exact b.width row hrow
    rw [List.length_set]
    rcases Nat.lt_or_ge y b.rows.length with hy | hy
    · rw [List.getD_eq_getElem _ _ hy]
      exact b.width _ (List.getElem_mem hy)
    · rw [List.set_eq_of_length_le hy] at hrow
      exact absurd (b.width _ hrow) (by rw [List.getD_eq_default _ _ hy]; simp)

/-- The columns as rows. -/
def transpose : Board where
  rows := (List.range 4).map fun i => b.rows.map (·.getD i 0)
  height := by simp
  width row hrow := by
    obtain ⟨i, _, rfl⟩ := List.mem_map.mp hrow
    rw [List.length_map, b.height]

/-- The board whose rows are the lines of a direction; taken twice it is the board itself. -/
def along (d : Dir) : Board := if d.onRows then b else b.transpose

end Board

/-- Lines slid one after the other, each adding to the gain. -/
def slideLines (d : Dir) : List (List UInt8) → UInt32 → List (List UInt8) × UInt32
  | [], gain => ([], gain)
  | line :: lines, gain =>
    let out := slideLine d line gain
    let rest := slideLines d lines out.2
    (out.1 :: rest.1, rest.2)

lemma slideLines_shape (d : Dir) (lines : List (List UInt8)) (gain : UInt32) :
    (slideLines d lines gain).1.length = lines.length ∧
      ∀ line ∈ (slideLines d lines gain).1, line.length = 4 := by
  induction lines generalizing gain with
  | nil => simp [slideLines]
  | cons line lines ih =>
    obtain ⟨hlen, hall⟩ := ih (slideLine d line gain).2
    refine ⟨by simp [slideLines, hlen], fun l hl => ?_⟩
    rcases List.mem_cons.mp hl with rfl | hl
    · exact length_slideLine d line gain
    · exact hall l hl

def slid (d : Dir) (b : Board) : Board :=
  Board.along ⟨(slideLines d (b.along d).rows 0).1,
    by rw [(slideLines_shape d _ 0).1, (b.along d).height], (slideLines_shape d _ 0).2⟩ d

/-- What the merges of a move add to the score. -/
def gain (d : Dir) (b : Board) : UInt32 := (slideLines d (b.along d).rows 0).2

/-- Whether a line differs from the line before the move. -/
def changed (d : Dir) (b : Board) : Bool := (slideLines d (b.along d).rows 0).1 ≠ (b.along d).rows

/-- The empty cells, as column and row, row by row. -/
def empties (b : Board) : List (ℕ × ℕ) :=
  (List.range 4).flatMap fun y =>
    ((List.range 4).filter fun x => b.at_ y x = 0).map fun x => (x, y)

/-- Two numbers of the generator: which empty cell, and which of ten. -/
structure Draw where
  place : UInt32
  ten : UInt32

def spawnTile (draw : Draw) (b : Board) : Board :=
  let n := (empties b).length
  if n = 0 then b
  else
    let i := rngRange draw.place n.toUInt32
    let cell := (empties b).getD i.toNat (0, 0)
    b.set cell.2 cell.1 (if rngRange draw.ten 10 = 0 then 2 else 1)

def canMove (b : Board) : Bool :=
  (List.range 4).any fun y => (List.range 4).any fun x =>
    b.at_ y x = 0 || (x + 1 < 4 && b.at_ y x = b.at_ y (x + 1)) ||
      (y + 1 < 4 && b.at_ y x = b.at_ (y + 1) x)

structure State where
  cell : Board
  score : UInt32
  isOver : Bool
  overFull : Bool
  exitRequest : Bool
deriving DecidableEq

def enter (first second : Draw) (s : State) : State :=
  { s with
    cell := spawnTile second (spawnTile first .empty)
    score := 0
    isOver := false
    overFull := false }

def moveDir (d : Dir) (draw : Draw) (s : State) : State :=
  if changed d s.cell then
    let cell := spawnTile draw (slid d s.cell)
    { s with cell := cell, score := s.score + gain d s.cell, isOver := s.isOver || !canMove cell }
  else { s with cell := slid d s.cell }

/-- A key, with what the pause overlay would answer and what the generator would draw. -/
structure Event where
  ev : KeyEvent
  pause : PauseSel
  first : Draw
  second : Draw

def onPause (e : Event) (s : State) : State :=
  match e.pause with
  | .resume => s
  | .restart => enter e.first e.second s
  | .quit => { s with exitRequest := true }

/-- A key pressed while the game goes on. -/
def press (e : Event) (s : State) : State :=
  match e.ev.key with
  | .left => moveDir .left e.first s
  | .right => moveDir .right e.first s
  | .up => moveDir .up e.first s
  | .down => moveDir .down e.first s
  | .char =>
    if e.ev.ch = code 'a' then moveDir .left e.first s
    else if e.ev.ch = code 'd' then moveDir .right e.first s
    else if e.ev.ch = code 'w' then moveDir .up e.first s
    else if e.ev.ch = code 's' then moveDir .down e.first s
    else if e.ev.ch = code 'n' then enter e.first e.second s
    else s
  | .pause => onPause e s
  | .back => onPause e s
  | .quit => { s with exitRequest := true }
  | _ => s

def onKey (s : State) (e : Event) : State :=
  if e.ev.isRepeat then s
  else if s.isOver then
    if e.ev.key = .ok ∨ e.ev.key = .char ∧ e.ev.ch = code 'n' then enter e.first e.second s
    else if e.ev.key = .back ∨ e.ev.key = .quit then { s with exitRequest := true }
    else s
  else press e s

inductive Pat
  | empty | corners | dotSparse | dotDense | slashS | slashS2 | slashD | hline | grid | cross | solid
deriving DecidableEq

def pats : List Pat :=
  [.empty, .empty, .corners, .dotSparse, .dotDense, .slashS, .slashS2, .slashD, .hline, .grid,
    .cross, .solid]

/-- The digits of a number, the last one first, seven at most. -/
def digits : ℕ → UInt32 → List Char
  | 0, _ => []
  | n + 1, val => if val = 0 then [] else Char.ofNat (48 + (val % 10).toNat) :: digits n (val / 10)

inductive Drawn
  | outline
  | tile (heavy thick : Bool) (pattern : Pat) (text : List Char)
deriving DecidableEq

/-- How a cell is drawn; `none` when the pattern is read outside its table. -/
def drawTile (v : UInt8) : Option Drawn :=
  if v = 0 then some .outline
  else
    pats[v.toNat]?.map fun pattern =>
      let val : UInt32 := 1 <<< v.toUInt32
      .tile (7 ≤ v) (9 ≤ v) pattern (if val = 0 then ['0'] else (digits 7 val).reverse)

structure Frame where
  tiles : List (List Drawn)
  score : UInt32
  isOver : Bool
  forceFull : Bool

def render (s : State) : Option (Frame × State) :=
  (s.cell.rows.mapM fun row : List UInt8 => row.mapM drawTile).map fun tiles =>
    (⟨tiles, s.score, s.isOver, s.isOver && !s.overFull⟩,
      { s with overFull := s.overFull || s.isOver })

example : drawTile 11 = some (.tile true true .solid "2048".toList) := by decide

/-- What the main loop does with the game: pass a key on, or have the board drawn. -/
inductive Turn
  | key (e : Event)
  | draw

def step (s : State) : Turn → State
  | .key e => onKey s e
  | .draw => ((render s).map (·.2)).getD s

def run (s : State) (turns : List Turn) : State := turns.foldl step s

def start (first second : Draw) : State := enter first second ⟨.empty, 0, false, false, false⟩

end C1auncher.Games.G2048

/-!
A slid line is the line merged from its leading end: the loops in place against the rule of the
game.
-/

namespace C1auncher.Games.G2048

open Merging List Function

/-! ### The loops -/

lemma take_succ_set {t : List UInt8} {j : ℕ} (h : j < t.length) (v : UInt8) :
    (t.set j v).take (j + 1) = t.take j ++ [v] := by
  rw [set_eq_take_append_cons_drop, if_pos h, ← singleton_append, ← append_assoc]
  exact take_left' (by simp [Nat.min_eq_left h.le])

lemma foldl_shift (k j : ℕ) (t : List UInt8) (h : j + k < t.length) :
    (range' j k).foldl (fun t i => t.set i (t.getD (i + 1) 0)) t =
      t.take j ++ ((t.drop (j + 1)).take k ++ t.drop (j + k)) := by
  induction k generalizing j t with
  | zero => simp
  | succ k ih =>
    have hdrop : t.drop (j + 1) = t.getD (j + 1) 0 :: t.drop (j + 2) := by
      rw [getD_eq_getElem _ _ (by omega), drop_eq_getElem_cons (by omega)]
    rw [range'_succ, foldl_cons, ih _ _ (by rw [List.length_set]; omega),
      take_succ_set (by omega), drop_set_of_lt (by omega), drop_set_of_lt (by omega),
      hdrop, take_succ_cons, show j + 1 + k = j + (k + 1) by omega]
    simp

lemma shiftDown_dropLast {tmp : List UInt8} {j : ℕ} (h : j < tmp.length) :
    (shiftDown tmp j).dropLast = tmp.take j ++ tmp.drop (j + 1) := by
  have hlast : tmp.drop (j + (tmp.length - 1 - j)) = [tmp[tmp.length - 1]] := by
    rw [show j + (tmp.length - 1 - j) = tmp.length - 1 by omega,
      drop_eq_getElem_cons (by omega), drop_of_length_le (by omega)]
  rw [shiftDown, foldl_shift _ _ _ (by omega), hlast, ← append_assoc, dropLast_concat,
    take_of_length_le (i := tmp.length - 1 - j) (by rw [length_drop]; omega)]

lemma foldl_reverse (tmp : List UInt8) (m : ℕ) (hm : m ≤ tmp.length / 2) (k : ℕ) :
    ((List.range m).foldl (fun t i => (t.set i (t.getD (tmp.length - 1 - i) 0)).set
      (tmp.length - 1 - i) (t.getD i 0)) tmp).length = tmp.length ∧
    (k < tmp.length → ((List.range m).foldl (fun t i => (t.set i
      (t.getD (tmp.length - 1 - i) 0)).set (tmp.length - 1 - i) (t.getD i 0)) tmp).getD k 0 =
      if k < m ∨ tmp.length ≤ k + m then tmp.getD (tmp.length - 1 - k) 0 else tmp.getD k 0) := by
  induction m generalizing k with
  | zero => exact ⟨rfl, fun hk => by rw [if_neg (by omega)]; rfl⟩
  | succ m ih =>
    rw [range_succ, foldl_append, foldl_cons, foldl_nil]
    generalize hl : (List.range m).foldl _ tmp = l at ih ⊢
    have hm' : m ≤ tmp.length / 2 := by omega
    have hlen : l.length = tmp.length := (ih hm' 0).1
    refine ⟨by rw [List.length_set, List.length_set, hlen], fun hk => ?_⟩
    have hset : ∀ (t : List UInt8) (i : ℕ) (v : UInt8), i < t.length →
        (t.set i v).getD k 0 = if i = k then v else t.getD k 0 := by
      intro t i v hi
      rw [getD_eq_getElem?_getD, getElem?_set, getD_eq_getElem?_getD]
      split_ifs <;> simp
    rw [hset _ _ _ (by rw [List.length_set, hlen]; omega), hset _ _ _ (by rw [hlen]; omega),
      (ih hm' m).2 (by omega), (ih hm' (tmp.length - 1 - m)).2 (by omega), (ih hm' k).2 hk]
    split_ifs <;> first | omega | rfl | (congr 1; omega)

lemma reverse_eq (tmp : List UInt8) : reverse tmp = tmp.reverse := by
  have h := foldl_reverse tmp (tmp.length / 2) le_rfl
  have hlen : (reverse tmp).length = tmp.length := (h 0).1
  refine ext_getElem (by rw [hlen, length_reverse]) fun k hk hk' => ?_
  have hk'' : k < tmp.length := by omega
  have hval : (reverse tmp).getD k 0 = _ := (h k).2 hk''
  rw [← getD_eq_getElem _ 0 hk, hval, getElem_reverse,
    ← getD_eq_getElem _ 0 (by omega)]
  split_ifs with hc
  · rfl
  · rw [show tmp.length - 1 - k = k by omega]

/-- The score of tiles made by merging. -/
def worth (tiles : List UInt8) : UInt32 := (tiles.map fun v => (1 : UInt32) <<< v.toUInt32).sum

/-- **Merging in place from a place on leaves the tiles before it and merges those from it on.** -/
theorem mergeFrom_eq (n : ℕ) (tmp : List UInt8) (gain : UInt32) (i : ℕ) (h : tmp.length ≤ n + i) :
    mergeFrom n tmp gain i =
      (tmp.take i ++ merge (· + 1) (tmp.drop i), gain + worth (merged (· + 1) (tmp.drop i))) := by
  induction n generalizing tmp gain i with
  | zero =>
    rw [drop_of_length_le (by omega), take_of_length_le (by omega)]
    simp [mergeFrom, worth]
  | succ n ih =>
    rw [mergeFrom]
    split_ifs with hi heq
    · -- the tile at `i` takes its neighbour in
      have hdrop : tmp.drop i = tmp.getD i 0 :: tmp.getD i 0 :: tmp.drop (i + 2) := by
        conv_rhs => rw [heq]
        conv_rhs => rw [← heq]
        rw [drop_eq_getElem_cons (by omega), drop_eq_getElem_cons (by omega),
          ← getD_eq_getElem _ 0, ← getD_eq_getElem _ 0, ← heq]
      have htmp : (shiftDown (tmp.set i (tmp.getD i 0 + 1)) (i + 1)).dropLast =
          tmp.take i ++ [tmp.getD i 0 + 1] ++ tmp.drop (i + 2) := by
        rw [shiftDown_dropLast (by rw [List.length_set]; omega), drop_set_of_lt (by omega),
          take_succ_set (by omega)]
      have hlen : (tmp.take i ++ [tmp.getD i 0 + 1]).length = i + 1 := by
        simp; omega
      simp only
      rw [htmp, ih _ _ _ (by rw [length_append, hlen, length_drop]; omega),
        take_left' hlen, drop_left' hlen, hdrop, merge_same, merged_same]
      simp [worth, add_assoc]
    · have hdrop : tmp.drop i = tmp.getD i 0 :: tmp.getD (i + 1) 0 :: tmp.drop (i + 2) := by
        rw [drop_eq_getElem_cons (by omega), drop_eq_getElem_cons (by omega),
          ← getD_eq_getElem _ 0, ← getD_eq_getElem _ 0]
      have hdrop' : tmp.drop (i + 1) = tmp.getD (i + 1) 0 :: tmp.drop (i + 2) := by
        rw [drop_eq_getElem_cons (by omega), ← getD_eq_getElem _ 0]
      rw [ih _ _ _ (by omega), hdrop, merge_of_ne heq, merged_of_ne heq, ← hdrop',
        show tmp.take (i + 1) = tmp.take i ++ [tmp.getD i 0] by
          rw [take_add_one, getElem?_eq_getElem (by omega),
            getD_eq_getElem _ _ (by omega)]
          rfl, append_assoc]
      rfl
    · have hsplit := take_append_drop i tmp
      rcases hl : tmp.drop i with _ | ⟨a, _ | ⟨b, rest⟩⟩
      · rw [hl] at hsplit; simp [worth, hsplit]
      · rw [hl] at hsplit; simp [worth, hsplit]
      have := congrArg List.length hl
      simp at this
      omega

/-! ### A line -/

/-- A line as its direction reads it: from the end that the tiles slide to. -/
def facing (d : Dir) (line : List UInt8) : List UInt8 := if d.far then line.reverse else line

@[simp] lemma facing_facing (d : Dir) (line : List UInt8) : facing d (facing d line) = line := by
  unfold facing; split <;> simp

@[simp] lemma length_facing (d : Dir) (line : List UInt8) :
    (facing d line).length = line.length := by
  unfold facing; split <;> simp

/-- **The rule of the game for a line whose tiles slide to its front**: the tiles without the gaps,
equal neighbours merged once from the front, the empty cells behind. -/
def settle (line : List UInt8) : List UInt8 :=
  merge (· + 1) (pack line) ++ List.replicate (4 - (merge (· + 1) (pack line)).length) 0

def made (d : Dir) (line : List UInt8) : List UInt8 := merged (· + 1) (pack (facing d line))

lemma length_pack_le (line : List UInt8) : (pack line).length ≤ line.length :=
  length_filter_le _ _

lemma map_range_front (tmp : List UInt8) (h : tmp.length ≤ 4) :
    ((List.range 4).map fun i => if i < tmp.length then tmp.getD i 0 else 0) =
      tmp ++ replicate (4 - tmp.length) 0 := by
  refine ext_getElem (by simp; omega) fun i hi _ => ?_
  rw [getElem_map, getElem_range]
  split_ifs with hlt
  · rw [getElem_append_left hlt, getD_eq_getElem _ _ hlt]
  · rw [getElem_append_right (by omega), getElem_replicate]

lemma map_range_back (tmp : List UInt8) (h : tmp.length ≤ 4) :
    ((List.range 4).map fun i =>
      if 4 - tmp.length ≤ i then tmp.getD (i - (4 - tmp.length)) 0 else 0) =
      replicate (4 - tmp.length) 0 ++ tmp := by
  refine ext_getElem (by simp; omega) fun i hi _ => ?_
  simp only [length_map, length_range] at hi
  rw [getElem_map, getElem_range]
  split_ifs with hle
  · rw [getElem_append_right (by simpa using hle), getD_eq_getElem _ _ (by omega)]
    simp
  · rw [getElem_append_left (by simp; omega), getElem_replicate]

/-- **A line slides as the rule says, read from the end of its direction**, and the gain grows by
the tiles that its merges make. -/
theorem slideLine_eq (d : Dir) {line : List UInt8} (h : line.length = 4) (gain : UInt32) :
    slideLine d line gain = (facing d (settle (facing d line)), gain + worth (made d line)) := by
  have hlen : ∀ l : List UInt8, l.length = 4 → (merge (· + 1) (pack l)).length ≤ 4 := by
    intro l hl
    have := @length_merge _ _ (· + 1) (pack l)
    have := length_pack_le l
    omega
  have hmerge : ∀ l : List UInt8, l.length = 4 → mergeFrom 4 (pack l) gain 0 =
      (merge (· + 1) (pack l), gain + worth (merged (· + 1) (pack l))) := by
    intro l hl
    have := length_pack_le l
    rw [mergeFrom_eq 4 _ _ _ (by omega)]
    simp
  unfold slideLine
  split_ifs with hfar
  · simp only [hmerge _ (show line.reverse.length = 4 by simp [h]), reverse_eq]
    have := map_range_back (merge (· + 1) (pack line.reverse)).reverse
      (by rw [length_reverse]; exact hlen _ (by simp [h]))
    simp only [length_reverse] at this ⊢
    rw [this]
    simp [facing, hfar, settle, made]
  · simp only [hmerge _ h]
    rw [map_range_front _ (hlen _ h)]
    simp [facing, hfar, settle, made]

/-! ### A board -/

@[simp] lemma transpose_transpose (b : Board) : b.transpose.transpose = b := by
  refine Board.ext (ext_getElem (by simp [Board.transpose, b.height]) fun y hy hy' => ?_)
  have hrow := b.width _ (getElem_mem hy')
  simp only [Board.transpose, map_map, getElem_map, getElem_range]
  refine ext_getElem (by simp [hrow]) fun x hx hx' => ?_
  simp only [getElem_map, getElem_range, comp]
  rw [getD_eq_getElem _ _ (by simpa using hy')]
  simp only [getElem_map]
  rw [getD_eq_getElem _ _ hx']

@[simp] lemma along_along (d : Dir) (b : Board) : (b.along d).along d = b := by
  unfold Board.along; split <;> simp

lemma slideLines_eq (d : Dir) {lines : List (List UInt8)} (h : ∀ line ∈ lines, line.length = 4)
    (gain : UInt32) :
    slideLines d lines gain = (lines.map fun line => facing d (settle (facing d line)),
      gain + (lines.map fun line => worth (made d line)).sum) := by
  induction lines generalizing gain with
  | nil => simp [slideLines]
  | cons line lines ih =>
    rw [slideLines, slideLine_eq d (h line mem_cons_self),
      ih fun l hl => h l (mem_cons_of_mem _ hl)]
    simp [add_assoc]

/-- **Every line of a moved board is the line before it, settled.** -/
theorem slid_along (d : Dir) (b : Board) :
    ((slid d b).along d).rows =
      (b.along d).rows.map fun line => facing d (settle (facing d line)) := by
  rw [slid, along_along]
  exact congrArg Prod.fst (slideLines_eq d (b.along d).width 0)

lemma gain_eq (d : Dir) (b : Board) :
    gain d b = ((b.along d).rows.map fun line => worth (made d line)).sum := by
  rw [gain, slideLines_eq d (b.along d).width]
  simp

lemma changed_iff {d : Dir} {b : Board} : changed d b = true ↔ slid d b ≠ b := by
  rw [changed, decide_eq_true_iff, not_iff_not, slid]
  constructor
  · intro h
    rw [← along_along d b]
    congr 1
    exact Board.ext (by simpa using h)
  · intro h
    have := congrArg (fun c : Board => (c.along d).rows) h
    simpa using this

/-- A board mirrored along a direction: every line turned round. -/
def mirror (d : Dir) (b : Board) : Board :=
  Board.along ⟨(b.along d).rows.map List.reverse, by rw [List.length_map, (b.along d).height],
    fun row hrow => by
      obtain ⟨line, hline, rfl⟩ := List.mem_map.mp hrow
      rw [List.length_reverse, (b.along d).width line hline]⟩ d

def Dir.opposite : Dir → Dir
  | .left => .right
  | .right => .left
  | .up => .down
  | .down => .up

lemma facing_opposite (d : Dir) (line : List UInt8) :
    facing d.opposite line = facing d line.reverse ∧
      facing d.opposite line = (facing d line).reverse := by
  cases d <;> simp [facing, Dir.opposite, Dir.far]

lemma along_opposite (d : Dir) (b : Board) : b.along d.opposite = b.along d := by
  cases d <;> rfl

lemma mirror_along (d : Dir) (b : Board) :
    ((mirror d b).along d).rows = (b.along d).rows.map List.reverse := by
  rw [mirror, along_along]

/-- **A move in the opposite direction of the mirrored board is the mirrored move**, with the same
gain. -/
theorem slid_opposite (d : Dir) (b : Board) :
    slid d.opposite (mirror d b) = mirror d (slid d b) ∧
      gain d.opposite (mirror d b) = gain d b := by
  have hrow : ∀ line : List UInt8, facing d.opposite line.reverse = facing d line := by
    intro line
    rw [(facing_opposite d _).1, reverse_reverse]
  constructor
  · rw [← along_along d (slid _ _), ← along_along d (mirror d (slid d b))]
    congr 1
    refine Board.ext ?_
    rw [mirror_along, slid_along, ← along_opposite d (slid _ _), slid_along, along_opposite,
      mirror_along, map_map, map_map]
    refine map_congr_left fun line _ => ?_
    simp only [comp, hrow]
    exact (facing_opposite d _).2
  · rw [gain_eq, gain_eq, along_opposite, mirror_along, map_map]
    simp only [comp_def, made, hrow]

end C1auncher.Games.G2048
