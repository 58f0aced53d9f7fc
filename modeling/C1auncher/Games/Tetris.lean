import C1auncher.Games.Cards
import Mathlib.Data.Int.Notation
import Mathlib.Data.List.GetD
import Mathlib.Data.List.Perm.Subperm
import Mathlib.Tactic.Push
import Mathlib.Logic.Function.Basic

/-!
Tetris on fourteen by eleven cells: the pieces and their bag, the lock, the tick and the keys.
-/

namespace C1auncher.Games.Tetris

open Input List Nat

abbrev width : ℕ := 14

abbrev height : ℕ := 11

abbrev Row := Fin width → UInt8

/-- The rows from the top; in a cell `0` is empty, otherwise the number of a piece and one. -/
abbrev Field := ℕ → Row

/-- Column and row; a piece may reach out of the field. -/
abbrev Cell := ℤ × ℤ

def emptyRow : Row := fun _ => 0

/-- The four turns of each piece, four bits a row. -/
def pieces : List (List UInt16) :=
  [[0x0F00, 0x2222, 0x00F0, 0x4444], [0x6600, 0x6600, 0x6600, 0x6600],
    [0x0E40, 0x4C40, 0x4E00, 0x4640], [0x06C0, 0x4620, 0x06C0, 0x4620],
    [0x0C60, 0x2640, 0x0C60, 0x2640], [0x0E80, 0x44C0, 0x02E0, 0x6440],
    [0x0E20, 0x4460, 0x6220, 0xC440]]

def pieceMask (p r : UInt8) : UInt16 := (pieces.getD p.toNat []).getD (r &&& 3).toNat 0

/-- The cells a piece covers, row by row. -/
def pieceCells (p r : UInt8) (px py : ℤ) : List Cell :=
  (List.range 4).flatMap fun j => (List.range 4).filterMap fun i =>
    if (pieceMask p r).toNat.testBit (15 - (j * 4 + i)) then some (px + i, py + j) else none

/-- What the field holds in a cell. -/
def at_ (field : Field) (c : Cell) : UInt8 :=
  if h : c.1.toNat < width then field c.2.toNat ⟨c.1.toNat, h⟩ else 0

def collides (field : Field) (px py : ℤ) (p r : UInt8) : Bool :=
  (pieceCells p r px py).any fun c =>
    c.1 < 0 || (width : ℤ) ≤ c.1 || (height : ℤ) ≤ c.2 || (0 ≤ c.2 && at_ field c != 0)

/-- The last two fields are a record that nobody reads: the pieces taken from the bag, and how often
the piece has been exchanged since the last one was locked. -/
structure State where
  field : Field
  piece : UInt8
  rot : UInt8
  px : ℤ
  py : ℤ
  next : UInt8
  hold : UInt8
  holdUsed : Bool
  bag : List UInt8
  bagIdx : ℕ
  score : UInt32
  lines : UInt32
  gravityMs : UInt32
  alive : Bool
  paused : Bool
  started : Bool
  exitRequest : Bool
  taken : List UInt8
  holds : ℕ

/-- The falling piece would touch something at a place and in a turn. -/
def State.blocked (s : State) (px py : ℤ) (r : UInt8) : Bool := collides s.field px py s.piece r

/-! ### The bag -/

/-- The numbers that the generator would give, one for each place of the bag. -/
abbrev Draws := ℕ → UInt32

/-- An empty bag is shuffled again. -/
def bagFill (draws : Draws) (s : State) : State :=
  if 7 ≤ s.bagIdx then
    { s with
      bag := [6, 5, 4, 3, 2, 1].foldl
        (fun bag i => Cards.swap bag i (rngRange (draws i) (i.toUInt32 + 1)).toNat) s.bag
      bagIdx := 0 }
  else s

/-- The next piece of the bag waits for its turn. -/
def bagTake (draws : Draws) (s : State) : State :=
  let s := bagFill draws s
  let p := s.bag.getD s.bagIdx 0
  { s with next := p, bagIdx := s.bagIdx + 1, taken := s.taken ++ [p] }

/-- The piece comes in at the top; the game is over if it has no room. -/
def spawn (s : State) : State :=
  let s := { s with rot := 0, px := 5, py := -1 }
  if s.blocked s.px s.py s.rot then { s with alive := false } else s

def doHold (draws : Draws) (s : State) : State :=
  if s.holdUsed then s
  else
    let s :=
      if s.hold = 0 then bagTake draws { s with hold := s.piece + 1, piece := s.next }
      else { s with piece := s.hold - 1, hold := s.piece + 1 }
    spawn { s with holdUsed := true, holds := s.holds + 1 }

/-- An empty field and a full bag. -/
def reset (s : State) : State :=
  { s with
    field := fun _ => emptyRow
    bag := Cards.deck 7
    bagIdx := 7
    score := 0
    lines := 0
    gravityMs := 700
    alive := true
    paused := false
    started := false
    hold := 0
    holdUsed := false
    taken := []
    holds := 0 }

def enter (draws : Draws) (s : State) : State :=
  let s := bagTake draws (reset s)
  spawn (bagTake draws { s with piece := s.next })

/-! ### The lock -/

def outside (c : Cell) : Bool :=
  c.1 < 0 || (width : ℤ) ≤ c.1 || c.2 < 0 || (height : ℤ) ≤ c.2

/-- The field with a cell written. -/
def put (field : Field) (c : Cell) (v : UInt8) : Field :=
  fun y x => if (y : ℤ) = c.2 ∧ ((x : ℕ) : ℤ) = c.1 then v else field y x

/-- Writes cell after cell; a cell that is not in the field ends it, and the answer is `false`. -/
def place (v : UInt8) : List Cell → Field → Field × Bool
  | [], field => (field, true)
  | c :: cells, field => if outside c then (field, false) else place v cells (put field c v)

def isFull (row : Row) : Bool := (List.finRange width).all fun x => row x != 0

/-- The rows above row `y` move down by one. -/
def pulled (y : ℕ) (field : Field) : Field :=
  Function.update
    ((List.range' 1 y).reverse.foldl (fun field r => Function.update field r (field (r - 1))) field)
    0 emptyRow

/-- The rows below `n` are looked at from the last one up; a row that rows have moved into is looked
at again. -/
def clearRows : ℕ → ℕ → Field → ℕ → Option (Field × ℕ)
  | 0, _, _, _ => none
  | _ + 1, 0, field, cleared => some (field, cleared)
  | fuel + 1, y + 1, field, cleared =>
    if isFull (field y) then clearRows fuel (y + 1) (pulled y field) (cleared + 1)
    else clearRows fuel y field cleared

def points : List UInt32 := [0, 100, 300, 500, 800]

/-- What the rows cleared are worth. -/
def scored (cleared : ℕ) (s : State) : Option State :=
  if cleared = 0 then some s
  else do
    let pts ← points[cleared]?
    let lines := s.lines + cleared.toUInt32
    some { s with
      lines
      score := s.score + pts * (lines / 5 + 1)
      gravityMs := if 300 < s.gravityMs then s.gravityMs - 50 else s.gravityMs }

def lockPiece (draws : Draws) (s : State) : Option State :=
  let (field, inside) := place (s.piece + 1) (pieceCells s.piece s.rot s.px s.py) s.field
  if inside then do
    -- each turn passes a row or takes a full one away
    let (field, cleared) ← clearRows (2 * height + 1) height field 0
    let s ← scored cleared { s with field }
    some (spawn { bagTake draws { s with piece := s.next } with holdUsed := false, holds := 0 })
  else some { s with field, alive := false }

/-- The piece falls until it lies on something. -/
def fall : ℕ → State → Option State
  | 0, _ => none
  | fuel + 1, s =>
    if s.blocked s.px (s.py + 1) s.rot then some s else fall fuel { s with py := s.py + 1 }

def hardDrop (draws : Draws) (s : State) : Option State := do
  let s ← fall (height + 2) s
  lockPiece draws { s with score := s.score + 10 }

/-! ### The tick and the keys -/

def tick (draws : Draws) (s : State) : Option State :=
  if !s.alive || s.paused || !s.started then some s
  else if !s.blocked s.px (s.py + 1) s.rot then some { s with py := s.py + 1 }
  else lockPiece draws s

def down (s : State) : State :=
  if !s.blocked s.px (s.py + 1) s.rot then { s with py := s.py + 1 } else s

def sideways (d : ℤ) (s : State) : State :=
  if !s.blocked (s.px + d) s.py s.rot then { s with px := s.px + d } else s

/-- The next turn where the piece is, else one to the left, else one to the right. -/
def rotate (s : State) : State :=
  let nr := (s.rot + 1) &&& 3
  if !s.blocked s.px s.py nr then { s with rot := nr }
  else if !s.blocked (s.px - 1) s.py nr then { s with px := s.px - 1, rot := nr }
  else if !s.blocked (s.px + 1) s.py nr then { s with px := s.px + 1, rot := nr }
  else s

/-- The letter keys of a game that goes on. -/
def letter (draws : Draws) (ch : UInt8) (s : State) : State :=
  if ch = code 'a' ∧ !s.blocked (s.px - 1) s.py s.rot then { s with px := s.px - 1 }
  else if ch = code 'd' ∧ !s.blocked (s.px + 1) s.py s.rot then { s with px := s.px + 1 }
  else if ch = code 'w' then rotate s
  else if ch = code 's' then down s
  else if ch = code 'h' then doHold draws s
  else s

/-- A key pressed in a game that goes on. -/
def press (ev : KeyEvent) (pause : PauseSel) (draws : Draws) (s : State) : Option State :=
  match ev.key with
  | .left => some (sideways (-1) s)
  | .right => some (sideways 1 s)
  | .char => some (letter draws ev.ch s)
  | .up => some (rotate s)
  | .down => some (down s)
  | .ok => hardDrop draws s
  | .space => hardDrop draws s
  | .pause => some { s with paused := !s.paused }
  | .back =>
    match pause with
    | .resume => some s
    | .restart => some (enter draws s)
    | .quit => some { s with exitRequest := true }
  | .quit => some { s with exitRequest := true }
  | _ => some s

def onKey (ev : KeyEvent) (pause : PauseSel) (draws : Draws) (s : State) : Option State :=
  if ev.isRepeat then
    if ev.key = .down ∧ s.started ∧ s.alive ∧ !s.paused then some (down s) else some s
  else if !s.alive then
    if ev.key = .ok ∨ ev.key = .char ∧ ev.ch = code 'n' then some (enter draws s)
    else if ev.key = .back ∨ ev.key = .quit then some { s with exitRequest := true }
    else some s
  else if !s.started then
    if ev.key = .ok ∨ ev.key = .space ∨ ev.key = .char ∧ ev.ch = code 'w' then
      some { s with started := true }
    else some s
  else if s.paused then some s
  else press ev pause draws s

/-- A tick or a key, with what the pause overlay would answer and what the generator would give. -/
inductive Event
  | tick (draws : Draws)
  | key (ev : KeyEvent) (pause : PauseSel) (draws : Draws)

def next (s : State) : Event → Option State
  | .tick draws => tick draws s
  | .key ev pause draws => onKey ev pause draws s

def run (s : State) (events : List Event) : Option State := events.foldlM next s

/-! ### What a game of tetris keeps -/

/-- The piece would lie inside the walls and above the floor, on empty cells. -/
def Fits (s : State) (px py : ℤ) (r : UInt8) : Prop :=
  ∀ c ∈ pieceCells s.piece r px py,
    0 ≤ c.1 ∧ c.1 < width ∧ c.2 < height ∧ (0 ≤ c.2 → at_ s.field c = 0)

/-- The rows of the field from the top. -/
def rows (field : Field) : List Row := (List.range height).map field

/-- The field with some cells written. -/
def stamp (v : UInt8) (cells : List Cell) (field : Field) : Field :=
  fun y x => if (((x : ℕ) : ℤ), (y : ℤ)) ∈ cells then v else field y x

/-- The field with the falling piece in it. -/
def stamped (s : State) : Field :=
  stamp (s.piece + 1) (pieceCells s.piece s.rot s.px s.py) s.field

/-- The number of rows that the falling piece fills. -/
def cleared (s : State) : ℕ := (rows (stamped s)).countP isFull

/-- The piece is locked where it lies; the rows that are full go, the others keep their order. -/
structure Lands (s s' : State) : Prop where
  inside : ∀ c ∈ pieceCells s.piece s.rot s.px s.py, 0 ≤ c.2
  few : cleared s ≤ 4
  rows : rows s'.field =
    List.replicate (cleared s) emptyRow ++ (rows (stamped s)).filter fun row => !isFull row
  lines : s'.lines = s.lines + (cleared s).toUInt32
  score : s'.score = s.score + points.getD (cleared s) 0 * (s'.lines / 5 + 1)
  piece : s'.piece = s.next
  hold : s'.hold = s.hold

/-- The piece reaches out of the field where it lies: the game is over. -/
structure Sticks (s s' : State) : Prop where
  above : ∃ c ∈ pieceCells s.piece s.rot s.px s.py, c.2 < 0
  field : s'.field = s.field
  alive : s'.alive = false

/-- The piece falls as far as it goes, and stays there. -/
def Locks (s s' : State) : Prop :=
  ∃ (k : ℕ) (score : UInt32), (∀ j ≤ k, Fits s s.px (s.py + j) s.rot) ∧
    ¬ Fits s s.px (s.py + k + 1) s.rot ∧
    (Lands { s with py := s.py + k, score } s' ∨ Sticks { s with py := s.py + k, score } s')

/-- The falling piece changes places with the piece in the slot, or with the next one. -/
structure Exchanges (s s' : State) : Prop where
  unused : s.holdUsed = false
  used : s'.holdUsed = true
  hold : s'.hold = s.piece + 1
  piece : s'.piece = if s.hold = 0 then s.next else s.hold - 1
  field : s'.field = s.field

/-- Only the place and the turn of the falling piece change. -/
structure Stays (s s' : State) : Prop where
  field : s'.field = s.field
  piece : s'.piece = s.piece
  next : s'.next = s.next
  hold : s'.hold = s.hold
  taken : s'.taken = s.taken
  score : s'.score = s.score
  lines : s'.lines = s.lines

def Playing (s : State) : Prop := s.alive = true ∧ s.paused = false ∧ s.started = true

/-- A tick that finds the piece lying on something, or a key that drops it. -/
def Locking (s : State) (e : Event) : Prop :=
  Playing s ∧
    ((∃ draws, e = .tick draws ∧ ¬ Fits s s.px (s.py + 1) s.rot) ∨
      ∃ ev pause draws, e = .key ev pause draws ∧ ev.isRepeat = false ∧
        (ev.key = .ok ∨ ev.key = .space))

/-- **What an event may do.** -/
def Follows (s : State) (e : Event) (s' : State) : Prop :=
  (Locking s e ∧ Locks s s') ∨
    (¬ Locking s e ∧ (Stays s s' ∨ Exchanges s s' ∨ ∃ draws, s' = enter draws s))

/-- The seven pieces of each bag are different. -/
def InBags (taken : List UInt8) : Prop := ∀ k, ((taken.drop (7 * k)).take 7).Nodup

/-! ### The cells of a piece -/

variable {s : State}

lemma mem_pieceCells {p r : UInt8} {px py : ℤ} {c : Cell} :
    c ∈ pieceCells p r px py ↔ ∃ j < 4, ∃ i < 4,
      (pieceMask p r).toNat.testBit (15 - (j * 4 + i)) = true ∧ (px + (i : ℤ), py + (j : ℤ)) = c := by
  simp [pieceCells]

/-- Every piece covers a cell. -/
lemma exists_cell {p : UInt8} (hp : p < 7) (r : UInt8) (px py : ℤ) :
    ∃ c ∈ pieceCells p r px py, py ≤ c.2 := by
  have hr : (r &&& 3).toNat < 4 := by
    rw [UInt8.toNat_and]
    exact lt_succ_of_le and_le_right
  have hall : ∀ p < 7, ∀ r < 4, ∃ j < 4, ∃ i < 4,
      ((pieces.getD p []).getD r 0).toNat.testBit (15 - (j * 4 + i)) = true := by decide
  obtain ⟨j, hj, i, hi, hbit⟩ := hall p.toNat (UInt8.lt_iff_toNat_lt.mp hp) _ hr
  exact ⟨_, mem_pieceCells.mpr ⟨j, hj, i, hi, hbit, rfl⟩, by simp⟩

/-- The cells come row by row. -/
lemma pairwise_pieceCells (p r : UInt8) (px py : ℤ) :
    (pieceCells p r px py).Pairwise fun c d => c.2 ≤ d.2 := by
  rw [pieceCells, pairwise_flatMap]
  have hrow : ∀ j c, c ∈ ((List.range 4).filterMap fun i =>
      if (pieceMask p r).toNat.testBit (15 - (j * 4 + i)) then some (px + (i : ℤ), py + (j : ℤ))
      else none) → c.2 = py + j := by
    intro j c hc
    simp only [mem_filterMap, Option.ite_none_right_eq_some, Option.some.injEq] at hc
    obtain ⟨i, -, -, rfl⟩ := hc
    rfl
  constructor
  · intro j _
    exact pairwise_of_forall_mem_list fun c hc d hd => by rw [hrow j c hc, hrow j d hd]
  refine List.pairwise_lt_range.imp fun {j k} hjk c hc d hd => ?_
  rw [hrow j c hc, hrow k d hd]
  omega

lemma blocked_iff {px py : ℤ} {r : UInt8} : s.blocked px py r = false ↔ Fits s px py r := by
  simp only [State.blocked, collides, Fits, any_eq_false]
  refine forall₂_congr fun c _ => ?_
  simp only [Bool.or_eq_true, decide_eq_true_eq, Bool.and_eq_true, bne_iff_ne, not_or, not_and,
    not_not, not_lt, not_le, and_assoc]

/-! ### Locking -/

lemma place_of_inside (v : UInt8) {cells : List Cell} (h : ∀ c ∈ cells, outside c = false)
    (field : Field) : place v cells field = (stamp v cells field, true) := by
  induction cells generalizing field with
  | nil =>
    have hnil : stamp v [] field = field :=
      funext fun _ => funext fun _ => if_neg not_mem_nil
    rw [hnil]
    rfl
  | cons c cells ih =>
    rw [place, if_neg (by simp [h c mem_cons_self]),
      ih (fun d hd => h d (mem_cons_of_mem _ hd))]
    refine Prod.ext (funext fun y => funext fun x => ?_) rfl
    dsimp only [put, stamp]
    obtain ⟨cx, cy⟩ := c
    by_cases hmem : (((x : ℕ) : ℤ), (y : ℤ)) ∈ cells
    · rw [if_pos hmem, if_pos (mem_cons_of_mem _ hmem)]
    rw [if_neg hmem]
    refine if_congr ?_ rfl rfl
    simp only [mem_cons, Prod.mk.injEq, hmem, or_false]
    exact and_comm

/-- A piece that reaches above the field writes nothing, its highest cells coming first. -/
lemma place_of_above (v : UInt8) {cells : List Cell} (hrows : cells.Pairwise fun c d => c.2 ≤ d.2)
    (h : ∃ c ∈ cells, c.2 < 0) (field : Field) : place v cells field = (field, false) := by
  obtain ⟨c, hc, habove⟩ := h
  cases cells with
  | nil => exact absurd hc not_mem_nil
  | cons d cells =>
    have hd : d.2 < 0 := by
      rcases List.mem_cons.mp hc with rfl | hmem
      · exact habove
      · exact lt_of_le_of_lt (rel_of_pairwise_cons hrows hmem) habove
    rw [place, if_pos (by simp [outside, hd])]

lemma isFull_emptyRow : isFull emptyRow = false := by decide

lemma pulled_apply (y : ℕ) (field : Field) (r : ℕ) :
    pulled y field r = if r = 0 then emptyRow else if r ≤ y then field (r - 1) else field r := by
  have hfold : ∀ y (field : Field) r, r ≠ 0 →
      (range' 1 y).reverse.foldl (fun field r => Function.update field r (field (r - 1))) field
        r = if r ≤ y then field (r - 1) else field r := by
    intro y
    induction y with
    | zero => intro field r hr; simp [hr]
    | succ y ih =>
      intro field r hr
      rw [range'_1_concat, reverse_append, reverse_singleton, singleton_append,
        foldl_cons, ih _ r hr]
      by_cases hlt : r ≤ y
      · rw [if_pos hlt, if_pos (by omega), Function.update_of_ne (by omega)]
      rw [if_neg hlt]
      by_cases heq : r = 1 + y
      · rw [heq, Function.update_self, if_pos (by omega)]
      · rw [Function.update_of_ne heq, if_neg (by omega)]
  by_cases hr : r = 0
  · rw [if_pos hr, pulled, hr, Function.update_self]
  · rw [if_neg hr, pulled, Function.update_of_ne hr, hfold y field r hr]

/-- The rows above row `n`, and those from it on. -/
def upper (n : ℕ) (field : Field) : List Row := (List.range n).map field

def lower (n : ℕ) (field : Field) : List Row := (List.range' n (height - n)).map field

lemma upper_succ (y : ℕ) (field : Field) : upper (y + 1) field = upper y field ++ [field y] := by
  rw [upper, range_succ, map_append, map_singleton, upper]

lemma lower_of_lt {y : ℕ} (h : y < height) (field : Field) :
    lower y field = field y :: lower (y + 1) field := by
  rw [lower, show height - y = height - (y + 1) + 1 by omega, range'_succ, map_cons,
    lower]

lemma upper_pulled (y : ℕ) (field : Field) :
    upper (y + 1) (pulled y field) = emptyRow :: upper y field := by
  rw [upper, range_succ_eq_map, map_cons, map_map, pulled_apply, if_pos rfl, upper]
  refine congrArg _ (map_congr_left fun r hr => ?_)
  have := List.mem_range.mp hr
  rw [Function.comp_apply, pulled_apply, if_neg (by omega), if_pos (by omega)]
  rfl

lemma lower_pulled (y : ℕ) (field : Field) :
    lower (y + 1) (pulled y field) = lower (y + 1) field := by
  refine map_congr_left fun r hr => ?_
  have := (List.mem_range'_1.mp hr).1
  rw [pulled_apply, if_neg (by omega), if_neg (by omega)]

/-- **The loop that clears rows** ends, takes the full rows out and puts as many empty ones on
top. -/
theorem clearRows_spec : ∀ fuel n field k, n ≤ height →
    n + (upper n field).countP isFull < fuel →
    ∃ field', clearRows fuel n field k = some (field', k + (upper n field).countP isFull) ∧
      rows field' = List.replicate ((upper n field).countP isFull) emptyRow ++
        ((upper n field).filter fun row => !isFull row) ++ lower n field := by
  intro fuel
  induction fuel with
  | zero => intro n field k _ hlt; omega
  | succ fuel ih =>
    intro n field k hn hlt
    cases n with
    | zero => exact ⟨field, rfl, by simp [upper, lower, rows, range_eq_range']⟩
    | succ y =>
      rw [clearRows]
      rw [upper_succ, countP_append, countP_singleton] at hlt
      cases hfull : isFull (field y) with
      | true =>
        rw [if_pos rfl]
        rw [hfull, if_pos rfl] at hlt
        have hcount : (upper (y + 1) (pulled y field)).countP isFull
            = (upper y field).countP isFull := by
          rw [upper_pulled, countP_cons_of_neg (by simp [isFull_emptyRow])]
        obtain ⟨field', hsome, hrows⟩ := ih (y + 1) (pulled y field) (k + 1) hn
          (by rw [hcount]; omega)
        rw [hcount] at hsome hrows
        refine ⟨field', ?_, ?_⟩
        · rw [hsome, upper_succ, countP_append, countP_singleton, hfull, if_pos rfl]
          congr 2
          omega
        rw [hrows, upper_pulled, lower_pulled, upper_succ, countP_append,
          countP_singleton, hfull, if_pos rfl, filter_append, replicate_succ',
          filter_cons_of_pos (by simp [isFull_emptyRow])]
        simp [hfull]
      | false =>
        rw [if_neg (by simp)]
        rw [hfull, if_neg (by simp)] at hlt
        obtain ⟨field', hsome, hrows⟩ := ih y field k (by omega) (by omega)
        refine ⟨field', ?_, ?_⟩
        · rw [hsome, upper_succ, countP_append, countP_singleton, hfull]
          rfl
        rw [hrows, lower_of_lt hn, upper_succ, countP_append, countP_singleton, hfull,
          filter_append]
        simp [hfull]

/-- Rows that a piece of four rows completes are four at most. -/
lemma cleared_le (hwhole : ∀ y < height, isFull (s.field y) = false) : cleared s ≤ 4 := by
  have hmem : ∀ y < height, isFull (stamped s y) = true →
      y ∈ (List.range 4).map fun j : ℕ => (s.py + j).toNat := by
    intro y hy hfull
    have hopen := hwhole y hy
    rw [isFull, all_eq_false] at hopen
    obtain ⟨x, -, hx⟩ := hopen
    have hx' := List.all_eq_true.mp hfull x (mem_finRange x)
    by_cases hcell : (((x : ℕ) : ℤ), (y : ℤ)) ∈ pieceCells s.piece s.rot s.px s.py
    · obtain ⟨j, hj, i, -, -, heq⟩ := mem_pieceCells.mp hcell
      have hrow : s.py + j = y := (Prod.mk.inj heq).2
      exact List.mem_map.mpr ⟨j, List.mem_range.mpr hj, by rw [hrow, Int.toNat_natCast]⟩
    · rw [stamped, stamp, if_neg hcell] at hx'
      exact absurd hx' hx
  have hsub : ((List.range height).filter fun y => isFull (stamped s y)).Subperm
      ((List.range 4).map fun j : ℕ => (s.py + j).toNat) := by
    refine List.Nodup.subperm (List.nodup_range.filter _) fun y hy => ?_
    obtain ⟨hrange, hfull⟩ := List.mem_filter.mp hy
    exact hmem y (List.mem_range.mp hrange) hfull
  have hlen := hsub.length_le
  rw [length_map, length_range, ← countP_eq_length_filter] at hlen
  rw [cleared, rows, countP_map]
  exact hlen

lemma scored_spec (s : State) {k : ℕ} (hk : k ≤ 4) : ∃ lines score gravityMs,
    scored k s = some { s with lines, score, gravityMs } ∧ lines = s.lines + k.toUInt32 ∧
      score = s.score + points.getD k 0 * (lines / 5 + 1) := by
  by_cases hzero : k = 0
  · refine ⟨s.lines, s.score, s.gravityMs, ?_, ?_, ?_⟩
    · rw [scored, if_pos hzero]
    · simp [hzero]
    · simp [hzero, points]
  have hpts : points[k]? = some (points.getD k 0) := by
    have hlt : k < points.length := lt_succ_of_le hk
    rw [getElem?_eq_getElem hlt, getD_eq_getElem _ _ hlt]
  exact ⟨_, _, _, by rw [scored, if_neg hzero, hpts]; rfl, rfl, rfl⟩

/-! ### The bag -/

/-- The pieces taken and those left in the bag are whole bags. -/
structure Dealt (bag : List UInt8) (bagIdx : ℕ) (taken : List UInt8) : Prop where
  perm : bag.Perm (Cards.deck 7)
  idx : bagIdx ≤ 7
  bags : ∃ bags : List (List UInt8),
    (∀ b ∈ bags, b.Perm (Cards.deck 7)) ∧ taken ++ bag.drop bagIdx = bags.flatten

lemma lt_of_mem_deck {p : UInt8} (h : p ∈ Cards.deck 7) : p < 7 := by
  have hall : (Cards.deck 7).all (· < 7) = true := by decide
  exact of_decide_eq_true (List.all_eq_true.mp hall p h)

lemma nodup_deck : (Cards.deck 7).Nodup := by decide

/-- The bag that a full one is shuffled into. -/
lemma Dealt.fill {s : State} (h : Dealt s.bag s.bagIdx s.taken) (draws : Draws) :
    ∃ bag bagIdx, bagFill draws s = { s with bag, bagIdx } ∧ Dealt bag bagIdx s.taken ∧
      bagIdx < 7 := by
  unfold bagFill
  by_cases hidx : 7 ≤ s.bagIdx
  · rw [if_pos hidx]
    have hlen := h.perm.length_eq
    have hperm := Cards.swaps_perm draws [6, 5, 4, 3, 2, 1] s.bag
      (by rw [hlen]; decide) (by rw [hlen]; decide)
    refine ⟨_, 0, rfl, ⟨hperm.trans h.perm, Nat.zero_le 7, ?_⟩, by decide⟩
    obtain ⟨bags, hbags, heq⟩ := h.bags
    rw [drop_eq_nil_of_le (by rw [hlen]; exact hidx), append_nil] at heq
    refine ⟨bags ++ [_], fun b hb => ?_, by rw [flatten_append, ← heq, flatten_singleton,
      drop_zero]⟩
    rcases List.mem_append.mp hb with hold | hnew
    · exact hbags b hold
    · rw [List.mem_singleton.mp hnew]
      exact hperm.trans h.perm
  · rw [if_neg hidx]
    exact ⟨s.bag, s.bagIdx, rfl, h, not_le.mp hidx⟩

/-- **The next piece comes from the bag.** -/
lemma Dealt.take {s : State} (h : Dealt s.bag s.bagIdx s.taken) (draws : Draws) :
    ∃ next bag bagIdx taken, bagTake draws s = { s with next, bag, bagIdx, taken } ∧ next < 7 ∧
      Dealt bag bagIdx taken := by
  obtain ⟨bag, bagIdx, hfill, hdealt, hidx⟩ := h.fill draws
  have hlt : bagIdx < bag.length := by rw [hdealt.perm.length_eq]; exact hidx
  refine ⟨bag.getD bagIdx 0, bag, bagIdx + 1, s.taken ++ [bag.getD bagIdx 0], ?_, ?_, hdealt.perm,
    hidx, ?_⟩
  · rw [bagTake, hfill]
  · rw [getD_eq_getElem _ _ hlt]
    exact lt_of_mem_deck (hdealt.perm.mem_iff.mp (getElem_mem hlt))
  obtain ⟨bags, hbags, heq⟩ := hdealt.bags
  refine ⟨bags, hbags, ?_⟩
  rw [← heq, append_assoc, getD_eq_getElem _ _ hlt, singleton_append, getElem_cons_drop]

lemma nodup_window {bags : List (List UInt8)} (hbags : ∀ b ∈ bags, b.Perm (Cards.deck 7)) (k : ℕ) :
    ((bags.flatten.drop (7 * k)).take 7).Nodup := by
  induction bags generalizing k with
  | nil => simp
  | cons b bags ih =>
    have hb := hbags b mem_cons_self
    have hlen : b.length = 7 := hb.length_eq
    rw [List.flatten_cons]
    cases k with
    | zero =>
      rw [Nat.mul_zero, drop_zero, take_left' hlen]
      exact hb.nodup_iff.mpr nodup_deck
    | succ k =>
      rw [mul_succ, Nat.add_comm, ← drop_drop, drop_left' hlen]
      exact ih (fun c hc => hbags c (mem_cons_of_mem _ hc)) k

lemma Dealt.inBags {bag taken : List UInt8} {bagIdx : ℕ} (h : Dealt bag bagIdx taken) :
    InBags taken := by
  obtain ⟨bags, hbags, heq⟩ := h.bags
  intro k
  have hwindow := nodup_window hbags k
  rw [← heq] at hwindow
  refine hwindow.sublist (List.IsPrefix.sublist ?_)
  exact (prefix_append taken _).drop (7 * k) |>.take 7

/-! ### The invariant -/

/-- What holds before a piece comes in. -/
structure Ready (s : State) : Prop where
  whole : ∀ y < height, isFull (s.field y) = false
  piece : s.piece < 7
  next : s.next < 7
  hold : s.hold ≤ 7
  dealt : Dealt s.bag s.bagIdx s.taken
  once : s.holds ≤ 1 ∧ (s.holdUsed = false → s.holds = 0)

/-- **What holds in every state of a game.** -/
structure Kept (s : State) : Prop where
  ready : Ready s
  fits : s.alive = true → Fits s s.px s.py s.rot
  top : -1 ≤ s.py

lemma Ready.spawn (h : Ready s) : Kept (Tetris.spawn s) := by
  unfold Tetris.spawn
  dsimp only
  split
  · exact ⟨{ h with },
      fun ha => absurd ha Bool.false_ne_true, le_refl _⟩
  rename_i hfree
  exact ⟨{ h with },
    fun _ => blocked_iff.mp (Bool.not_eq_true _ ▸ hfree), le_refl _⟩

lemma spawn_fields (s : State) : ∃ px py rot alive, spawn s = { s with px, py, rot, alive } := by
  unfold spawn
  dsimp only
  split
  exacts [⟨_, _, _, _, rfl⟩, ⟨_, _, _, _, rfl⟩]

lemma Lands.spawn {t : State} (h : Lands s t) : Lands s (Tetris.spawn t) := by
  obtain ⟨px, py, rot, alive, heq⟩ := spawn_fields t
  rw [heq]
  exact { h with }

lemma Exchanges.spawn {t : State} (h : Exchanges s t) : Exchanges s (Tetris.spawn t) := by
  obtain ⟨px, py, rot, alive, heq⟩ := spawn_fields t
  rw [heq]
  exact { h with }

/-- A game just entered, whatever the memory held. -/
lemma kept_enter (draws : Draws) (s : State) : Kept (enter draws s) := by
  have hreset : Dealt (reset s).bag (reset s).bagIdx (reset s).taken :=
    ⟨.refl _, le_refl 7, [], by simp, by rfl⟩
  obtain ⟨next, bag, bagIdx, taken, heq, hnext, hdealt⟩ := hreset.take draws
  obtain ⟨next', bag', bagIdx', taken', heq', hnext', hdealt'⟩ :=
    Dealt.take (s := { (bagTake draws (reset s)) with piece := (bagTake draws (reset s)).next })
      (by rw [heq]; exact hdealt) draws
  have hready : Ready (bagTake draws
      { (bagTake draws (reset s)) with piece := (bagTake draws (reset s)).next }) := by
    rw [heq', heq]
    exact ⟨fun _ _ => isFull_emptyRow, hnext, hnext', show (0 : UInt8) ≤ 7 by decide, hdealt',
      ⟨Nat.zero_le 1, fun _ => rfl⟩⟩
  exact hready.spawn

lemma succ_le_seven {p : UInt8} (h : p < 7) : p + 1 ≤ 7 := by
  rw [UInt8.lt_iff_toNat_lt] at h
  rw [UInt8.le_iff_toNat_le, UInt8.toNat_add]
  have : (7 : UInt8).toNat = 7 := rfl
  have : (1 : UInt8).toNat = 1 := rfl
  omega

lemma pred_lt_seven {p : UInt8} (h : p ≤ 7) (hne : p ≠ 0) : p - 1 < 7 := by
  rw [UInt8.le_iff_toNat_le] at h
  have hpos : p.toNat ≠ 0 := fun h0 => hne (UInt8.toNat_inj.mp h0)
  have : (7 : UInt8).toNat = 7 := rfl
  have : (1 : UInt8).toNat = 1 := rfl
  rw [UInt8.lt_iff_toNat_lt, UInt8.toNat_sub_of_le _ _ (by rw [UInt8.le_iff_toNat_le]; omega)]
  omega

/-! ### What the moves do -/

/-- The falling piece is somewhere else, where it fits. -/
def Moved (s s' : State) : Prop :=
  ∃ px py rot, s' = { s with px, py, rot } ∧ (s.alive = true → Fits s px py rot) ∧ -1 ≤ py

lemma Kept.moved {s s' : State} (h : Kept s) (hm : Moved s s') : Kept s' ∧ Stays s s' := by
  obtain ⟨px, py, rot, rfl, hfits, htop⟩ := hm
  exact ⟨⟨{ h.ready with },
    hfits, htop⟩, ⟨rfl, rfl, rfl, rfl, rfl, rfl, rfl⟩⟩

lemma Kept.same {s : State} (h : Kept s) : Moved s s := ⟨s.px, s.py, s.rot, rfl, h.fits, h.top⟩

lemma moved_of_free {px py : ℤ} {r : UInt8} (hfree : (!s.blocked px py r) = true) (htop : -1 ≤ py) :
    Moved s { s with px, py, rot := r } :=
  ⟨px, py, r, rfl, fun _ => blocked_iff.mp (by simpa using hfree), htop⟩

lemma Kept.moved_down (h : Kept s) : Moved s (down s) := by
  unfold down
  split
  · rename_i hfree
    exact moved_of_free hfree (by have := h.top; omega)
  · exact h.same

lemma Kept.moved_sideways (h : Kept s) (d : ℤ) : Moved s (sideways d s) := by
  unfold sideways
  split
  · rename_i hfree
    exact moved_of_free hfree h.top
  · exact h.same

lemma Kept.moved_rotate (h : Kept s) : Moved s (rotate s) := by
  unfold rotate
  dsimp only
  split_ifs with hhere hleft hright
  · exact moved_of_free hhere h.top
  · exact moved_of_free hleft h.top
  · exact moved_of_free hright h.top
  · exact h.same

/-- **Holding** puts the falling piece into the slot, once for each piece. -/
lemma Kept.doHold (h : Kept s) (draws : Draws) :
    Kept (Tetris.doHold draws s) ∧
      (Tetris.doHold draws s = s ∨ Exchanges s (Tetris.doHold draws s)) := by
  obtain ⟨hwhole, hpiece, hnext, hhold, hdealt, hle, hunused⟩ := h.ready
  unfold Tetris.doHold
  by_cases hheld : s.holdUsed = true
  · rw [if_pos hheld]
    exact ⟨h, .inl rfl⟩
  have hused : s.holdUsed = false := Bool.not_eq_true _ ▸ hheld
  have honce : s.holds + 1 ≤ 1 := by rw [hunused hused]
  rw [if_neg hheld]
  by_cases hempty : s.hold = 0
  · obtain ⟨next, bag, bagIdx, taken, heq, hlt, hbag⟩ :=
      Dealt.take (s := { s with hold := s.piece + 1, piece := s.next }) hdealt draws
    simp only [if_pos hempty, heq]
    exact ⟨Ready.spawn ⟨hwhole, hnext, hlt, succ_le_seven hpiece, hbag, honce, nofun⟩,
      .inr (Exchanges.spawn ⟨hused, rfl, rfl, (if_pos hempty).symm, rfl⟩)⟩
  · simp only [if_neg hempty]
    exact ⟨Ready.spawn ⟨hwhole, pred_lt_seven hhold hempty, hnext, succ_le_seven hpiece, hdealt,
      honce, nofun⟩, .inr (Exchanges.spawn ⟨hused, rfl, rfl, (if_neg hempty).symm, rfl⟩)⟩

/-- **Locking** a piece that fits. -/
lemma Kept.lockPiece (h : Kept s) (hfits : Fits s s.px s.py s.rot) (draws : Draws) :
    ∃ s', Tetris.lockPiece draws s = some s' ∧ Kept s' ∧ (Lands s s' ∨ Sticks s s') := by
  obtain ⟨hwhole, hpiece, hnext, hhold, hdealt, honce⟩ := h.ready
  unfold Tetris.lockPiece
  by_cases habove : ∃ c ∈ pieceCells s.piece s.rot s.px s.py, c.2 < 0
  · rw [place_of_above _ (pairwise_pieceCells ..) habove]
    exact ⟨_, rfl, ⟨⟨hwhole, hpiece, hnext, hhold, hdealt, honce⟩,
      fun ha => absurd ha Bool.false_ne_true, h.top⟩, .inr ⟨habove, rfl, rfl⟩⟩
  push Not at habove
  have hinside : ∀ c ∈ pieceCells s.piece s.rot s.px s.py, outside c = false := by
    intro c hc
    obtain ⟨h0, h1, h2, -⟩ := hfits c hc
    have := habove c hc
    simp only [outside, Bool.or_eq_false_iff, decide_eq_false_iff_not]
    omega
  have hfew : cleared s ≤ 4 := cleared_le hwhole
  have hupper : (upper height (stamped s)).countP isFull = cleared s := rfl
  obtain ⟨field, hclear, hrows⟩ := clearRows_spec (2 * height + 1) height (stamped s) 0 le_rfl
    (by rw [hupper, height]; omega)
  rw [hupper] at hclear hrows
  rw [Nat.zero_add] at hclear
  have hlower : lower height (stamped s) = [] := rfl
  rw [hlower, append_nil] at hrows
  have hopen : ∀ y < height, isFull (field y) = false := by
    intro y hy
    have hmem : field y ∈ rows field := mem_map_of_mem (List.mem_range.mpr hy)
    rw [hrows] at hmem
    rcases List.mem_append.mp hmem with hempty | hold
    · rw [eq_of_mem_replicate hempty]
      exact isFull_emptyRow
    · simpa using (List.mem_filter.mp hold).2
  obtain ⟨lines, score, gravityMs, hscored, hlines, hscore⟩ := scored_spec { s with field } hfew
  obtain ⟨next, bag, bagIdx, taken, heq, hlt, hbag⟩ :=
    Dealt.take (s := { s with field, lines, score, gravityMs, piece := s.next }) hdealt draws
  rw [place_of_inside _ hinside]
  change ∃ s', (if true = true then clearRows (2 * height + 1) height (stamped s) 0 >>= _
    else _) = some s' ∧ _
  rw [if_pos rfl, hclear, Option.bind_eq_bind, Option.bind_some]
  simp only [hscored, Option.bind_eq_bind, Option.bind_some, heq]
  exact ⟨_, rfl, Ready.spawn ⟨hopen, hnext, hlt, hhold, hbag, Nat.zero_le 1, fun _ => rfl⟩,
    .inl (Lands.spawn ⟨habove, hfew, hrows, hlines, hscore, rfl, rfl⟩)⟩

/-- **A dropped piece comes to lie on something.** -/
lemma fall_spec (hpiece : s.piece < 7) : ∀ (fuel : ℕ) (t : State), t.piece = s.piece →
    Fits t t.px t.py t.rot → (height : ℤ) ≤ t.py + fuel →
    ∃ k : ℕ, fall fuel t = some { t with py := t.py + k } ∧
      (∀ j ≤ k, Fits t t.px (t.py + j) t.rot) ∧ ¬ Fits t t.px (t.py + k + 1) t.rot := by
  intro fuel
  induction fuel with
  | zero =>
    intro t hp hfits hdeep
    obtain ⟨c, hc, hrow⟩ := exists_cell (hp ▸ hpiece) t.rot t.px t.py
    have := (hfits c hc).2.2.1
    simp only [cast_zero, add_zero] at hdeep
    omega
  | succ fuel ih =>
    intro t hp hfits hdeep
    rw [fall]
    cases hblocked : t.blocked t.px (t.py + 1) t.rot with
    | true =>
      refine ⟨0, by simp, fun j hj => ?_, fun hf => ?_⟩
      · rw [Nat.le_zero.mp hj, cast_zero, add_zero]
        exact hfits
      · rw [cast_zero, add_zero, ← blocked_iff, hblocked] at hf
        exact Bool.false_ne_true hf.symm
    | false =>
      have hbelow := blocked_iff.mp hblocked
      rw [if_neg Bool.false_ne_true]
      have hdeep' : (height : ℤ) ≤ t.py + 1 + fuel := by
        rw [cast_succ] at hdeep
        rwa [add_right_comm, add_assoc]
      obtain ⟨k, hfall, hfit, hstop⟩ := ih { t with py := t.py + 1 } hp hbelow hdeep'
      refine ⟨k + 1, ?_, fun j hj => ?_, ?_⟩
      · rw [hfall]
        simp only [Option.some.injEq, cast_add, cast_one, State.mk.injEq, true_and, and_true]
        omega
      · cases j with
        | zero => rw [cast_zero, add_zero]; exact hfits
        | succ j =>
          have := hfit j (le_of_succ_le_succ hj)
          rwa [show t.py + 1 + (j : ℤ) = t.py + ((j + 1 : ℕ) : ℤ) by push_cast; omega] at this
      · rwa [show t.py + 1 + (k : ℤ) + 1 = t.py + ((k + 1 : ℕ) : ℤ) + 1 by push_cast; omega] at hstop

lemma Kept.hardDrop (h : Kept s) (halive : s.alive = true) (draws : Draws) :
    ∃ s', Tetris.hardDrop draws s = some s' ∧ Kept s' ∧ Locks s s' := by
  have htop := h.top
  obtain ⟨k, hfall, hfit, hstop⟩ := fall_spec h.ready.piece (height + 2) s rfl (h.fits halive)
    (by simp only [height]; push_cast; omega)
  have hk : Kept { s with py := s.py + k, score := s.score + 10 } :=
    ⟨{ h.ready with },
      fun _ => hfit k le_rfl, by simp only; omega⟩
  obtain ⟨s', hlock, hkept, hends⟩ := hk.lockPiece (hfit k le_rfl) draws
  refine ⟨s', ?_, hkept, k, s.score + 10, hfit, hstop, hends⟩
  rw [Tetris.hardDrop, hfall]
  exact hlock

/-! ### The events -/

lemma Kept.tick (h : Kept s) (hplaying : Playing s) (draws : Draws) :
    ∃ s', Tetris.tick draws s = some s' ∧ Kept s' ∧
      ((Fits s s.px (s.py + 1) s.rot ∧ Stays s s') ∨
        (¬ Fits s s.px (s.py + 1) s.rot ∧ Locks s s')) := by
  obtain ⟨halive, hpaused, hstarted⟩ := hplaying
  rw [Tetris.tick, if_neg (by simp [halive, hpaused, hstarted])]
  by_cases hfree : (!s.blocked s.px (s.py + 1) s.rot) = true
  · rw [if_pos hfree]
    obtain ⟨hkept, hstays⟩ :=
      h.moved (moved_of_free hfree (by have := h.top; omega) : Moved s _)
    exact ⟨_, rfl, hkept, .inl ⟨blocked_iff.mp (by simpa using hfree), hstays⟩⟩
  rw [if_neg hfree]
  have hstop : ¬ Fits s s.px (s.py + 1) s.rot := by
    rw [← blocked_iff]
    simpa using hfree
  obtain ⟨s', hlock, hkept, hends⟩ := h.lockPiece (h.fits halive) draws
  refine ⟨s', hlock, hkept, .inr ⟨hstop, 0, s.score, fun j hj => ?_, ?_, ?_⟩⟩
  · rw [Nat.le_zero.mp hj, cast_zero, add_zero]
    exact h.fits halive
  · rwa [cast_zero, add_zero]
  · rwa [cast_zero, add_zero]

/-- What a key may do that drops no piece. -/
def Keyed (s s' : State) : Prop := Stays s s' ∨ Exchanges s s' ∨ ∃ draws, s' = enter draws s

/-- The flags that a key sets. -/
lemma Kept.flags (h : Kept s) (paused started exitRequest : Bool) :
    Kept { s with paused, started, exitRequest } ∧
      Keyed s { s with paused, started, exitRequest } :=
  ⟨⟨{ h.ready with },
    h.fits, h.top⟩, .inl ⟨rfl, rfl, rfl, rfl, rfl, rfl, rfl⟩⟩

lemma Kept.keyed {s' : State} (h : Kept s) (hm : Moved s s') : Kept s' ∧ Keyed s s' :=
  (h.moved hm).imp_right .inl

lemma Kept.entered (draws : Draws) (s : State) : Kept (enter draws s) ∧ Keyed s (enter draws s) :=
  ⟨kept_enter draws s, .inr (.inr ⟨draws, rfl⟩)⟩

lemma Kept.letter (h : Kept s) (draws : Draws) (ch : UInt8) :
    Kept (Tetris.letter draws ch s) ∧ Keyed s (Tetris.letter draws ch s) := by
  unfold Tetris.letter
  split_ifs with hleft hright hturn hdown hhold
  · exact h.keyed (moved_of_free hleft.2 h.top)
  · exact h.keyed (moved_of_free hright.2 h.top)
  · exact h.keyed h.moved_rotate
  · exact h.keyed h.moved_down
  · obtain ⟨hkept, heq | hexchange⟩ := h.doHold draws
    · rw [heq]
      exact h.keyed h.same
    · exact ⟨hkept, .inr (.inl hexchange)⟩
  · exact h.keyed h.same

lemma Kept.press (h : Kept s) (halive : s.alive = true) (ev : KeyEvent) (pause : PauseSel)
    (draws : Draws) : ∃ s', Tetris.press ev pause draws s = some s' ∧ Kept s' ∧
      if ev.key = .ok ∨ ev.key = .space then Locks s s' else Keyed s s' := by
  unfold Tetris.press
  cases ev.key with
  | ok => simpa using h.hardDrop halive draws
  | space => simpa using h.hardDrop halive draws
  | left => exact ⟨_, rfl, h.keyed (h.moved_sideways (-1))⟩
  | right => exact ⟨_, rfl, h.keyed (h.moved_sideways 1)⟩
  | up => exact ⟨_, rfl, h.keyed h.moved_rotate⟩
  | down => exact ⟨_, rfl, h.keyed h.moved_down⟩
  | char => exact ⟨_, rfl, h.letter draws ev.ch⟩
  | pause => exact ⟨_, rfl, h.flags (!s.paused) s.started s.exitRequest⟩
  | quit => exact ⟨_, rfl, h.flags s.paused s.started true⟩
  | back =>
    cases pause with
    | resume => exact ⟨_, rfl, h.keyed h.same⟩
    | restart => exact ⟨_, rfl, Kept.entered draws s⟩
    | quit => exact ⟨_, rfl, h.flags s.paused s.started true⟩
  | _ => exact ⟨_, rfl, h.keyed h.same⟩

lemma Kept.next (h : Kept s) (e : Event) :
    ∃ s', Tetris.next s e = some s' ∧ Kept s' ∧ Follows s e s' := by
  have hsame : Kept s ∧ Keyed s s := h.keyed h.same
  cases e with
  | tick draws =>
    by_cases hplaying : Playing s
    · obtain ⟨s', hsome, hkept, ⟨hfree, hstays⟩ | ⟨hstop, hlocks⟩⟩ := h.tick hplaying draws
      · refine ⟨s', hsome, hkept, .inr ⟨?_, .inl hstays⟩⟩
        rintro ⟨-, ⟨_, -, hstop⟩ | ⟨_, _, _, he, -⟩⟩
        · exact hstop hfree
        · exact Event.noConfusion he
      · exact ⟨s', hsome, hkept, .inl ⟨⟨hplaying, .inl ⟨draws, rfl, hstop⟩⟩, hlocks⟩⟩
    · refine ⟨s, if_pos ?_, h, .inr ⟨fun hl => hplaying hl.1, hsame.2⟩⟩
      by_contra hno
      simp only [Bool.or_eq_true, Bool.not_eq_true', not_or, Bool.not_eq_false,
        Bool.not_eq_true] at hno
      exact hplaying ⟨hno.1.1, hno.1.2, hno.2⟩
  | key ev pause draws =>
    -- a key that drops no piece
    have hkeyed : ∀ s', Kept s' ∧ Keyed s s' →
        ¬ (Playing s ∧ ev.isRepeat = false ∧ (ev.key = .ok ∨ ev.key = .space)) →
        ∃ s'', some s' = some s'' ∧ Kept s'' ∧ Follows s (.key ev pause draws) s'' := by
      intro s' hs' hno
      refine ⟨s', rfl, hs'.1, .inr ⟨?_, hs'.2⟩⟩
      rintro ⟨hplaying, ⟨_, he, -⟩ | ⟨_, _, _, he, hrest⟩⟩
      · exact Event.noConfusion he
      · obtain ⟨rfl, -, -⟩ := Event.key.inj he
        exact hno ⟨hplaying, hrest⟩
    show ∃ s', onKey ev pause draws s = some s' ∧ _
    unfold onKey
    split_ifs with hrepeat hsoft halive hretry hexit hstarted hgo hpaused
    · exact hkeyed _ (h.keyed h.moved_down) fun hd => by simp [hrepeat] at hd
    · exact hkeyed _ hsame fun hd => by simp [hrepeat] at hd
    · exact hkeyed _ (Kept.entered draws s) fun hd => by simp [hd.1.1] at halive
    · exact hkeyed _ (h.flags s.paused s.started true) fun hd => by simp [hd.1.1] at halive
    · exact hkeyed _ hsame fun hd => by simp [hd.1.1] at halive
    · exact hkeyed _ (h.flags s.paused true s.exitRequest) fun hd => by simp [hd.1.2.2] at hstarted
    · exact hkeyed _ hsame fun hd => by simp [hd.1.2.2] at hstarted
    · exact hkeyed _ hsame fun hd => by simp [hd.1.2.1] at hpaused
    have ha : s.alive = true := by simpa using halive
    obtain ⟨s', hsome, hkept, hdoes⟩ := h.press ha ev pause draws
    by_cases hdrop : ev.key = .ok ∨ ev.key = .space
    · rw [if_pos hdrop] at hdoes
      exact ⟨s', hsome, hkept, .inl ⟨⟨⟨ha, by simpa using hpaused, by simpa using hstarted⟩,
        .inr ⟨ev, pause, draws, rfl, by simpa using hrepeat, hdrop⟩⟩, hdoes⟩⟩
    rw [if_neg hdrop] at hdoes
    rw [hsome]
    exact hkeyed s' ⟨hkept, hdoes⟩ fun hd => hdrop hd.2.2

lemma Kept.run (h : Kept s) (events : List Event) : ∃ t, Tetris.run s events = some t ∧ Kept t := by
  induction events generalizing s with
  | nil => exact ⟨s, rfl, h⟩
  | cons e events ih =>
    obtain ⟨s', hnext, hkept, -⟩ := h.next e
    obtain ⟨t, hrun, ht⟩ := ih hkept
    exact ⟨t, by rw [Tetris.run, foldlM_cons, hnext]; exact hrun, ht⟩

/-- **The field of tetris.** Whatever the memory held before, the events and the draws, every event
comes to its end and reads inside the table of points. While the game is on the falling piece lies
inside the walls on empty cells; no row is full; the pieces of each bag are different; and each
piece has been exchanged once at most. A piece falls as far as it goes before it is locked; at most
four rows are then cleared, and the others keep their order below as many empty ones. -/
theorem tetris (s : State) (draws : Draws) (events : List Event) :
    ∃ t, run (enter draws s) events = some t ∧
      (t.alive = true → Fits t t.px t.py t.rot) ∧ (∀ row ∈ rows t.field, isFull row = false) ∧
      InBags t.taken ∧ t.holds ≤ 1 ∧ ∀ e, ∃ t', next t e = some t' ∧ Follows t e t' := by
  obtain ⟨t, hrun, h⟩ := (kept_enter draws s).run events
  refine ⟨t, hrun, h.fits, fun row hrow => ?_, h.ready.dealt.inBags, h.ready.once.1, fun e => ?_⟩
  · obtain ⟨y, hy, rfl⟩ := List.mem_map.mp hrow
    exact h.ready.whole y (List.mem_range.mp hy)
  · obtain ⟨t', hnext, -, hfollows⟩ := h.next e
    exact ⟨t', hnext, hfollows⟩

def blank : State :=
  ⟨fun _ => emptyRow, 0, 0, 0, 0, 0, 0, false, [], 0, 0, 0, 0, false, false, false, false, [], 0⟩

/-- A key; the last draw of a shuffle brings the last piece to the front. -/
def pressing (key : Key) : Event :=
  .key ⟨key, 0, false⟩ .resume fun i => if i = 6 then 0 else i.toUInt32

/-- Six pieces are dropped, some of them beside the others. -/
def sixDrops : List Event :=
  ([.ok, .ok, .ok, .left, .left, .left, .ok, .ok, .right, .right, .right, .right, .ok, .ok] :
    List Key).map pressing

/-- Seven pieces taken one after another can be of two bags, and two of them the same. -/
theorem tetris_repeats : ¬ ∀ s draws events t, run (enter draws s) events = some t →
    ∀ k, ((t.taken.drop k).take 7).Nodup := by
  intro h
  have hcheck : ((run (enter (fun _ => 0) blank) sixDrops).any fun t =>
      !decide ((t.taken.drop 1).take 7).Nodup) = true := by decide +kernel
  obtain ⟨t, hrun, htwice⟩ := (Option.any_eq_true _ _).mp hcheck
  exact of_decide_eq_false ((Bool.not_eq_true' _).mp htwice) (h _ _ _ _ hrun 1)

end C1auncher.Games.Tetris
