import C1auncher.Games.Cards

/-!
Klondike with single cards: a stock that is flipped card by card onto the waste and taken back
from it, four foundations, and seven columns whose lower cards lie face down. A pile read below
its bottom, or grown out of its array, has no result.
-/

namespace C1auncher.Games.Klondike

open Input Cards

/-- The cursor: in the top row on the stock, the waste or a foundation, or on a column. -/
inductive Cursor
  | top (i : Fin 6) | table (c : Fin 7)
deriving DecidableEq

/-- A pile from which a card can be moved. -/
inductive Src
  | column (c : Fin 7) | waste
deriving DecidableEq

inductive Dst
  | column (c : Fin 7) | found (f : Fin 4)
deriving DecidableEq

inductive Under
  | nothing | stock | pile (src : Src)
deriving DecidableEq

/-- Every pile has its top card first. -/
structure State where
  deck : List UInt8
  waste : List UInt8
  found : Fin 4 → List UInt8
  tab : Fin 7 → List UInt8
  /-- How many cards of a column lie face down. -/
  fd : Fin 7 → ℕ
  cur : Cursor
  sel : Option Src
  moves : UInt32
  isOver : Bool
  exitRequest : Bool

/-- Ace is `1`, king `13`. -/
def rank (card : UInt8) : ℕ := card.toNat % 13 + 1

def suit (card : UInt8) : ℕ := card.toNat / 13

/-- Hearts and diamonds are red. -/
def color (card : UInt8) : Bool := card.toNat / 13 < 2

def deal (draws : ℕ → UInt32) (s : State) : State :=
  let cards := shuffle 52 draws
  { s with
    tab := fun c => (dealColumns cards [1, 2, 3, 4, 5, 6, 7]).getD c []
    fd := fun c => c
    deck := (cards.drop 28).reverse }

def resetState (s : State) : State :=
  { s with
    waste := []
    found := fun _ => []
    cur := .table 0
    sel := none
    moves := 0
    isOver := false }

def enter (draws : ℕ → UInt32) (s : State) : State := resetState (deal draws s)

def canGive (card : UInt8) (dst : Option Dst) (s : State) : Bool :=
  match dst with
  | some (.column c) =>
    match s.tab c with
    | [] => rank card == 13
    | top :: _ => color card != color top && rank card + 1 == rank top
  | some (.found f) =>
    match (s.found f).length with
    | 0 => suit card == f.val && rank card == 1
    | n => suit card == f.val && rank card == n + 1
  | none => false

def topCard (src : Src) (s : State) : Option UInt8 :=
  match src with
  | .waste => s.waste.head?
  | .column c => (s.tab c).head?

/-- The top card of a pile is taken; a card that lay face down below it is turned up. -/
def takeFrom (src : Src) (s : State) : State :=
  match src with
  | .waste => { s with waste := s.waste.tail }
  | .column c =>
    let rest := (s.tab c).tail
    { s with
      tab := Function.update s.tab c rest
      fd := if 0 < s.fd c ∧ s.fd c = rest.length then Function.update s.fd c (s.fd c - 1)
        else s.fd }

def putOn (card : UInt8) (dst : Dst) (s : State) : Option State :=
  match dst with
  | .column c => (push 52 card (s.tab c)).map fun pile =>
      { s with tab := Function.update s.tab c pile }
  | .found f => (push 13 card (s.found f)).map fun pile =>
      { s with found := Function.update s.found f pile }

/-- After a move the game is won if all foundations are full. -/
def settle (s : State) : State :=
  { s with
    moves := s.moves + 1
    isOver := s.isOver || (List.finRange 4).all fun f => (s.found f).length == 13 }

def sameColumn (src : Src) (dst : Option Dst) : Bool :=
  match src, dst with
  | .column c, some (.column c') => c = c'
  | _, _ => false

/-- A single card is moved; the flag tells whether it was. -/
def move (src : Src) (dst : Option Dst) (s : State) : Option (State × Bool) :=
  if sameColumn src dst then some (s, false)
  else
    (topCard src s).bind fun card =>
      match dst with
      | none => some (s, false)
      | some d =>
        if canGive card (some d) s then
          (putOn card d (takeFrom src s)).map fun s => (settle s, true)
        else some (s, false)

/-- The next card of the stock goes onto the waste; an empty stock is made of the whole waste. -/
def flip (s : State) : Option State :=
  if s.isOver then some s
  else
    match s.deck with
    | card :: deck => (push 52 card s.waste).map fun waste =>
        { s with deck := deck, waste := waste, moves := s.moves + 1 }
    | [] =>
      if s.waste = [] then some s
      else if s.waste.length ≤ 52 then
        some { s with deck := s.waste.reverse, waste := [], moves := s.moves + 1 }
      else none

def isLetter (ev : KeyEvent) (c : Char) : Bool := ev.key = .char ∧ ev.ch = code c

/-- The cursor goes round its row, or changes to the other one. -/
def cursorMove (ev : KeyEvent) (s : State) : State :=
  if ev.key = .left ∨ isLetter ev 'a' then
    { s with cur := match s.cur with | .top i => .top (i - 1) | .table c => .table (c - 1) }
  else if ev.key = .right ∨ isLetter ev 'd' then
    { s with cur := match s.cur with | .top i => .top (i + 1) | .table c => .table (c + 1) }
  else if ev.key = .up ∨ isLetter ev 'w' then
    { s with cur := match s.cur with | .top i => .top i | .table c => .top ⟨min c 5, by omega⟩ }
  else if ev.key = .down ∨ isLetter ev 's' then
    { s with cur := match s.cur with | .top i => .table ⟨i, by omega⟩ | .table c => .table c }
  else s

def srcAtCursor (s : State) : Under :=
  match s.cur with
  | .top i =>
    if i = 0 then .stock
    else if i = 1 ∧ s.waste ≠ [] then .pile .waste
    else .nothing
  | .table c => if s.tab c ≠ [] ∧ s.fd c < (s.tab c).length then .pile (.column c) else .nothing

def dstAtCursor (s : State) : Option Dst :=
  match s.cur with
  | .top i => if h : 2 ≤ i.val then some (.found ⟨i - 2, by omega⟩) else none
  | .table c => some (.column c)

/-- The cursor stands on the selected pile. -/
def onSelected (src : Src) (s : State) : Bool :=
  match src with
  | .column c => s.cur = .table c
  | .waste => s.cur = .top 1

def doOk (s : State) : Option State :=
  match s.sel with
  | some src =>
    if onSelected src s then some { s with sel := none }
    else
      (move src (dstAtCursor s) s).map fun moved =>
        if moved.2 then { moved.1 with sel := none }
        else
          { moved.1 with
            sel := match srcAtCursor moved.1 with
              | .pile src => some src
              | _ => none }
  | none =>
    match srcAtCursor s with
    | .stock => flip s
    | .pile src => some { s with sel := some src }
    | .nothing => some s

def onPause (e : Event) (s : State) : State :=
  match e.pause with
  | .resume => s
  | .restart => enter e.draws s
  | .quit => { s with exitRequest := true }

def press (e : Event) (s : State) : Option State :=
  match e.ev.key with
  | .ok => doOk s
  | .back => flip s
  | .pause => some (onPause e s)
  | .char => some (if e.ev.ch = code 'n' then enter e.draws s else s)
  | .quit => some { s with exitRequest := true }
  | _ => some s

def onKey (s : State) (e : Event) : Option State :=
  if e.ev.isRepeat then some (cursorMove e.ev s)
  else if s.isOver then
    some (if e.ev.key = .ok ∨ isLetter e.ev 'n' then enter e.draws s
      else if e.ev.key = .back ∨ e.ev.key = .quit then { s with exitRequest := true }
      else s)
  else press e (cursorMove e.ev s)

def run (s : State) (events : List Event) : Option State := events.foldlM onKey s

/-- A game just entered. -/
def start (draws : ℕ → UInt32) : State :=
  enter draws ⟨[], [], fun _ => [], fun _ => [], fun _ => 0, .table 0, none, 0, false, false⟩

/-! ### Drawing a column -/

/-- How many open cards are drawn: as many as the height allows, one at least. -/
def openShown : ℕ → ℕ
  | n + 2 => if 32 + (n + 1) * 12 > 96 then openShown (n + 1) else n + 2
  | n => n

def closedShown (avail : ℤ) : ℕ → ℕ
  | n + 2 => if 32 + ((n : ℤ) + 1) * 2 > avail then closedShown avail (n + 1) else n + 2
  | n => n

/-- The places of a column of `n` cards, `fd` of them face down, that its drawing reads. -/
def drawn (n fd : ℕ) : List ℤ :=
  if n = 0 then []
  else
    let fu := openShown (n - fd)
    let avail : ℤ := 96 - (32 + ((fu : ℤ) - 1) * 12)
    let shown : ℤ :=
      if 0 < fd then min (if 32 > avail then avail.tdiv 2 else closedShown avail fd) fd else 0
    (List.range shown.toNat).map (fun j : ℕ => (fd : ℤ) - shown + j) ++
      (List.range fu).map fun j : ℕ => (n : ℤ) - 1 - j

end C1auncher.Games.Klondike
