import C1auncher.Games.Cards
import C1auncher.Piles

/-!
Freecell: eight columns, four free cells and four foundations, of which the code keeps the top
card only. Single cards are moved between all of them. A column that would grow out of its array
has no result.
-/

namespace C1auncher.Games.Freecell

open Input Cards List Function Option

/-- The row above the columns holds the free cells and, to their right, the foundations. -/
inductive Kind
  | top | column
deriving DecidableEq

/-- What the cursor and the selection point to. -/
abbrev Slot := Kind × Fin 8

inductive Place
  | cell (i : Fin 4) | found (i : Fin 4) | col (i : Fin 8)
deriving DecidableEq

def place : Slot → Place
  | (.top, i) => if h : i.val < 4 then .cell ⟨i, h⟩ else .found ⟨i - 4, by omega⟩
  | (.column, i) => .col i

structure State where
  /-- The columns, each with its top card first. -/
  col : Fin 8 → List UInt8
  cell : Fin 4 → Option UInt8
  /-- The top cards of the foundations. -/
  found : Fin 4 → Option UInt8
  cur : Slot
  sel : Option Slot
  moves : UInt32
  isOver : Bool
  stuck : Bool
  exitRequest : Bool

def suit (c : UInt8) : ℕ := c.toNat / 13

/-- Ace is `0`, king `12`. -/
def rank (c : UInt8) : ℕ := c.toNat % 13

def red (c : UInt8) : Bool := suit c < 2

def pickCard (p : Place) (s : State) : Option UInt8 :=
  match p with
  | .cell i => s.cell i
  | .found i => s.found i
  | .col i => (s.col i).head?

def canPlace (card : UInt8) (p : Place) (s : State) : Bool :=
  match p with
  | .cell i => (s.cell i).isNone
  | .found i =>
    match s.found i with
    | none => rank card == 0
    | some t => suit t == suit card && rank t + 1 == rank card
  | .col i =>
    match s.col i with
    | [] => true
    | t :: _ => red t != red card && rank t == rank card + 1

/-- The top card of a place is taken away: a foundation is then empty. -/
def takeFrom (p : Place) (s : State) : State :=
  match p with
  | .cell i => { s with cell := Function.update s.cell i none }
  | .found i => { s with found := Function.update s.found i none }
  | .col i => { s with col := Function.update s.col i (s.col i).tail }

def putOn (card : UInt8) (p : Place) (s : State) : Option State :=
  match p with
  | .cell i => some { s with cell := Function.update s.cell i (some card) }
  | .found i => some { s with found := Function.update s.found i (some card) }
  | .col i => (push 52 card (s.col i)).map fun pile =>
      { s with col := Function.update s.col i pile }

/-- A single card is moved; the flag tells whether it was. -/
def tryMove (src dst : Slot) (s : State) : Option (State × Bool) :=
  match pickCard (place src) s with
  | none => some (s, false)
  | some card =>
    if src = dst then some (s, false)
    else if canPlace card (place dst) s then
      (putOn card (place dst) (takeFrom (place src) s)).map fun s =>
        ({ s with moves := s.moves + 1 }, true)
    else some (s, false)

def slots : List Slot :=
  (List.finRange 8).map (Kind.top, ·) ++ (List.finRange 8).map (Kind.column, ·)

/-- All foundations show a king. -/
def won (s : State) : Bool :=
  (List.finRange 4).all fun i => (s.found i).any fun t => rank t == 12

/-- Some card can be moved. -/
def movable (s : State) : Bool :=
  slots.any fun src =>
    match pickCard (place src) s with
    | none => false
    | some card => slots.any fun dst => src != dst && canPlace card (place dst) s

def checkEnd (s : State) : State :=
  if won s then { s with isOver := true, stuck := false }
  else if movable s then s
  else { s with isOver := true, stuck := true }

def doOk (s : State) : Option State :=
  match s.sel with
  | none => some (if (pickCard (place s.cur) s).isSome then { s with sel := some s.cur } else s)
  | some sel =>
    if sel = s.cur then some { s with sel := none }
    else
      (tryMove sel s.cur s).map fun moved =>
        { if moved.2 then checkEnd moved.1 else moved.1 with sel := none }

def reset (draws : ℕ → UInt32) (s : State) : State :=
  { s with
    col := fun i => (dealColumns (shuffle 52 draws) [7, 6, 7, 6, 7, 6, 7, 6]).getD i []
    cell := fun _ => none
    found := fun _ => none
    cur := (.top, 0)
    sel := none
    moves := 0
    isOver := false
    stuck := false }

def onPause (e : Event) (s : State) : State :=
  match e.pause with
  | .resume => s
  | .restart => reset e.draws s
  | .quit => { s with exitRequest := true }

def isLetter (ev : KeyEvent) (c : Char) : Bool := ev.key = .char ∧ ev.ch = code c

def walks (ev : KeyEvent) (cur : Slot) : Option Slot :=
  if (ev.key = .left ∨ isLetter ev 'a') ∧ 0 < cur.2.val then some (cur.1, cur.2 - 1)
  else if (ev.key = .right ∨ isLetter ev 'd') ∧ cur.2.val < 8 - 1 then some (cur.1, cur.2 + 1)
  else if (ev.key = .up ∨ isLetter ev 'w') ∧ cur.1 = .column then some (.top, cur.2)
  else if (ev.key = .down ∨ isLetter ev 's') ∧ cur.1 = .top then some (.column, cur.2)
  else none

/-- A key pressed while the game goes on that does not move the cursor. -/
def press (e : Event) (s : State) : Option State :=
  match e.ev.key with
  | .ok => doOk s
  | .char => some (if e.ev.ch = code 'n' then reset e.draws s else s)
  | .pause | .back => some (onPause e s)
  | .quit => some { s with exitRequest := true }
  | _ => some s

def onKey (s : State) (e : Event) : Option State :=
  if s.isOver then
    if e.ev.isRepeat then some s
    else if e.ev.key = .ok ∨ isLetter e.ev 'n' then some (reset e.draws s)
    else if e.ev.key = .back ∨ e.ev.key = .quit then some { s with exitRequest := true }
    else some s
  else
    match walks e.ev s.cur with
    | some cur => some { s with cur := cur }
    | none => if e.ev.isRepeat then some s else press e s

def run (s : State) (events : List Event) : Option State := events.foldlM onKey s

/-- A game just entered. -/
def start (draws : ℕ → UInt32) : State :=
  reset draws ⟨fun _ => [], fun _ => none, fun _ => none, (.top, 0), none, 0, false, false, false⟩

/-- What the drawing of a finished game says. -/
def announced (s : State) : Option String :=
  if s.isOver then some (if s.stuck then "NO MOVES!" else "WIN!") else none

/-!
Whole games of freecell: the cards are conserved as long as no card but an ace is taken from a
foundation, of whose lower cards the code would then keep nothing.
-/

open Input Cards Piles

def places : List Place :=
  (List.finRange 4).map .cell ++ (List.finRange 4).map .found ++ (List.finRange 8).map .col

instance : Fintype Place where
  elems := ⟨places, by decide⟩
  complete p := by rcases p with i | i | i <;> revert i <;> decide

/-- The cards of a foundation with a given top card, from there down to the ace. -/
def pile : Option UInt8 → List UInt8
  | none => []
  | some t => ((List.range (rank t + 1)).map fun r => (13 * suit t + r).toUInt8).reverse

/-- The cards that lie in a place, the top card first. -/
def contents (s : State) : Place → List UInt8
  | .cell i => (s.cell i).toList
  | .found i => pile (s.found i)
  | .col i => s.col i

/-! ### The rules -/

/-- A card may be put onto the cards of a place: onto a free cell, onto a foundation in the order
of its suit, onto a column in descending order and alternating colours. -/
def Allowed (card : UInt8) (p : Place) (s : State) : Prop :=
  match p with
  | .cell _ => contents s p = []
  | .found _ => contents s p = [] ∧ rank card = 0 ∨
      ∃ t rest, contents s p = t :: rest ∧ suit t = suit card ∧ rank card = rank t + 1
  | .col _ => contents s p = [] ∨
      ∃ t rest, contents s p = t :: rest ∧ red t ≠ red card ∧ rank t = rank card + 1

/-- The slot from which a key moves a card to the cursor. -/
def asks (s : State) (e : Event) : Option Slot :=
  if s.isOver ∨ e.ev.isRepeat ∨ e.ev.key ≠ .ok then none else s.sel

def Accepts (s : State) (e : Event) (src : Slot) (card : UInt8) : Prop :=
  asks s e = some src ∧ pickCard (place src) s = some card ∧ src ≠ s.cur ∧
    canPlace card (place s.cur) s = true

structure Holds (s : State) : Prop where
  cards : gathered (contents s) = deck 52
  fits : ∀ i, (s.col i).length ≤ 52
  win : announced s = some "WIN!" ↔ ∀ i, ∃ t ∈ s.found i, rank t = 12

/-- What a key does. -/
structure Follows (s : State) (e : Event) (s' : State) : Prop where
  moves : ∀ src card, Accepts s e src card →
    Transfer card (place src) (place s.cur) (contents s) (contents s') ∧
      Allowed card (place s.cur) s
  stuck : ∀ src card, Accepts s e src card → (announced s' = some "NO MOVES!" ↔
    ∀ src dst, (tryMove src dst s').any (·.2) = false)
  others : (∀ src card, ¬ Accepts s e src card) →
    contents s' = contents s ∨ ∃ draws, s' = reset draws s

/-- All states of a game are as they should be, and no key leaves an array. -/
def Plays : State → List Event → Prop
  | s, [] => Holds s
  | s, e :: events => Holds s ∧ ∃ s', onKey s e = some s' ∧ Follows s e s' ∧ Plays s' events

/-- No key of a game moves another card than an ace away from a foundation. -/
def Meets : State → List Event → Prop
  | _, [] => True
  | s, e :: events =>
    (∀ src card, Accepts s e src card → (∃ i, place src = .found i) → rank card = 0) ∧
      ∀ s' ∈ onKey s e, Meets s' events

/-! ### Cards and places -/

variable {s : State}

lemma place_injective : Injective place := by
  rintro ⟨_ | _, i⟩ ⟨_ | _, j⟩ <;> revert i j <;> decide

lemma toUInt8_card (c : UInt8) : (13 * suit c + rank c).toUInt8 = c := by
  rw [suit, rank, Nat.div_add_mod, Nat.toUInt8_eq, UInt8.ofNat_toNat]

lemma pile_some (t : UInt8) : ∃ rest, pile (some t) = t :: rest ∧ (rank t = 0 ↔ rest = []) := by
  refine ⟨((List.range (rank t)).map fun r => (13 * suit t + r).toUInt8).reverse, ?_, ?_⟩
  · rw [pile, range_succ, map_append, reverse_append, map_singleton, toUInt8_card]
    rfl
  · simp

lemma pile_next {t card : UInt8} (hsuit : suit t = suit card) (hrank : rank t + 1 = rank card) :
    pile (some card) = card :: pile (some t) := by
  rw [pile, range_succ, map_append, reverse_append, map_singleton, toUInt8_card, pile, hrank, hsuit]
  rfl

lemma pile_ace {card : UInt8} (h : rank card = 0) : pile (some card) = [card] := by
  obtain ⟨rest, hpile, hrest⟩ := pile_some card
  rw [hpile, hrest.mp h]

variable {p : Place} {src : Slot} {e : Event}

lemma contents_of_pick {card : UInt8} (h : pickCard p s = some card) :
    ∃ rest, contents s p = card :: rest := by
  rcases p with i | i | i
  · exact ⟨[], by rw [contents]; exact congrArg toList h⟩
  · obtain ⟨rest, hpile, -⟩ := pile_some card
    exact ⟨rest, by rw [contents]; exact (congrArg pile h).trans hpile⟩
  · exact List.head?_eq_some_iff.mp h

lemma contents_takeFrom_of_ne {q : Place} (hne : q ≠ p) :
    contents (takeFrom p s) q = contents s q := by
  rcases p with i | i | i <;> rcases q with j | j | j <;>
    simp_all [contents, takeFrom, update_of_ne]

lemma contents_takeFrom_found (i : Fin 4) : contents (takeFrom (.found i) s) (.found i) = [] := by
  simp [contents, takeFrom, pile]

/-- **A card is taken away** and leaves the cards below it, unless these are of a foundation. -/
lemma contents_takeFrom {card : UInt8} {rest : List UInt8}
    (htop : contents s p = card :: rest) (hace : (∃ i, p = .found i) → rest = []) :
    contents (takeFrom p s) = Function.update (contents s) p rest := by
  funext q
  rcases eq_or_ne q p with rfl | hne
  · rw [update_self]
    rcases q with i | i | i
    · have hcell : (s.cell i).toList = card :: rest := htop
      rcases h : s.cell i <;> rw [h] at hcell <;> simp_all [contents, takeFrom]
    · rw [hace ⟨i, rfl⟩, contents_takeFrom_found]
    · have hcol : s.col i = card :: rest := htop
      simp [contents, takeFrom, hcol]
  · rw [update_of_ne hne, contents_takeFrom_of_ne hne]

lemma Allowed.takeFrom {q : Place} {card : UInt8} (h : Allowed card q s) (hne : q ≠ p) :
    Allowed card q (takeFrom p s) := by
  rcases q with i | i | i <;> unfold Allowed at h ⊢ <;> rw [contents_takeFrom_of_ne hne]
  all_goals exact h

/-- **A card is put on the cards of a place**, if the rules allow it and the array has room. -/
lemma contents_putOn {card : UInt8} (hallowed : Allowed card p s)
    (hroom : ∀ i, p = .col i → (s.col i).length < 52) :
    ∃ s', putOn card p s = some s' ∧
      contents s' = Function.update (contents s) p (card :: contents s p) ∧
      s'.cur = s.cur ∧ s'.isOver = s.isOver ∧ s'.stuck = s.stuck := by
  rcases p with i | i | i
  · have hcell : (s.cell i).toList = [] := hallowed
    refine ⟨_, rfl, ?_, rfl, rfl, rfl⟩
    funext q
    rcases q with j | j | j <;> simp_all [contents, update_apply]
    grind
  · have hpile : pile (some card) = card :: pile (s.found i) := by
      rcases hallowed with ⟨hempty, hrank⟩ | ⟨t, rest, htop, hsuit, hrank⟩
      · rw [pile_ace hrank]
        exact congrArg _ hempty.symm
      rcases hfound : s.found i with _ | t'
      · rw [contents, hfound] at htop
        exact absurd htop.symm (cons_ne_nil _ _)
      obtain ⟨rest', hpile, -⟩ := pile_some t'
      have htop' : pile (s.found i) = t :: rest := htop
      rw [hfound, hpile, cons.injEq] at htop'
      exact pile_next (htop'.1 ▸ hsuit) (htop'.1 ▸ hrank.symm)
    refine ⟨_, rfl, ?_, rfl, rfl, rfl⟩
    funext q
    rcases q with j | j | j <;> simp_all [contents, update_apply]
    grind
  · rw [putOn, push, if_pos (hroom i rfl)]
    refine ⟨_, rfl, ?_, rfl, rfl, rfl⟩
    funext q
    rcases q with j | j | j <;> simp_all [contents, update_apply]

lemma allowed_of_canPlace {card : UInt8} (h : canPlace card p s = true) :
    Allowed card p s := by
  rcases p with i | i | i
  · have hcell : s.cell i = none := isNone_iff_eq_none.mp h
    exact congrArg toList hcell
  · change (match s.found i with
      | none => rank card == 0
      | some t => suit t == suit card && rank t + 1 == rank card) = true at h
    rcases hfound : s.found i with _ | t <;> rw [hfound] at h
    · exact .inl ⟨congrArg pile hfound, by simpa using h⟩
    obtain ⟨rest, hpile, -⟩ := pile_some t
    simp only [Bool.and_eq_true, beq_iff_eq] at h
    exact .inr ⟨t, rest, (congrArg pile hfound).trans hpile, h.1, h.2.symm⟩
  · change (match s.col i with
      | [] => true
      | t :: _ => red t != red card && rank t == rank card + 1) = true at h
    rcases hcol : s.col i with _ | ⟨t, rest⟩ <;> rw [hcol] at h
    · exact .inl hcol
    · simp only [Bool.and_eq_true, bne_iff_ne, beq_iff_eq] at h
      exact .inr ⟨t, rest, hcol, h⟩

/-! ### The operations -/

/-- What every operation keeps. -/
structure Kept (s : State) : Prop where
  cards : gathered (contents s) = deck 52
  ends : s.isOver = true ∧ s.stuck = false ↔ won s = true

lemma Kept.card (h : Kept s) : (gathered (contents s)).card = 52 := by
  rw [h.cards]
  rfl

/-- **A move that the code accepts is made**: the card goes where it is allowed to go, and nothing
but the cards below it in a foundation gets lost. -/
lemma tryMove_spec (hcard : (gathered (contents s)).card = 52) {dst : Slot} {card : UInt8}
    (hpick : pickCard (place src) s = some card) (hne : src ≠ dst)
    (hplace : canPlace card (place dst) s = true) :
    ∃ s', tryMove src dst s = some (s', true) ∧ Allowed card (place dst) s ∧
      contents s' = Function.update (contents (takeFrom (place src) s)) (place dst)
        (card :: contents s (place dst)) ∧
      s'.isOver = s.isOver ∧ s'.stuck = s.stuck := by
  have hplaces : place dst ≠ place src := fun heq => hne (place_injective heq.symm)
  have hallowed := allowed_of_canPlace hplace
  obtain ⟨rest, htop⟩ := contents_of_pick hpick
  have hroom : ∀ i, place dst = .col i → ((takeFrom (place src) s).col i).length < 52 := by
    intro i hi
    have hcol := contents_takeFrom_of_ne (s := s) hplaces
    rw [hi] at hcol
    have hle := length_add_le_gathered (contents s) hplaces.symm
    rw [htop, hi, ← hcol, hcard, length_cons] at hle
    exact Nat.lt_of_lt_of_le (Nat.lt_add_of_pos_left (Nat.succ_pos _)) hle
  obtain ⟨s', hput, hcontents, -, hover, hstuck⟩ :=
    contents_putOn (hallowed.takeFrom hplaces) hroom
  rw [contents_takeFrom_of_ne hplaces] at hcontents
  refine ⟨{ s' with moves := s'.moves + 1 }, ?_, hallowed, hcontents, ?_, ?_⟩
  · rw [tryMove, hpick]
    simp only
    rw [if_neg hne, if_pos hplace, hput, map_some]
  · rw [hover]
    rcases place src <;> rfl
  · rw [hstuck]
    rcases place src <;> rfl

lemma mem_slots (p : Slot) : p ∈ slots := by
  rcases p with ⟨_ | _, i⟩ <;> simp [slots]

lemma movable_iff_exists : movable s = true ↔ ∃ src dst card,
    pickCard (place src) s = some card ∧ src ≠ dst ∧ canPlace card (place dst) s = true := by
  simp only [movable, List.any_eq_true]
  refine exists_congr fun src => ?_
  rw [and_iff_right (mem_slots src)]
  rcases pickCard (place src) s with _ | card
  · simp
  · simp [mem_slots]

/-- **The search for a move finds one** exactly when the code would accept one. -/
lemma movable_iff (hcard : (gathered (contents s)).card = 52) :
    movable s = false ↔ ∀ src dst, (tryMove src dst s).any (·.2) = false := by
  rw [← Bool.not_eq_true, movable_iff_exists]
  constructor
  · intro hno src dst
    have hno' : ∀ card, pickCard (place src) s = some card → src ≠ dst →
        ¬ canPlace card (place dst) s = true := fun card hpick hne hplace =>
      hno ⟨src, dst, card, hpick, hne, hplace⟩
    unfold tryMove
    rcases hpick : pickCard (place src) s with _ | card
    · rfl
    simp only
    split_ifs with heq hplace
    · rfl
    · exact absurd hplace (hno' card hpick heq)
    · rfl
  · rintro hall ⟨src, dst, card, hpick, hne, hplace⟩
    obtain ⟨s', htry, -⟩ := tryMove_spec hcard hpick hne hplace
    have := hall src dst
    rw [htry] at this
    exact Bool.false_ne_true this.symm

lemma won_iff : won s = true ↔ ∀ i, ∃ t ∈ s.found i, rank t = 12 := by
  simp [won, List.all_eq_true, Option.any_eq_true, mem_def]

lemma movable_of_won (hcard : (gathered (contents s)).card = 52) (hwon : won s = true) :
    movable s = true := by
  have hking : ∀ i, (contents s (.found i)).length = 13 := by
    intro i
    obtain ⟨t, ht, hrank⟩ := won_iff.mp hwon i
    rw [contents, Option.mem_def.mp ht]
    simp [pile, hrank]
  have hsum : (gathered (contents s)).card = (places.map fun p => (contents s p).length).sum := by
    rw [gathered, Multiset.card_sum]
    rfl
  have hcell : s.cell 0 = none := by
    have hlength : (contents s (.cell 0)).length = 0 := by
      rw [hcard] at hsum
      have hfound : ((finRange 4).map fun _ => 13).sum = 52 := rfl
      simp only [places, map_append, sum_append, List.map_map, comp_def, hking, hfound] at hsum
      have hmem : (contents s (.cell 0)).length ∈
          (finRange 4).map fun i => (contents s (.cell i)).length :=
        List.mem_map_of_mem (mem_finRange 0)
      have := le_sum_of_mem hmem
      omega
    rcases h : s.cell 0 with _ | card
    · rfl
    · rw [contents, h] at hlength
      exact absurd hlength (by simp)
  obtain ⟨t, ht, -⟩ := won_iff.mp hwon 0
  exact movable_iff_exists.mpr ⟨(.top, 4), (.top, 0), t, ht, by decide,
    isNone_iff_eq_none.mpr hcell⟩

lemma announced_iff : (announced s = some "WIN!" ↔ s.isOver = true ∧ s.stuck = false) ∧
    (announced s = some "NO MOVES!" ↔ s.isOver = true ∧ s.stuck = true) := by
  unfold announced
  cases s.isOver <;> cases s.stuck <;> decide

/-- The end of the game is looked for, and the selection is given up. -/
def settle (s : State) : State := { checkEnd s with sel := none }

lemma settle_spec (hover : s.isOver = false) :
    contents (settle s) = contents s ∧
      ((settle s).isOver = true ∧ (settle s).stuck = false ↔ won (settle s) = true) ∧
      (announced (settle s) = some "NO MOVES!" ↔
        won (settle s) = false ∧ movable (settle s) = false) := by
  rw [announced_iff.2]
  unfold settle checkEnd
  split_ifs with hwon hmove
  · exact ⟨rfl, iff_of_true ⟨rfl, rfl⟩ hwon,
      iff_of_false (fun h => h.2) fun h => Bool.false_ne_true (h.1 ▸ hwon)⟩
  · exact ⟨rfl, iff_of_false (fun h => Bool.false_ne_true (hover ▸ h.1)) hwon,
      iff_of_false (fun h => Bool.false_ne_true (hover ▸ h.1)) fun h =>
        Bool.false_ne_true (h.2 ▸ hmove)⟩
  · exact ⟨rfl, iff_of_false (fun h => h.2) hwon,
      iff_of_true ⟨rfl, rfl⟩ ⟨Bool.not_eq_true _ ▸ hwon, Bool.not_eq_true _ ▸ hmove⟩⟩

/-! ### The keys -/

lemma onKey_of_asks (h : asks s e = some src) :
    s.isOver = false ∧ s.sel = some src ∧ onKey s e = doOk s := by
  unfold asks at h
  split_ifs at h with hno
  rw [not_or, not_or, not_not, Bool.not_eq_true, Bool.not_eq_true] at hno
  obtain ⟨hover, hrep, hkey⟩ := hno
  have hwalks : walks e.ev s.cur = none := by
    simp [walks, isLetter, hkey]
  refine ⟨hover, h, ?_⟩
  rw [onKey, if_neg (by rw [hover]; decide), hwalks, hrep, press, hkey]
  rfl

/-- **A key that moves a card**: the card goes where it may go, and then the end of the game is
looked for. -/
lemma onKey_of_accepts (hcard : (gathered (contents s)).card = 52)
    {card : UInt8} (h : Accepts s e src card) :
    ∃ t, onKey s e = some (settle t) ∧ t.isOver = false ∧ Allowed card (place s.cur) s ∧
      contents t = Function.update (contents (takeFrom (place src) s)) (place s.cur)
        (card :: contents s (place s.cur)) := by
  obtain ⟨hasks, hpick, hne, hplace⟩ := h
  obtain ⟨hover, hsel, hkey⟩ := onKey_of_asks hasks
  obtain ⟨t, htry, hallowed, hcontents, htover, -⟩ := tryMove_spec hcard hpick hne hplace
  refine ⟨t, ?_, htover.trans hover, hallowed, hcontents⟩
  rw [hkey, doOk, hsel]
  simp only
  rw [if_neg hne, htry, map_some]
  rfl

/-- Only the cursor, the selection and the wish to leave change. -/
def Quiet (s s' : State) : Prop :=
  s' = { s with cur := s'.cur, sel := s'.sel, exitRequest := s'.exitRequest }

lemma doOk_of_not_accepts (h : ∀ sel card, s.sel = some sel → pickCard (place sel) s = some card →
    sel ≠ s.cur → ¬ canPlace card (place s.cur) s = true) :
    ∃ s', doOk s = some s' ∧ Quiet s s' := by
  unfold doOk
  rcases hsel : s.sel with _ | sel
  · refine ⟨_, rfl, ?_⟩
    split_ifs <;> rfl
  simp only
  split_ifs with heq
  · exact ⟨_, rfl, rfl⟩
  have htry : tryMove sel s.cur s = some (s, false) := by
    unfold tryMove
    rcases hpick : pickCard (place sel) s with _ | card
    · rfl
    · simp only
      rw [if_neg heq, if_neg (h sel card hsel hpick heq)]
  exact ⟨{ s with sel := none }, by rw [htry]; rfl, rfl⟩

/-- **A key that moves no card** leaves the cards and the end of the game, or starts a new game. -/
lemma onKey_of_not_accepts (h : ∀ src card, ¬ Accepts s e src card) :
    ∃ s', onKey s e = some s' ∧ (Quiet s s' ∨ ∃ draws, s' = reset draws s) := by
  unfold onKey
  rcases hwalks : walks e.ev s.cur with _ | cur <;> simp only
  · split_ifs with hover hrep hagain hquit hrep
    · exact ⟨s, rfl, .inl rfl⟩
    · exact ⟨_, rfl, .inr ⟨e.draws, rfl⟩⟩
    · exact ⟨_, rfl, .inl rfl⟩
    · exact ⟨s, rfl, .inl rfl⟩
    · exact ⟨s, rfl, .inl rfl⟩
    unfold press
    rcases hkey : e.ev.key
    case ok =>
      obtain ⟨s', hok, hquiet⟩ := doOk_of_not_accepts fun sel card hsel hpick hne hplace =>
        h sel card ⟨by simp [asks, hover, hrep, hkey, hsel], hpick, hne, hplace⟩
      exact ⟨s', hok, .inl hquiet⟩
    case char =>
      simp only
      split_ifs
      · exact ⟨_, rfl, .inr ⟨e.draws, rfl⟩⟩
      · exact ⟨s, rfl, .inl rfl⟩
    case pause | back =>
      simp only [onPause]
      rcases e.pause
      · exact ⟨s, rfl, .inl rfl⟩
      · exact ⟨_, rfl, .inr ⟨e.draws, rfl⟩⟩
      · exact ⟨_, rfl, .inl rfl⟩
    all_goals exact ⟨_, rfl, .inl rfl⟩
  · split_ifs
    · exact ⟨s, rfl, .inl rfl⟩
    · exact ⟨_, rfl, .inr ⟨e.draws, rfl⟩⟩
    · exact ⟨_, rfl, .inl rfl⟩
    · exact ⟨s, rfl, .inl rfl⟩
    · exact ⟨_, rfl, .inl rfl⟩

/-! ### Games -/

lemma gathered_contents (s : State) : gathered (contents s) =
    ((List.finRange 4).map fun i => ((s.cell i).toList : Multiset UInt8)).sum +
      ((List.finRange 4).map fun i => (pile (s.found i) : Multiset UInt8)).sum +
        ((List.finRange 8).map fun i => (s.col i : Multiset UInt8)).sum := by
  change (places.map fun p => (contents s p : Multiset UInt8)).sum = _
  rw [places, map_append, map_append, List.map_map, List.map_map, List.map_map,
    sum_append, sum_append]
  rfl

lemma kept_reset (draws : ℕ → UInt32) (s : State) : Kept (reset draws s) := by
  refine ⟨?_, iff_of_false (fun h => Bool.false_ne_true h.1) fun h => Bool.false_ne_true h⟩
  have hcols := sum_getD (dealColumns (shuffle 52 draws) [7, 6, 7, 6, 7, 6, 7, 6])
    (length_dealColumns _ _)
  have hdeal : (dealColumns (shuffle 52 draws) [7, 6, 7, 6, 7, 6, 7, 6]).flatten.Perm (deck 52) := by
    refine List.perm_iff_count.mpr fun a => ?_
    have hdealt := dealColumns_count (shuffle 52 draws) [7, 6, 7, 6, 7, 6, 7, 6] a
    have hsum : [7, 6, 7, 6, 7, 6, 7, 6].sum = 52 := rfl
    have hlength : (shuffle 52 draws).length = 52 := by
      rw [(shuffle_perm (by omega) draws).length_eq]
      rfl
    rw [hsum, drop_eq_nil_of_le hlength.le, count_nil, Nat.add_zero,
      (shuffle_perm (by omega) draws).count_eq] at hdealt
    exact hdealt
  have hempty : ((finRange 4).map fun _ => (([] : List UInt8) : Multiset UInt8)).sum = 0 := by
    simp
  rw [gathered_contents, ← Multiset.coe_eq_coe.mpr hdeal, ← hcols]
  exact (congrArg₂ (· + ·) ((congrArg₂ (· + ·) hempty hempty).trans (add_zero _)) rfl).trans
    (zero_add _)

lemma Kept.quiet (h : Kept s) {s' : State} (hquiet : Quiet s s') : Kept s' := by
  rw [hquiet]
  exact ⟨h.cards, h.ends⟩

lemma Kept.holds (h : Kept s) : Holds s where
  cards := h.cards
  fits i := by
    rw [← h.card]
    exact length_le_gathered (contents s) (.col i)
  win := by rw [announced_iff.1, h.ends, won_iff]

/-- **A key that takes no card but an ace from a foundation** moves one card by the rules, or none,
and says when the game is over. -/
theorem Kept.step (h : Kept s) (hspares : ∀ src card, Accepts s e src card →
    (∃ i, place src = .found i) → rank card = 0) :
    ∃ s', onKey s e = some s' ∧ Follows s e s' ∧ Kept s' := by
  by_cases hno : ∀ src card, ¬ Accepts s e src card
  · obtain ⟨s', hkey, hs'⟩ := onKey_of_not_accepts hno
    refine ⟨s', hkey, ⟨fun src card hacc => absurd hacc (hno src card),
      fun src card hacc => absurd hacc (hno src card), fun _ => ?_⟩, ?_⟩
    · rcases hs' with hquiet | hreset
      · exact .inl (by rw [hquiet]; rfl)
      · exact .inr hreset
    rcases hs' with hquiet | ⟨draws, rfl⟩
    · exact h.quiet hquiet
    · exact kept_reset draws s
  · push Not at hno
    obtain ⟨src, card, hacc⟩ := hno
    obtain ⟨t, hkey, hover, hallowed, hcontents⟩ := onKey_of_accepts h.card hacc
    obtain ⟨rest, htop⟩ := contents_of_pick hacc.2.1
    have hrest : (∃ i, place src = .found i) → rest = [] := by
      rintro ⟨i, hi⟩
      have hrank := hspares src card hacc ⟨i, hi⟩
      have hpick := hacc.2.1
      rw [hi] at hpick htop
      rw [contents, show s.found i = some card from hpick, pile_ace hrank, cons.injEq] at htop
      exact htop.2.symm
    have htransfer : Transfer card (place src) (place s.cur) (contents s) (contents (settle t)) := by
      refine ⟨fun heq => hacc.2.2.1 (place_injective heq), rest, htop, ?_⟩
      rw [(settle_spec hover).1, hcontents, contents_takeFrom htop hrest]
    obtain ⟨-, hends, hstuck⟩ := settle_spec hover
    have hkept : Kept (settle t) := ⟨htransfer.gathered_eq.trans h.cards, hends⟩
    refine ⟨_, hkey, ⟨fun src' card' hacc' => ?_, fun _ _ _ => ?_,
      fun hno => absurd hacc (hno src card)⟩, hkept⟩
    · have hsrc := hacc'.1.symm.trans hacc.1
      rw [some.injEq] at hsrc
      subst hsrc
      have hcard := hacc'.2.1.symm.trans hacc.2.1
      rw [some.injEq] at hcard
      subst hcard
      exact ⟨htransfer, hallowed⟩
    · rw [hstuck, ← movable_iff hkept.card]
      refine and_iff_right_of_imp fun hmove => ?_
      by_contra hwon
      rw [movable_of_won hkept.card (Bool.not_eq_false _ ▸ hwon)] at hmove
      exact Bool.false_ne_true hmove.symm

lemma not_follows {s' : State} (h : Kept s) {card : UInt8}
    (hacc : Accepts s e src card) (hfound : ∃ i, place src = .found i) (hrank : rank card ≠ 0)
    (hkey : onKey s e = some s') : ¬ Follows s e s' := by
  intro hfollows
  obtain ⟨i, hi⟩ := hfound
  obtain ⟨⟨hne, rest, htop, hcontents⟩, -⟩ := hfollows.moves src card hacc
  obtain ⟨t, hsettle, hover, -, ht⟩ := onKey_of_accepts h.card hacc
  rw [hkey, some.injEq] at hsettle
  -- by the rules the lower cards are still there; the code has emptied the foundation
  have hkeeps : contents s' (place src) = rest := by
    rw [hcontents, update_of_ne hne, update_self]
  have hgone : contents s' (place src) = [] := by
    rw [hsettle, (settle_spec hover).1, ht, update_of_ne hne, hi, contents_takeFrom_found]
  obtain ⟨rest', hpile, hrest'⟩ := pile_some card
  have hpick := hacc.2.1
  rw [hi] at hpick htop
  rw [contents, show s.found i = some card from hpick, hpile, cons.injEq] at htop
  exact hrank (hrest'.mpr (htop.2.trans (hkeeps.symm.trans hgone)))

/-- **All states of a game of freecell are as they should be exactly when no key of the game moves
another card than an ace away from a foundation.** -/
theorem freecell (draws : ℕ → UInt32) (events : List Event) :
    Plays (start draws) events ↔ Meets (start draws) events := by
  have hkept : Kept (start draws) := kept_reset _ _
  revert hkept
  generalize start draws = s
  intro h
  induction events generalizing s with
  | nil => exact iff_of_true h.holds trivial
  | cons e events ih =>
    constructor
    · rintro ⟨-, s', hkey, hfollows, hrest⟩
      have hspares : ∀ src card, Accepts s e src card → (∃ i, place src = .found i) →
          rank card = 0 := fun src card hacc hfound => by
        by_contra hrank
        exact not_follows h hacc hfound hrank hkey hfollows
      obtain ⟨t, ht, -, hkept⟩ := h.step hspares
      rw [hkey, some.injEq] at ht
      subst ht
      refine ⟨hspares, fun t ht => ?_⟩
      rw [hkey, mem_some_iff] at ht
      exact ht ▸ (ih s' hkept).mp hrest
    · rintro ⟨hspares, hrest⟩
      obtain ⟨s', hkey, hfollows, hkept⟩ := h.step hspares
      exact ⟨h.holds, s', hkey, hfollows, (ih s' hkept).mpr (hrest s' hkey)⟩

/-! ### A game that loses a card -/

/-- The draws of a shuffle after which the ace and the two of hearts lie on two columns. -/
def heartsDraws (i : ℕ) : UInt32 := if i = 12 then 1 else if i = 6 then 0 else i.toUInt32

def pressing (k : Key) : Event := ⟨⟨k, 0, false⟩, .resume, heartsDraws⟩

/-- The ace and the two are put onto a foundation, and the two is taken back to a free cell. -/
def takingBack : List Event :=
  [.down, .ok, .up, .right, .right, .right, .right, .ok, .down, .left, .left, .left, .ok, .up,
    .right, .right, .right, .ok, .ok, .left, .ok].map pressing

/-- A game after which the ace of hearts lies in no place at all. -/
theorem freecell_fails : ∃ s, run (start heartsDraws) takingBack = some s ∧ 0 ∈ deck 52 ∧
    ∀ p, 0 ∉ contents s p := by
  have hgone : (run (start heartsDraws) takingBack).any fun s =>
      places.all fun p => !(contents s p).contains 0 := by
    decide +kernel
  obtain ⟨s, hrun, h⟩ := (Option.any_eq_true _ _).mp hgone
  refine ⟨s, hrun, by decide, fun p hmem => ?_⟩
  have hp : p ∈ places := Finset.mem_univ p
  have := List.all_eq_true.mp h p hp
  rw [contains_iff_mem.mpr hmem] at this
  exact Bool.false_ne_true this

end C1auncher.Games.Freecell
