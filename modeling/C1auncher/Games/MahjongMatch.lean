import C1auncher.Games.Cards

/-!
Mahjong match: thirty-six tiles in six rows, pairs of equal tiles with an open side are taken. The
shuffle, the reshuffle, the new game, picking tiles, and the keys.
-/

namespace C1auncher.Games.MahjongMatch

open Input Cards

/-- The tiles row by row; `0` is an empty cell. -/
abbrev Board := List UInt8

def tile (b : Board) (i : ℕ) : UInt8 := b.getD i 0

/-- What the side bar says. -/
inductive Msg
  | init | sel | matched | wrong | lock | dead | empty
deriving DecidableEq

structure State where
  board : Board
  cx : ℕ
  cy : ℕ
  sel : Option ℕ
  moves : ℕ
  pairsLeft : ℤ
  status : Msg
  isOver : Bool
  exitRequest : Bool

/-- A tile can be taken when its left or right side is open. -/
def free (b : Board) (i : ℕ) : Bool :=
  if tile b i = 0 then false
  else if i % 6 = 0 ∨ i % 6 = 5 then true
  else if tile b (i - 1) = 0 then true
  else if tile b (i + 1) = 0 then true
  else false

/-- Two equal tiles can be taken. -/
@[irreducible]
def hasMove (b : Board) : Bool :=
  (List.range 36).any fun i =>
    !(tile b i == 0 || !free b i) &&
      (List.range' (i + 1) (35 - i)).any fun j => tile b j == tile b i && free b j

/-- Each pattern twice. -/
def deck : Board := (List.range 36).map fun i => (i / 2 + 1).toUInt8

/-- Each tile from the last to the second changes places with one at or before it. -/
@[irreducible]
def mixed (tiles : Board) (draws : ℕ → UInt32) : Board :=
  (List.range' 1 35).reverse.foldl
    (fun tiles i => swap tiles i (rngRange (draws i) (i.toUInt32 + 1)).toNat) tiles

/-- The numbers that the generator would give, for each try. -/
abbrev Draws := ℕ → ℕ → UInt32

/-- Mixes the tiles until two can be taken, or no tries are left. -/
def mix (draws : Draws) : ℕ → ℕ → Board → Board
  | 0, k, tiles => mixed tiles (draws k)
  | tries + 1, k, tiles =>
    let tiles := mixed tiles (draws k)
    if hasMove tiles then tiles else mix draws tries (k + 1) tiles

/-- All thirty-six tiles are dealt, at most two hundred times. -/
def shuffle (draws : Draws) (s : State) : State :=
  { s with board := mix draws 199 0 deck, sel := none, cx := 0, cy := 0 }

def reshuffle (draws : Draws) (s : State) : State :=
  let s := shuffle draws s
  { s with status := if hasMove s.board then .init else .dead }

def newGame (draws : Draws) (s : State) : State :=
  reshuffle draws { s with moves := 0, pairsLeft := 18, isOver := false }

/-- Two tiles are taken; the game ends with the last pair. -/
def taken (i j : ℕ) (s : State) : State :=
  let s := { s with
    board := (s.board.set i 0).set j 0
    sel := none
    moves := s.moves + 1
    pairsLeft := s.pairsLeft - 1 }
  if s.pairsLeft = 0 then { s with isOver := true }
  else if !hasMove s.board then { s with status := .dead }
  else { s with status := .matched }

/-- OK: picks a tile, takes a pair, or gives the pick up. -/
def ok (s : State) : State :=
  if s.isOver then s
  else
    let i := s.cy * 6 + s.cx
    if tile s.board i = 0 then { s with status := .empty }
    else
      match s.sel with
      | none => { s with sel := some i, status := .sel }
      | some j =>
        if j = i then { s with sel := none, status := .init }
        else if tile s.board i = tile s.board j then
          if free s.board i && free s.board j then taken i j s
          else { s with sel := none, status := .lock }
        else { s with sel := none, status := .wrong }

def onPause (pause : PauseSel) (draws : Draws) (s : State) : State :=
  match pause with
  | .resume => s
  | .restart => newGame draws s
  | .quit => { s with exitRequest := true }

def up (s : State) : State := { s with cy := (s.cy + 5) % 6 }

def down (s : State) : State := { s with cy := (s.cy + 1) % 6 }

def left (s : State) : State := { s with cx := (s.cx + 5) % 6 }

def right (s : State) : State := { s with cx := (s.cx + 1) % 6 }

/-- The letter keys; a key that repeats only moves the cursor. -/
def letter (ev : KeyEvent) (draws : Draws) (s : State) : State :=
  if ev.ch = code 'w' then up s
  else if ev.ch = code 's' then down s
  else if ev.ch = code 'a' then left s
  else if ev.ch = code 'd' then right s
  else if ev.ch = code 'n' then if !ev.isRepeat then reshuffle draws s else s
  else if ev.ch = code 'q' then if !ev.isRepeat then { s with exitRequest := true } else s
  else s

/-- A key, with what the pause overlay would answer and what the generator would draw. -/
structure Event where
  ev : KeyEvent
  pause : PauseSel
  draws : Draws

/-- A key pressed while the game goes on. -/
def press (e : Event) (s : State) : State :=
  match e.ev.key with
  | .up => up s
  | .down => down s
  | .left => left s
  | .right => right s
  | .ok => ok s
  | .back => onPause e.pause e.draws s
  | .pause => onPause e.pause e.draws s
  | .quit => { s with exitRequest := true }
  | .char => letter e.ev e.draws s
  | _ => s

def repeats (key : Key) : Bool :=
  key == .up || key == .down || key == .left || key == .right || key == .char

def onKey (s : State) (e : Event) : State :=
  if e.ev.isRepeat && !repeats e.ev.key then s
  else if s.isOver then
    if e.ev.isRepeat then s
    else if e.ev.key = .ok ∨ e.ev.key = .char ∧ e.ev.ch = code 'n' then newGame e.draws s
    else if e.ev.key = .back ∨ e.ev.key = .quit then { s with exitRequest := true }
    else s
  else press e s

def run (s : State) (events : List Event) : State := events.foldl onKey s

/-!
Whole games of mahjong match: what is on the board, the counter of pairs, the pick, and the end.
-/

open Input Cards

/-- A tile whose left or right side is open. -/
def Free (b : Board) (i : ℕ) : Prop :=
  tile b i ≠ 0 ∧ (i % 6 = 0 ∨ i % 6 = 5 ∨ tile b (i - 1) = 0 ∨ tile b (i + 1) = 0)

/-- Two equal tiles can be taken. -/
def Open (b : Board) : Prop :=
  ∃ i < 36, ∃ j < 36, i ≠ j ∧ tile b i = tile b j ∧ Free b i ∧ Free b j

def tiles (b : Board) : ℕ := b.countP (· ≠ 0)

/-- **The books are right.** -/
structure Right (s : State) : Prop where
  tiles : (tiles s.board : ℤ) = 2 * s.pairsLeft
  patterns : ∀ a ≠ 0, s.board.count a = 0 ∨ s.board.count a = 2
  sel : ∀ i, s.sel = some i → i < 36 ∧ tile s.board i ≠ 0
  isOver : s.isOver = true ↔ ∀ i < 36, tile s.board i = 0

/-- The side bar tells whether a move is left. -/
def Tells (s : State) : Prop := s.isOver = false → (s.status = .dead ↔ ¬ Open s.board)

/-- Two free equal tiles are taken, the one under the cursor and the one picked. -/
structure Takes (s s' : State) (i j : ℕ) : Prop where
  distinct : i < 36 ∧ j < 36 ∧ i ≠ j
  cursor : i = s.cy * 6 + s.cx
  picked : s.sel = some j
  equal : tile s.board i = tile s.board j
  free : Free s.board i ∧ Free s.board j
  board : ∀ k, tile s'.board k = if k = i ∨ k = j then 0 else tile s.board k
  tells : Tells s'

structure Deals (s' : State) : Prop where
  board : s'.board.Perm deck
  tells : Tells s'

/-- **What a key may do to the board.** -/
def Follows (s s' : State) : Prop :=
  s'.board = s.board ∨ (∃ i j, Takes s s' i j) ∨ Deals s'

/-- The key deals the tiles again after a pair has been taken. -/
def Spoils (s : State) (e : Event) : Prop :=
  e.ev.key = .char ∧ e.ev.ch = code 'n' ∧ e.ev.isRepeat = false ∧ s.isOver = false ∧
    s.pairsLeft ≠ 18

/-- From `s` on, all states have right books and all keys follow the rules. -/
def Plays (s : State) : List Event → Prop
  | [] => Right s
  | e :: events => Right s ∧ Follows s (onKey s e) ∧ Plays (onKey s e) events

/-- No key deals the tiles again after a pair has been taken. -/
def Meets (s : State) : List Event → Prop
  | [] => True
  | e :: events => ¬ Spoils s e ∧ Meets (onKey s e) events

/-! ### Free tiles -/

variable {b : Board} {i j : ℕ} {s : State}

lemma free_iff : free b i = true ↔ Free b i := by
  unfold free Free
  split_ifs <;> simp_all <;> tauto

lemma hasMove_iff : hasMove b = true ↔ Open b := by
  unfold hasMove Open
  simp only [List.any_eq_true, List.mem_range, List.mem_range'_1, Bool.and_eq_true,
    Bool.not_eq_true', Bool.or_eq_false_iff, beq_eq_false_iff_ne, beq_iff_eq, Bool.not_eq_false']
  constructor
  · rintro ⟨i, hi, ⟨-, hfree⟩, j, ⟨hij, hj⟩, heq, hfree'⟩
    exact ⟨i, hi, j, by omega, by omega, heq.symm, free_iff.mp hfree, free_iff.mp hfree'⟩
  rintro ⟨i, hi, j, hj, hne, heq, hfree, hfree'⟩
  rcases Nat.lt_or_gt_of_ne hne with hlt | hlt
  · exact ⟨i, hi, ⟨hfree.1, free_iff.mpr hfree⟩, j, ⟨by omega, by omega⟩, heq.symm,
      free_iff.mpr hfree'⟩
  · exact ⟨j, hj, ⟨hfree'.1, free_iff.mpr hfree'⟩, i, ⟨by omega, by omega⟩, heq,
      free_iff.mpr hfree⟩

/-! ### Dealing -/

lemma length_deck : deck.length = 36 := by simp [deck]

lemma count_deck (a : UInt8) : deck.count a = 0 ∨ deck.count a = 2 := by
  have hall : ∀ a ∈ deck, deck.count a = 2 := by decide +kernel
  by_cases hmem : a ∈ deck
  · exact Or.inr (hall a hmem)
  · exact Or.inl (List.count_eq_zero.mpr hmem)

lemma tiles_deck : tiles deck = 36 := by decide

lemma mixed_perm (h : b.length = 36) (draws : ℕ → UInt32) : (mixed b draws).Perm b := by
  rw [mixed]
  refine swaps_perm draws _ b (fun i hi => ?_) (by rw [h]; decide)
  rw [List.mem_reverse, List.mem_range'_1] at hi
  omega

lemma mix_perm (draws : Draws) (tries k : ℕ) (h : b.length = 36) :
    (mix draws tries k b).Perm b := by
  induction tries generalizing k b with
  | zero =>
    rw [mix]
    exact mixed_perm h _
  | succ tries ih =>
    have hperm := mixed_perm h (draws k)
    rw [mix]
    split
    · exact hperm
    · exact (ih _ (hperm.length_eq.trans h)).trans hperm

lemma board_reshuffle (draws : Draws) (s : State) :
    (reshuffle draws s).board = (shuffle draws s).board := rfl

lemma status_reshuffle (draws : Draws) (s : State) :
    (reshuffle draws s).status = if hasMove (shuffle draws s).board then .init else .dead := rfl

lemma deals_reshuffle (draws : Draws) (s : State) : Deals (reshuffle draws s) := by
  refine ⟨?_, fun _ => ?_⟩
  · rw [board_reshuffle]
    exact mix_perm draws 199 0 length_deck
  rw [status_reshuffle, board_reshuffle, ← hasMove_iff]
  by_cases h : hasMove (shuffle draws s).board = true
  · rw [if_pos h]
    exact iff_of_false (by decide) (not_not.mpr h)
  · rw [if_neg h]
    exact iff_of_true rfl h

/-! ### The invariant -/

/-- **What holds in every state of a game whose books are right.** -/
structure Kept (s : State) : Prop where
  right : Right s
  length : s.board.length = 36
  cx : s.cx < 6
  cy : s.cy < 6

lemma tile_eq (h : i < b.length) : tile b i = b[i] := List.getD_eq_getElem _ _ h

lemma tiles_eq_zero (h : b.length = 36) : tiles b = 0 ↔ ∀ i < 36, tile b i = 0 := by
  rw [tiles, List.countP_eq_zero]
  constructor
  · intro hall i hi
    rw [tile_eq (h ▸ hi)]
    simpa using hall _ (List.getElem_mem (h ▸ hi))
  intro hall a ha
  obtain ⟨i, hi, rfl⟩ := List.mem_iff_getElem.mp ha
  have := hall i (h ▸ hi)
  rw [tile_eq hi] at this
  simpa using this

lemma tiles_deal (h : b.Perm deck) : tiles b = 36 := by
  rw [tiles, h.countP_eq]
  exact tiles_deck

lemma kept_deal (hboard : s.board.Perm deck) (hpairs : s.pairsLeft = 18)
    (hsel : s.sel = none) (hover : s.isOver = false) (hcx : s.cx < 6) (hcy : s.cy < 6) : Kept s := by
  have hlen : s.board.length = 36 := hboard.length_eq.trans length_deck
  have htiles := tiles_deal hboard
  refine ⟨⟨by rw [htiles, hpairs]; rfl, fun a _ => ?_, fun i hi => ?_, ?_⟩, hlen, hcx, hcy⟩
  · rw [hboard.count_eq]
    exact count_deck a
  · rw [hsel] at hi
    exact absurd hi (by simp)
  rw [hover]
  refine iff_of_false Bool.false_ne_true fun hall => ?_
  have := (tiles_eq_zero hlen).mpr hall
  omega

lemma kept_newGame (draws : Draws) (s : State) : Kept (newGame draws s) := by
  have hdeal := deals_reshuffle draws { s with moves := 0, pairsLeft := 18, isOver := false }
  exact kept_deal hdeal.board rfl rfl rfl (Nat.zero_lt_succ 5) (Nat.zero_lt_succ 5)

lemma count_taken (hi : i < b.length) (hj : j < b.length) (hne : i ≠ j)
    (heq : tile b i = tile b j) (hzero : tile b i ≠ 0) :
    tiles ((b.set i 0).set j 0) + 2 = tiles b ∧
      ∀ a ≠ 0, ((b.set i 0).set j 0).count a + (if a = tile b i then 2 else 0) = b.count a := by
  rw [tile_eq hi] at heq hzero
  rw [tile_eq hj] at heq
  have hj' : j < (b.set i 0).length := by rwa [List.length_set]
  have hget : (b.set i 0)[j] = b[j] := List.getElem_set_of_ne hne _ _
  constructor
  · have h1 : 0 < b.countP (· ≠ 0) :=
      List.countP_pos_iff.mpr ⟨b[i], List.getElem_mem hi, by simpa using hzero⟩
    have h2 : 0 < (b.set i 0).countP (· ≠ 0) :=
      List.countP_pos_iff.mpr ⟨(b.set i 0)[j], List.getElem_mem hj', by
        rw [hget, ← heq]
        simpa using hzero⟩
    have hpos : decide (b[i] ≠ 0) = true := by simpa using hzero
    have hnot : ¬ decide ((0 : UInt8) ≠ 0) = true := by decide
    have hset := @List.countP_set _ (fun x : UInt8 => decide (x ≠ 0)) b i 0 hi
    have hset' := @List.countP_set _ (fun x : UInt8 => decide (x ≠ 0)) (b.set i 0) j 0 hj'
    rw [hget, ← heq, if_pos hpos, if_neg hnot] at hset'
    rw [if_pos hpos, if_neg hnot] at hset
    unfold tiles
    omega
  · intro a ha
    rw [List.count_set hj', List.count_set hi, hget, ← heq, tile_eq hi]
    have h0 : ((0 : UInt8) == a) = false := by simpa using fun h : 0 = a => ha h.symm
    rw [h0]
    by_cases hat : a = b[i]
    · have h1 : 0 < b.count a := List.count_pos_iff.mpr (hat ▸ List.getElem_mem hi)
      have h2 : 0 < (b.set i 0).count a :=
        List.count_pos_iff.mpr (by rw [hat, heq, ← hget]; exact List.getElem_mem hj')
      rw [List.count_set hi, h0] at h2
      have ht : (b[i] == a) = true := by simp [hat]
      rw [ht] at h2 ⊢
      simp only [if_true, Bool.false_eq_true, if_false, hat] at h1 h2 ⊢
      omega
    · have ht : (b[i] == a) = false := by simpa using fun h : b[i] = a => hat h.symm
      rw [ht, if_neg hat]
      simp

lemma Kept.stays {s' : State} (h : Kept s) (hboard : s'.board = s.board)
    (hpairs : s'.pairsLeft = s.pairsLeft) (hover : s'.isOver = s.isOver)
    (hsel : ∀ i, s'.sel = some i → i < 36 ∧ tile s.board i ≠ 0) (hcx : s'.cx < 6)
    (hcy : s'.cy < 6) : Kept s' ∧ Follows s s' := by
  refine ⟨⟨⟨?_, ?_, ?_, ?_⟩, hboard ▸ h.length, hcx, hcy⟩, Or.inl hboard⟩
  · rw [hboard, hpairs]
    exact h.right.tiles
  · rw [hboard]
    exact h.right.patterns
  · rw [hboard]
    exact hsel
  · rw [hboard, hover]
    exact h.right.isOver

lemma tile_taken (hi : i < b.length) (hj : j < b.length) (k : ℕ) :
    tile ((b.set i 0).set j 0) k = if k = i ∨ k = j then 0 else tile b k := by
  simp only [tile, List.getD_eq_getElem?_getD, List.getElem?_set, List.length_set]
  by_cases hkj : j = k
  · subst hkj
    simp [hj]
  by_cases hki : i = k
  · subst hki
    simp [hkj, hi]
  · simp [hkj, hki, Ne.symm hkj, Ne.symm hki]

lemma taken_spec (i j : ℕ) (hover : s.isOver = false) :
    (taken i j s).board = (s.board.set i 0).set j 0 ∧ (taken i j s).sel = none ∧
      (taken i j s).pairsLeft = s.pairsLeft - 1 ∧ (taken i j s).cx = s.cx ∧
      (taken i j s).cy = s.cy ∧ ((taken i j s).isOver = true ↔ s.pairsLeft - 1 = 0) ∧
      Tells (taken i j s) := by
  unfold taken
  dsimp only
  split_ifs with hzero hmove
  · exact ⟨rfl, rfl, rfl, rfl, rfl, iff_of_true rfl hzero, fun ho => absurd ho (by simp)⟩
  · refine ⟨rfl, rfl, rfl, rfl, rfl, iff_of_false (by simp [hover]) hzero, fun _ => ?_⟩
    refine iff_of_true rfl fun ho => ?_
    rw [hasMove_iff.mpr ho] at hmove
    exact absurd hmove (by simp)
  · refine ⟨rfl, rfl, rfl, rfl, rfl, iff_of_false (by simp [hover]) hzero, fun _ => ?_⟩
    refine iff_of_false (by simp) (not_not.mpr (hasMove_iff.mp ?_))
    simpa using hmove

lemma Kept.taken (h : Kept s) (hover : s.isOver = false)
    (hi : i < 36) (hcursor : i = s.cy * 6 + s.cx) (hsel : s.sel = some j) (hne : i ≠ j)
    (heq : tile s.board i = tile s.board j) (hfree : Free s.board i ∧ Free s.board j) :
    Kept (MahjongMatch.taken i j s) ∧ Follows s (MahjongMatch.taken i j s) := by
  obtain ⟨hboard, hnone, hpairs, hcx, hcy, hend, htells⟩ := taken_spec i j hover
  have hj := (h.right.sel j hsel).1
  have hi' : i < s.board.length := h.length ▸ hi
  have hj' : j < s.board.length := h.length ▸ hj
  obtain ⟨htiles, hcount⟩ := count_taken hi' hj' hne heq hfree.1.1
  have hlen : (MahjongMatch.taken i j s).board.length = 36 := by
    rw [hboard, List.length_set, List.length_set, h.length]
  have hbooks := h.right.tiles
  refine ⟨⟨⟨?_, ?_, ?_, ?_⟩, hlen, hcx ▸ h.cx, hcy ▸ h.cy⟩, Or.inr (Or.inl ⟨i, j, ?_⟩)⟩
  · rw [hboard, hpairs]
    omega
  · intro a ha
    rw [hboard]
    have hold := h.right.patterns a ha
    have hnew := hcount a ha
    split_ifs at hnew <;> omega
  · rw [hnone]
    exact fun _ hno => absurd hno (by simp)
  · rw [hend, ← tiles_eq_zero hlen, hboard]
    omega
  · refine ⟨⟨hi, hj, hne⟩, hcursor, hsel, heq, hfree, fun k => ?_, htells⟩
    rw [hboard]
    exact tile_taken hi' hj' k

lemma Kept.ok (h : Kept s) (hover : s.isOver = false) :
    Kept (MahjongMatch.ok s) ∧ Follows s (MahjongMatch.ok s) := by
  have hcx := h.cx
  have hcy := h.cy
  have hi : s.cy * 6 + s.cx < 36 := by omega
  have hstay : ∀ status, Kept { s with status } ∧ Follows s { s with status } :=
    fun status => h.stays rfl rfl rfl h.right.sel h.cx h.cy
  have hdrop : ∀ status, Kept { s with sel := none, status } ∧
      Follows s { s with sel := none, status } :=
    fun status => h.stays rfl rfl rfl (fun _ hno => absurd hno (by simp)) h.cx h.cy
  unfold MahjongMatch.ok
  rw [if_neg (by simp [hover])]
  dsimp only
  split_ifs with hzero
  · exact hstay _
  cases hsel : s.sel with
  | none =>
    refine h.stays rfl rfl rfl (fun i heq => ?_) h.cx h.cy
    rw [← Option.some.inj heq]
    exact ⟨hi, hzero⟩
  | some j =>
    dsimp only
    split_ifs with hsame heq hfree
    · exact hdrop _
    · simp only [Bool.and_eq_true, free_iff] at hfree
      exact h.taken hover hi rfl hsel (Ne.symm hsame) heq hfree
    · exact hdrop _
    · exact hdrop _

/-! ### The keys -/

lemma Kept.moves (h : Kept s) (cx cy : ℕ) (hcx : cx < 6) (hcy : cy < 6) :
    Kept { s with cx, cy } ∧ Follows s { s with cx, cy } :=
  h.stays rfl rfl rfl h.right.sel hcx hcy

lemma Kept.exits (h : Kept s) :
    Kept { s with exitRequest := true } ∧ Follows s { s with exitRequest := true } :=
  h.stays rfl rfl rfl h.right.sel h.cx h.cy

lemma Kept.same (h : Kept s) : Kept s ∧ Follows s s := ⟨h, Or.inl rfl⟩

lemma Kept.newGame (draws : Draws) (s : State) :
    Kept (MahjongMatch.newGame draws s) ∧ Follows s (MahjongMatch.newGame draws s) :=
  ⟨kept_newGame draws s, Or.inr (Or.inr (deals_reshuffle draws _))⟩

lemma Kept.onPause (h : Kept s) (pause : PauseSel) (draws : Draws) :
    Kept (MahjongMatch.onPause pause draws s) ∧
      Follows s (MahjongMatch.onPause pause draws s) := by
  cases pause with
  | resume => exact h.same
  | restart => exact Kept.newGame draws s
  | quit => exact h.exits

lemma Kept.reshuffle (draws : Draws) (hover : s.isOver = false)
    (hpairs : s.pairsLeft = 18) :
    Kept (MahjongMatch.reshuffle draws s) ∧ Follows s (MahjongMatch.reshuffle draws s) := by
  have hdeal := deals_reshuffle draws s
  exact ⟨kept_deal hdeal.board hpairs rfl hover (Nat.zero_lt_succ 5) (Nat.zero_lt_succ 5),
    Or.inr (Or.inr hdeal)⟩

lemma Kept.letter (h : Kept s) (ev : KeyEvent) (draws : Draws)
    (hover : s.isOver = false)
    (hspare : ev.ch = code 'n' → ev.isRepeat = false → s.pairsLeft = 18) :
    Kept (MahjongMatch.letter ev draws s) ∧ Follows s (MahjongMatch.letter ev draws s) := by
  unfold MahjongMatch.letter
  split_ifs with _ _ _ _ hn hrep _ _
  · exact h.moves _ _ h.cx (Nat.mod_lt _ (by decide))
  · exact h.moves _ _ h.cx (Nat.mod_lt _ (by decide))
  · exact h.moves _ _ (Nat.mod_lt _ (by decide)) h.cy
  · exact h.moves _ _ (Nat.mod_lt _ (by decide)) h.cy
  · exact Kept.reshuffle draws hover (hspare hn (by simpa using hrep))
  · exact h.same
  · exact h.exits
  · exact h.same
  · exact h.same

lemma Kept.press (h : Kept s) (e : Event) (hover : s.isOver = false)
    (hspare : ¬ Spoils s e) : Kept (MahjongMatch.press e s) ∧ Follows s (MahjongMatch.press e s) := by
  unfold MahjongMatch.press
  cases hkey : e.ev.key with
  | up => exact h.moves _ _ h.cx (Nat.mod_lt _ (by decide))
  | down => exact h.moves _ _ h.cx (Nat.mod_lt _ (by decide))
  | left => exact h.moves _ _ (Nat.mod_lt _ (by decide)) h.cy
  | right => exact h.moves _ _ (Nat.mod_lt _ (by decide)) h.cy
  | ok => exact h.ok hover
  | back => exact h.onPause e.pause e.draws
  | pause => exact h.onPause e.pause e.draws
  | quit => exact h.exits
  | char =>
    refine h.letter e.ev e.draws hover fun hn hrep => ?_
    by_contra hpairs
    exact hspare ⟨hkey, hn, hrep, hover, hpairs⟩
  | _ => exact h.same

lemma Kept.onKey (h : Kept s) (e : Event) (hspare : ¬ Spoils s e) :
    Kept (MahjongMatch.onKey s e) ∧ Follows s (MahjongMatch.onKey s e) := by
  unfold MahjongMatch.onKey
  split_ifs with _ hover
  · exact h.same
  · exact h.same
  · exact Kept.newGame e.draws s
  · exact h.exits
  · exact h.same
  · exact h.press e (by simpa using hover) hspare

lemma not_right_of_spoils {e : Event} (hspoils : Spoils s e) :
    ¬ Right (MahjongMatch.onKey s e) := by
  obtain ⟨hkey, hch, hrep, hover, hpairs⟩ := hspoils
  have heq : MahjongMatch.onKey s e = MahjongMatch.reshuffle e.draws s := by
    simp [MahjongMatch.onKey, MahjongMatch.press, MahjongMatch.letter, hkey, hch, hrep, hover,
      show (code 'n' = code 'w') = False by decide, show (code 'n' = code 's') = False by decide,
      show (code 'n' = code 'a') = False by decide, show (code 'n' = code 'd') = False by decide]
  intro hright
  have htiles := hright.tiles
  rw [heq, tiles_deal (deals_reshuffle e.draws s).board] at htiles
  have hsame : (MahjongMatch.reshuffle e.draws s).pairsLeft = s.pairsLeft := rfl
  rw [hsame] at htiles
  omega

lemma plays_iff (h : Kept s) (events : List Event) : Plays s events ↔ Meets s events := by
  induction events generalizing s with
  | nil => exact iff_of_true h.right trivial
  | cons e events ih =>
    rw [Plays, Meets]
    by_cases hspoils : Spoils s e
    · refine iff_of_false (fun hp => ?_) fun hm => hm.1 hspoils
      refine not_right_of_spoils hspoils ?_
      cases events with
      | nil => exact hp.2.2
      | cons _ _ => exact hp.2.2.1
    · obtain ⟨hkept, hfollows⟩ := h.onKey e hspoils
      rw [ih hkept]
      exact ⟨fun hp => ⟨hspoils, hp.2.2⟩, fun hm => ⟨h.right, hfollows, hm.2⟩⟩

/-- **Mahjong match.** In a game, whatever the memory held and the generator draws, all states have
right books and all keys follow the rules, if and only if no key deals the tiles again after a pair
has been taken. -/
theorem mahjong_match (memory : State) (draws : Draws) (events : List Event) :
    Plays (newGame draws memory) events ↔ Meets (newGame draws memory) events :=
  plays_iff (kept_newGame draws memory) events

/-- A board that no game has been played on. -/
def blank : State := ⟨[], 0, 0, none, 0, 0, .init, false, false⟩

def keyOf (key : Key) (ch : Char) : Event := ⟨⟨key, code ch, false⟩, .resume, fun _ _ => 0⟩

/-- The first and the last tile are taken, then the tiles are dealt again. -/
def pairThenDeal : List Event :=
  [keyOf .ok ' ', keyOf .left ' ', keyOf .up ' ', keyOf .ok ' ', keyOf .char 'n']

/-- **Thirty-six tiles and seventeen pairs.** -/
theorem mahjong_match_fails : ¬ Plays (newGame (fun _ _ => 0) blank) pairThenDeal := by
  intro hplays
  have hright : Right (run (newGame (fun _ _ => 0) blank) pairThenDeal) := hplays.2.2.2.2.2.2.2.2.2.2
  have htiles : tiles (run (newGame (fun _ _ => 0) blank) pairThenDeal).board = 36 ∧
      (run (newGame (fun _ _ => 0) blank) pairThenDeal).pairsLeft = 17 := by decide +kernel
  have := hright.tiles
  rw [htiles.1, htiles.2] at this
  exact absurd this (by decide)

end C1auncher.Games.MahjongMatch
