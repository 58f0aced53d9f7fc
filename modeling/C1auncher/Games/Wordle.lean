import C1auncher.Games.Input
import Mathlib.Data.List.Range
import Mathlib.Tactic.Ring

/-!
Wordle: the list of words, the marking of a row, submitting a row, and the keys.
-/

namespace C1auncher.Games.Wordle

open Input List Function

def words : List String :=
  ["about", "above", "abuse", "actor", "acute", "admit", "adopt", "adult", "after", "again",
    "agent", "agree", "ahead", "alarm", "album", "alert", "alike", "alive", "allow", "alone",
    "along", "alter", "among", "anger", "angle", "angry", "ankle", "apart", "apple", "apply",
    "arena", "argue", "arise", "armor", "aroma", "array", "arrow", "aside", "asset", "audio",
    "audit", "avoid", "award", "aware", "awful", "bacon", "badge", "baker", "basic", "beach",
    "beard", "beast", "begin", "being", "belly", "below", "bench", "berry", "birth", "black",
    "blade", "blame", "blank", "blast", "blaze", "bleed", "blend", "bless", "blind", "block",
    "blood", "bloom", "bluff", "board", "boast", "bonus", "boost", "booth", "bound", "brain",
    "brand", "brave", "bread", "break", "breed", "brick", "bride", "brief", "bring", "broad",
    "broke", "brown", "brush", "build", "built", "bunch", "burst", "cabin", "cable", "candy",
    "cargo", "carry", "catch", "cause", "cease", "chain", "chair", "chalk", "chant", "chaos",
    "charm", "chart", "chase", "cheap", "check", "cheek", "cheer", "chess", "chest", "chief",
    "chill", "china", "choir", "choke", "chose", "chunk", "cigar", "claim", "clash", "class",
    "clean", "clear", "clerk", "click", "cliff", "climb", "cloak", "clock", "clone", "close",
    "cloth", "cloud", "clown", "coach", "coast", "color", "could", "count", "court", "cover",
    "crack", "craft", "crane", "crash", "cream", "creek", "creep", "crime", "crisp", "cross",
    "crowd", "crown", "crude", "cruel", "crush", "crust", "curve", "cycle", "daily", "dairy",
    "dance", "death", "debut", "delay", "dense", "depth", "devil", "diary", "digit", "dirty",
    "disco", "doubt", "dozen", "draft", "drain", "drama", "dream", "dress", "drink", "drive",
    "drunk", "early", "earth", "eager", "eagle", "elbow", "elder", "elect", "email", "empty"]

def letters (w : String) : List UInt8 := w.toList.map code

/-- An array of letters; only the places below five are used. -/
abbrev Row := ℕ → UInt8

def word (r : Row) : List UInt8 := (List.range 5).map r

/-- A word of the list as a row; the places after it are zero. -/
def rowOf (w : String) : Row := fun i => (letters w).getD i 0

/-- The place of a letter in the table of letters left. -/
def index (c : UInt8) : ℕ := (c - code 'a').toNat

/-- How many of each letter are left to be marked. -/
abbrev Avail := ℕ → ℤ

def countTurn (ans : Row) (avail : Avail) (i : ℕ) : Avail :=
  Function.update avail (index (ans i)) (avail (index (ans i)) + 1)

def greenTurn (ans cur : Row) (p : Row × Avail) (i : ℕ) : Row × Avail :=
  if cur i = ans i then
    (Function.update p.1 i 2, Function.update p.2 (index (cur i)) (p.2 (index (cur i)) - 1))
  else p

/-- Yellow: the letter is left over in another place. -/
def yellowTurn (cur : Row) (p : Row × Avail) (i : ℕ) : Row × Avail :=
  if p.1 i = 0 ∧ 0 < p.2 (index (cur i)) then
    (Function.update p.1 i 1, Function.update p.2 (index (cur i)) (p.2 (index (cur i)) - 1))
  else p

/-- The colours of a row, over those it had before: `2` is green, `1` is yellow, `0` is grey. -/
def scoreRow (ans cur col : Row) : Row :=
  let avail := (List.range 5).foldl (countTurn ans) fun _ => 0
  let green := (List.range 5).foldl (greenTurn ans cur) (col, avail)
  ((List.range 5).foldl (yellowTurn cur) green).1

structure State where
  g : ℕ → Row
  col : ℕ → Row
  cur : Row
  curLen : ℕ
  row : ℕ
  ans : Row
  isOver : Bool
  won : Bool
  msgTicks : ℕ
  exitRequest : Bool

def inWords (r : Row) (length : ℕ) : Bool :=
  if length ≠ 5 then false else words.any fun w => word r == letters w

/-- A row that is too short or not in the list is announced as invalid for two ticks. -/
def invalid (s : State) : State := { s with msgTicks := 2 }

/-- The row as it is submitted: kept, marked, and compared with the answer. -/
def submitted (s : State) : State :=
  let s := { s with
    g := Function.update s.g s.row s.cur
    col := Function.update s.col s.row (scoreRow s.ans s.cur (s.col s.row)) }
  if word s.cur = word s.ans then { s with isOver := true, won := true } else s

def submit (s : State) : State :=
  if s.curLen < 5 then invalid s
  else if !inWords s.cur s.curLen then invalid s
  else
    let s := submitted s
    let s := { s with row := s.row + 1, curLen := 0, cur := fun _ => 0 }
    if 6 ≤ s.row then { s with isOver := true, won := false } else s

/-- A new game; the answer is the word at the number drawn. -/
def enter (draw : UInt32) (s : State) : State :=
  { s with
    g := fun _ _ => 0
    col := fun _ _ => 0
    cur := fun _ => 0
    curLen := 0
    row := 0
    isOver := false
    won := false
    msgTicks := 0
    ans := rowOf (words.getD (rngRange draw 200).toNat "") }

/-- A tick, or a key with what the pause overlay would answer and the generator would draw. -/
inductive Event
  | tick
  | key (ev : KeyEvent) (pause : PauseSel) (draw : UInt32)

def tick (s : State) : State := { s with msgTicks := s.msgTicks - 1 }

/-- A capital letter is taken as a small one. -/
def lower (ch : UInt8) : UInt8 :=
  if code 'A' ≤ ch ∧ ch ≤ code 'Z' then ch - code 'A' + code 'a' else ch

def typed (ch : UInt8) (s : State) : State :=
  if (code 'a' ≤ lower ch ∧ lower ch ≤ code 'z') ∧ s.curLen < 5 then
    { s with cur := Function.update s.cur s.curLen (lower ch), curLen := s.curLen + 1 }
  else s

def deleted (s : State) : State :=
  if 0 < s.curLen then
    { s with cur := Function.update s.cur (s.curLen - 1) 0, curLen := s.curLen - 1 }
  else s

def onPause (pause : PauseSel) (draw : UInt32) (s : State) : State :=
  match pause with
  | .resume => s
  | .restart => enter draw s
  | .quit => { s with exitRequest := true }

/-- A key pressed while the game goes on; it clears the announcement. -/
def press (ev : KeyEvent) (pause : PauseSel) (draw : UInt32) (s : State) : State :=
  let s := { s with msgTicks := 0 }
  match ev.key with
  | .char => typed ev.ch s
  | .del => deleted s
  | .ok => submit s
  | .pause => onPause pause draw s
  | .back => onPause pause draw s
  | .quit => { s with exitRequest := true }
  | _ => s

def onKey (ev : KeyEvent) (pause : PauseSel) (draw : UInt32) (s : State) : State :=
  if ev.isRepeat && ev.key != .del then s
  else if s.isOver then
    if ev.key = .ok ∨ ev.key = .char ∧ ev.ch = code 'n' then enter draw s
    else if ev.key = .back ∨ ev.key = .quit then { s with exitRequest := true }
    else s
  else press ev pause draw s

def next (s : State) : Event → State
  | .tick => tick s
  | .key ev pause draw => onKey ev pause draw s

def run (s : State) (events : List Event) : State := events.foldl next s

/-!
The colours of a submitted row: green where the letters agree, and for each letter as many green and
yellow marks as guess and answer share, the yellow ones leftmost.
-/

open Input

def occurrences (r : Row) (c : UInt8) : ℕ := (List.range 5).countP fun i => r i == c

/-- **The marking of a guess.** -/
structure Marks (ans guess col : Row) : Prop where
  colour : ∀ i < 5, col i = 0 ∨ col i = 1 ∨ col i = 2
  green : ∀ i < 5, col i = 2 ↔ guess i = ans i
  count : ∀ c, (List.range 5).countP (fun i => guess i == c && col i != 0) =
    min (occurrences guess c) (occurrences ans c)
  leftmost : ∀ i < 5, ∀ j < i, guess j = guess i → col i = 1 → col j ≠ 0

lemma index_inj {c d : UInt8} (h : index c = index d) : c = d := by
  have h' : c - code 'a' = d - code 'a' := UInt8.toNat_inj.mp h
  exact sub_left_inj.mp h'

lemma countP_range_succ (p : ℕ → Bool) (n : ℕ) :
    (List.range (n + 1)).countP p = (List.range n).countP p + if p n then 1 else 0 := by
  rw [range_succ, countP_append, countP_singleton]

lemma countP_first (p : ℕ → Bool) (m n : ℕ) :
    (List.range n).countP (fun i => p i && decide ((List.range i).countP p < m)) =
      min m ((List.range n).countP p) := by
  induction n with
  | zero => simp
  | succ n ih =>
    rw [countP_range_succ, ih, countP_range_succ p]
    cases p n with
    | false => simp
    | true =>
      by_cases hlt : (List.range n).countP p < m
      · simp [hlt]
        omega
      · simp [hlt]
        omega

/-! ### What the three loops have done after `n` turns -/

variable (ans cur : Row)

/-- Letters of a row among its first `n`. -/
def held (r : Row) (x n : ℕ) : ℕ := (List.range n).countP fun i => index (r i) == x

/-- Places among the first `n` where the letters agree and are the one asked for. -/
def greens (x n : ℕ) : ℕ := (List.range n).countP fun i => cur i == ans i && index (cur i) == x

/-- Places among the first `n` where the letters differ and the guess has the one asked for. -/
def others (x n : ℕ) : ℕ := (List.range n).countP fun i => cur i != ans i && index (cur i) == x

lemma greens_succ (x n : ℕ) : greens ans cur x (n + 1) =
    greens ans cur x n + if cur n = ans n ∧ index (cur n) = x then 1 else 0 := by
  simp [greens, countP_range_succ]

lemma greens_add_others (x n : ℕ) : greens ans cur x n + others ans cur x n = held cur x n := by
  unfold greens others held
  induction n with
  | zero => rfl
  | succ n ih =>
    rw [countP_range_succ, countP_range_succ, countP_range_succ, ← ih]
    by_cases heq : cur n = ans n <;> by_cases hx : index (cur n) = x <;> simp [heq, hx] <;> omega

lemma greens_le_held (x n : ℕ) : greens ans cur x n ≤ held ans x n := by
  refine countP_mono_left fun i _ h => ?_
  simp only [Bool.and_eq_true, beq_iff_eq] at h ⊢
  rw [← h.1]
  exact h.2

lemma count_turns (n x : ℕ) :
    (List.range n).foldl (countTurn ans) (fun _ => 0) x = held ans x n := by
  induction n generalizing x with
  | zero => rfl
  | succ n ih =>
    rw [range_succ, foldl_concat, countTurn, held, countP_range_succ, ← held]
    by_cases hx : x = index (ans n)
    · subst hx
      rw [update_self, ih]
      simp
    · rw [update_of_ne hx, ih]
      simp [Ne.symm hx]

lemma green_turns (col : Row) (avail : Avail) (n : ℕ) :
    (List.range n).foldl (greenTurn ans cur) (col, avail) =
      (fun i => if i < n ∧ cur i = ans i then 2 else col i,
        fun x => avail x - greens ans cur x n) := by
  induction n with
  | zero => simp [greens]
  | succ n ih =>
    rw [range_succ, foldl_concat, ih, greenTurn]
    by_cases heq : cur n = ans n
    · rw [if_pos heq]
      refine Prod.ext (funext fun i => ?_) (funext fun x => ?_) <;> dsimp only
      · by_cases hi : i = n
        · subst hi
          simp [heq]
        rw [update_of_ne hi]
        have : i < n + 1 ↔ i < n := by omega
        simp only [this]
      · simp only [greens, countP_range_succ]
        by_cases hx : x = index (cur n)
        · subst hx
          rw [update_self]
          simp [heq, sub_sub]
        · rw [update_of_ne hx]
          simp [Ne.symm hx]
    · rw [if_neg heq]
      refine Prod.ext (funext fun i => ?_) (funext fun x => ?_) <;> dsimp only
      · by_cases hi : i = n
        · subst hi
          simp [heq]
        · have : i < n + 1 ↔ i < n := by omega
          simp only [this]
      · simp only [greens, countP_range_succ]
        simp [heq]

/-- Places among the first `n` that are not marked yet and have the letter asked for. -/
def blanks (col : Row) (x n : ℕ) : ℕ :=
  (List.range n).countP fun i => col i == 0 && index (cur i) == x

lemma yellow_turns (col : Row) (avail : Avail) (hpos : ∀ x, 0 ≤ avail x) (n : ℕ) :
    (List.range n).foldl (yellowTurn cur) (col, avail) =
      (fun i => if i < n ∧ col i = 0 ∧ (blanks cur col (index (cur i)) i : ℤ) < avail (index (cur i))
        then 1 else col i,
        fun x => avail x - min (avail x) (blanks cur col x n)) := by
  induction n with
  | zero => simp [blanks, hpos]
  | succ n ih =>
    rw [range_succ, foldl_concat, ih, yellowTurn]
    have hsucc : ∀ x, (blanks cur col x (n + 1) : ℤ) =
        blanks cur col x n + if col n = 0 ∧ index (cur n) = x then 1 else 0 := by
      intro x
      rw [blanks, countP_range_succ, ← blanks]
      by_cases h0 : col n = 0 <;> by_cases hx : index (cur n) = x <;> simp [h0, hx]
    have hfree : (if n < n ∧ col n = 0 ∧ (blanks cur col (index (cur n)) n : ℤ) <
        avail (index (cur n)) then 1 else col n) = col n := if_neg fun h => absurd h.1 (lt_irrefl n)
    have hbefore : ∀ i, i ≠ n → (i < n + 1 ↔ i < n) := fun i hi => by omega
    simp only [hfree]
    have hp := hpos (index (cur n))
    by_cases htake : col n = 0 ∧ (blanks cur col (index (cur n)) n : ℤ) < avail (index (cur n))
    · rw [if_pos ⟨htake.1, by omega⟩]
      refine Prod.ext (funext fun i => ?_) (funext fun x => ?_) <;> dsimp only
      · by_cases hi : i = n
        · subst hi
          simp [htake]
        · rw [update_of_ne hi]
          simp only [hbefore i hi]
      · simp only [hsucc]
        by_cases hx : x = index (cur n)
        · subst hx
          rw [update_self, if_pos ⟨htake.1, rfl⟩]
          omega
        · rw [update_of_ne hx, if_neg fun h => hx h.2.symm, add_zero]
    · rw [if_neg fun h => htake ⟨h.1, by have := h.2; omega⟩]
      refine Prod.ext (funext fun i => ?_) (funext fun x => ?_) <;> dsimp only
      · by_cases hi : i = n
        · subst hi
          simp only [lt_irrefl, false_and, if_false]
          rw [if_neg fun h => htake h.2]
        · simp only [hbefore i hi]
      · simp only [hsucc]
        by_cases hx : col n = 0 ∧ index (cur n) = x
        · obtain ⟨h0, rfl⟩ := hx
          rw [if_pos ⟨h0, rfl⟩]
          have hge : ¬ (blanks cur col (index (cur n)) n : ℤ) < avail (index (cur n)) :=
            fun hlt => htake ⟨h0, hlt⟩
          omega
        · rw [if_neg hx, add_zero]

/-! ### The marks -/

lemma scoreRow_eq {i : ℕ} (hi : i < 5) :
    scoreRow ans cur (fun _ => 0) i =
      if cur i = ans i then 2
      else if others ans cur (index (cur i)) i + greens ans cur (index (cur i)) 5 <
          held ans (index (cur i)) 5 then 1
      else 0 := by
  have havail : (List.range 5).foldl (countTurn ans) (fun _ => 0) = fun x => (held ans x 5 : ℤ) :=
    funext (count_turns ans 5)
  have hpos : ∀ x, (0 : ℤ) ≤ (held ans x 5 : ℤ) - greens ans cur x 5 := fun x => by
    have := greens_le_held ans cur x 5
    omega
  have hblanks : blanks cur (fun i => if i < 5 ∧ cur i = ans i then 2 else 0) (index (cur i)) i =
      others ans cur (index (cur i)) i := by
    refine countP_congr fun j hj => ?_
    have hj5 : j < 5 := (List.mem_range.mp hj).trans hi
    by_cases heq : cur j = ans j <;> simp [heq, hj5]
  rw [scoreRow, havail, green_turns, yellow_turns _ _ _ hpos]
  dsimp only
  rw [hblanks]
  by_cases heq : cur i = ans i
  · simp [heq, hi]
  by_cases hlt : others ans cur (index (cur i)) i + greens ans cur (index (cur i)) 5 <
      held ans (index (cur i)) 5
  · rw [if_pos ⟨hi, if_neg fun h => heq h.2, by omega⟩, if_neg heq, if_pos hlt]
  · rw [if_neg fun h => hlt (by have := h.2.2; omega), if_neg fun h => heq h.2, if_neg heq,
      if_neg hlt]

lemma held_index (r : Row) (c : UInt8) : held r (index c) 5 = occurrences r c := by
  refine countP_congr fun i _ => ?_
  simp only [beq_iff_eq]
  exact ⟨index_inj, fun h => by rw [h]⟩

lemma count_marked (c : UInt8) :
    (List.range 5).countP (fun i => cur i == c && scoreRow ans cur (fun _ => 0) i != 0) =
      greens ans cur (index c) 5 +
        min (held ans (index c) 5 - greens ans cur (index c) 5) (others ans cur (index c) 5) := by
  have hsplit : ∀ n ≤ 5,
      (List.range n).countP (fun i => cur i == c && scoreRow ans cur (fun _ => 0) i != 0) =
        greens ans cur (index c) n +
          (List.range n).countP (fun i => (cur i != ans i && index (cur i) == index c) &&
            decide (others ans cur (index c) i <
              held ans (index c) 5 - greens ans cur (index c) 5)) := by
    intro n hn
    induction n with
    | zero => rfl
    | succ n ih =>
      rw [countP_range_succ, ih (by omega), greens_succ ans cur (index c) n, countP_range_succ,
        scoreRow_eq ans cur (by omega : n < 5)]
      by_cases hc : cur n = c
      · subst hc
        by_cases heq : cur n = ans n
        · simp [heq]
          omega
        by_cases hlt : others ans cur (index (cur n)) n + greens ans cur (index (cur n)) 5 <
          held ans (index (cur n)) 5
        · have : others ans cur (index (cur n)) n <
              held ans (index (cur n)) 5 - greens ans cur (index (cur n)) 5 := by omega
          simp [heq, hlt, this]
          omega
        · have : ¬ others ans cur (index (cur n)) n <
              held ans (index (cur n)) 5 - greens ans cur (index (cur n)) 5 := by omega
          simp [heq, hlt, this]
      · have hx : ¬ index (cur n) = index c := fun h => hc (index_inj h)
        simp [hc, hx]
  rw [hsplit 5 le_rfl]
  congr 1
  exact countP_first (fun i => cur i != ans i && index (cur i) == index c) _ 5

lemma marks_scoreRow : Marks ans cur (scoreRow ans cur fun _ => 0) where
  colour i hi := by
    rw [scoreRow_eq ans cur hi]
    split_ifs
    · exact Or.inr (Or.inr rfl)
    · exact Or.inr (Or.inl rfl)
    · exact Or.inl rfl
  green i hi := by
    rw [scoreRow_eq ans cur hi]
    split_ifs with heq
    · exact ⟨fun _ => heq, fun _ => rfl⟩
    · exact ⟨fun h => absurd h (by decide), fun h => absurd h heq⟩
    · exact ⟨fun h => absurd h (by decide), fun h => absurd h heq⟩
  count c := by
    have hsum := greens_add_others ans cur (index c) 5
    have hle := greens_le_held ans cur (index c) 5
    rw [count_marked, ← held_index, ← held_index]
    omega
  leftmost i hi j hj hsame hyellow := by
    rw [scoreRow_eq ans cur hi] at hyellow
    rw [scoreRow_eq ans cur (hj.trans hi), hsame]
    -- no more places are taken before `j` than before `i`
    have hmono : others ans cur (index (cur i)) j ≤ others ans cur (index (cur i)) i :=
      (List.range_sublist.mpr hj.le).countP_le
    split_ifs at hyellow with h1 h2
    · exact absurd hyellow (by decide)
    · rw [if_pos (by omega : others ans cur (index (cur i)) j + _ < _)]
      split <;> decide
    · exact absurd hyellow (by decide)

end C1auncher.Games.Wordle
