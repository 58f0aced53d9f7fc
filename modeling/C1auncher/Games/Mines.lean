import C1auncher.Games.Input
import C1auncher.Grids
import Mathlib.Order.Interval.Finset.Nat

/-!
Minesweeper on nineteen by nine cells: the mines laid at the first opening, the recursive opening of
cells around empty ones, flags, and the keys. A cell of the board holds the number of mines around
it, or `9` for a mine.
-/

namespace C1auncher.Games.Mines

open Input List

/-- Column and row. -/
abbrev Cell := ℤ × ℤ

def inside (c : Cell) : Bool := 0 ≤ c.1 && c.1 < 19 && 0 ≤ c.2 && c.2 < 9

def cells : List Cell :=
  (List.range 9).flatMap fun y : ℕ => (List.range 19).map fun x : ℕ => ((x : ℤ), (y : ℤ))

def around (c : Cell) : List Cell :=
  [(-1, -1), (0, -1), (1, -1), (-1, 0), (1, 0), (-1, 1), (0, 1), (1, 1)].map fun d : ℤ × ℤ =>
    (c.1 + d.1, c.2 + d.2)

/-- An array with one entry changed. -/
def put {α : Type} (f : Cell → α) (c : Cell) (v : α) : Cell → α := fun x => if x = c then v else f x

/-- A source of random numbers whose draws come to every cell. -/
structure Source where
  draws : ℕ → UInt32 × UInt32
  hits : ∀ x < 19, ∀ y < 9,
    ∃ n, (rngRange (draws n).1 19).toNat = x ∧ (rngRange (draws n).2 9).toNat = y

structure State where
  b : Cell → UInt8
  rep : Cell → Bool
  flag : Cell → Bool
  cur : Cell
  isOver : Bool
  won : Bool
  revealed : UInt32
  flags : UInt32
  exitRequest : Bool

def countAdj (b : Cell → UInt8) (c : Cell) : UInt8 :=
  ((around c).filter fun n => inside n && b n == 9).length.toUInt8

def near (first c : Cell) : Bool :=
  first.1 - 1 ≤ c.1 && c.1 ≤ first.1 + 1 && first.2 - 1 ≤ c.2 && c.2 ≤ first.2 + 1

/-- One turn of the planting loop: a mine at the drawn cell unless there is one, or it is near. -/
def plantTurn (first : Cell) (draw : UInt32 × UInt32) (p : (Cell → UInt8) × ℕ) :
    (Cell → UInt8) × ℕ :=
  let c : Cell := ((rngRange draw.1 19).toNat, (rngRange draw.2 9).toNat)
  if p.1 c = 9 then p
  else if near first c then p
  else (put p.1 c 9, p.2 + 1)

/-- The planting loop from its turn `k` on; `none` when it goes on for more than `fuel` turns. -/
def plantLoop (first : Cell) (source : Source) :
    ℕ → ℕ → (Cell → UInt8) × ℕ → Option (Cell → UInt8)
  | 0, _, _ => none
  | fuel + 1, k, p =>
    if 19 ≤ p.2 then some p.1
    else plantLoop first source fuel (k + 1) (plantTurn first (source.draws k) p)

def number (b : Cell → UInt8) : Cell → UInt8 :=
  cells.foldl (fun b c => if b c ≠ 9 then put b c (countAdj b c) else b) b

def plantMines (fuel : ℕ) (first : Cell) (source : Source) : Option (Cell → UInt8) :=
  (plantLoop first source fuel 0 (fun _ => 0, 0)).map number

/-- Opens a cell and, around an empty one, its neighbours; `none` when more than `fuel` calls
nest. -/
def floodReveal : ℕ → State → Cell → Option State
  | 0, _, _ => none
  | fuel + 1, s, c =>
    if !inside c then some s
    else if s.rep c || s.flag c then some s
    else
      let s := { s with rep := put s.rep c true, revealed := s.revealed + 1 }
      if s.b c = 0 then (around c).foldlM (floodReveal fuel) s else some s

/-- The board after the first opening has laid its mines. -/
def planted (fuel : ℕ) (source : Source) (s : State) : Option State :=
  if s.revealed = 0 then (plantMines fuel s.cur source).map fun b => { s with b } else some s

/-- Opens the cell under the cursor, on a board with mines. -/
def opened (s : State) : Option State :=
  if s.b s.cur = 9 then
    some { s with
      isOver := true
      rep := cells.foldl (fun r c => if s.b c = 9 then put r c true else r) s.rep }
  else
    (floodReveal 172 s s.cur).map fun s =>
      if s.revealed = 19 * 9 - 19 then { s with won := true } else s

def revealCell (fuel : ℕ) (source : Source) (s : State) : Option State :=
  if s.rep s.cur || s.flag s.cur then some s else (planted fuel source s).bind opened

def toggleFlag (s : State) : State :=
  if s.rep s.cur then s
  else
    { s with
      flag := put s.flag s.cur (!s.flag s.cur)
      flags := if !s.flag s.cur then s.flags + 1 else s.flags - 1 }

def enter (s : State) : State :=
  { s with
    b := fun _ => 0
    rep := fun _ => false
    flag := fun _ => false
    cur := (19 / 2, 9 / 2)
    isOver := false
    won := false
    revealed := 0
    flags := 0 }

/-- A key, with what the pause overlay would answer and what the generator would draw. -/
structure Event where
  ev : KeyEvent
  pause : PauseSel
  source : Source

def onPause (e : Event) (s : State) : State :=
  match e.pause with
  | .resume => s
  | .restart => enter s
  | .quit => { s with exitRequest := true }

def left (s : State) : State :=
  if 0 < s.cur.1 then { s with cur := (s.cur.1 - 1, s.cur.2) } else s

def right (s : State) : State :=
  if s.cur.1 < 19 - 1 then { s with cur := (s.cur.1 + 1, s.cur.2) } else s

def up (s : State) : State :=
  if 0 < s.cur.2 then { s with cur := (s.cur.1, s.cur.2 - 1) } else s

def down (s : State) : State :=
  if s.cur.2 < 9 - 1 then { s with cur := (s.cur.1, s.cur.2 + 1) } else s

/-- The letter keys. A letter at the edge of the board does nothing, as the later tests ask for
other letters; the check of `v` only writes a report. -/
def letter (ch : UInt8) (s : State) : State :=
  if ch = code 'a' then left s
  else if ch = code 'd' then right s
  else if ch = code 'w' then up s
  else if ch = code 's' then down s
  else if ch = code 'n' then enter s
  else if ch = code 'f' then toggleFlag s
  else s

/-- A key pressed while the game goes on. -/
def press (fuel : ℕ) (e : Event) (s : State) : Option State :=
  match e.ev.key with
  | .left => some (left s)
  | .right => some (right s)
  | .up => some (up s)
  | .down => some (down s)
  | .char => some (letter e.ev.ch s)
  | .ok => revealCell fuel e.source s
  | .del => some (toggleFlag s)
  | .pause => some (onPause e s)
  | .back => some (onPause e s)
  | .quit => some { s with exitRequest := true }
  | _ => some s

def onKey (fuel : ℕ) (s : State) (e : Event) : Option State :=
  if e.ev.isRepeat then some s
  else if s.isOver || s.won then
    if e.ev.key = .ok ∨ e.ev.key = .char ∧ e.ev.ch = code 'n' then some (enter s)
    else if e.ev.key = .back ∨ e.ev.key = .quit then some { s with exitRequest := true }
    else some s
  else press fuel e s

def run (fuel : ℕ) (s : State) (events : List Event) : Option State :=
  events.foldlM (onKey fuel) s

/-- A game just entered. -/
def start : State :=
  enter ⟨fun _ => 0, fun _ => false, fun _ => false, (0, 0), false, false, 0, 0, false⟩

/-!
Laying the mines: with a source that comes to every cell the loop ends with nineteen mines, none at
or next to the first cell, and every other cell holds the number of mines around it.
-/

open Input

variable {c first : Cell}

lemma inside_iff :
    inside c = true ↔ (0 ≤ c.1 ∧ c.1 < 19) ∧ 0 ≤ c.2 ∧ c.2 < 9 := by
  simp [inside, and_assoc]

lemma mem_cells : c ∈ cells ↔ inside c = true := by
  obtain ⟨x, y⟩ := c
  simp only [cells, mem_flatMap, mem_range, mem_map, Prod.mk.injEq, inside_iff]
  constructor
  · rintro ⟨y, hy, x, hx, rfl, rfl⟩
    omega
  · rintro ⟨⟨hx, hx'⟩, hy, hy'⟩
    exact ⟨y.toNat, by omega, x.toNat, by omega, by omega, by omega⟩

def cellAt (x y : ℕ) : Cell := ((x : ℤ), (y : ℤ))

lemma nodup_cells : cells.Nodup :=
  @Grids.nodup_places _ cellAt (fun _ _ _ _ h =>
    ⟨Int.ofNat_inj.mp (Prod.mk.inj h).1, Int.ofNat_inj.mp (Prod.mk.inj h).2⟩) 19 9

lemma length_cells : cells.length = 171 := Grids.length_places cellAt 19 9

@[simp] lemma put_self {α : Type} (f : Cell → α) (c : Cell) (v : α) : put f c v c = v := if_pos rfl

lemma put_of_ne {α : Type} (f : Cell → α) {x : Cell} (v : α) (h : x ≠ c) :
    put f c v x = f x := if_neg h

lemma countP_put {l : List Cell} (hl : l.Nodup) (hc : c ∈ l) {p q : Cell → Bool}
    (hp : p c = false) (hq : q c = true) (h : ∀ x, x ≠ c → q x = p x) :
    l.countP q = l.countP p + 1 := by
  induction l with
  | nil => exact absurd hc not_mem_nil
  | cons a l ih =>
    rw [nodup_cons] at hl
    rcases List.mem_cons.mp hc with rfl | hc
    · have hrest : l.countP q = l.countP p :=
        countP_congr fun x hx => by
          rw [h x fun hxa => hl.1 (hxa ▸ hx)]
      rw [countP_cons_of_pos hq, countP_cons_of_neg (by simp [hp]), hrest]
    · have hac : a ≠ c := fun hac => hl.1 (hac ▸ hc)
      rw [countP_cons, countP_cons, ih hl.2 hc, h a hac]
      omega

/-! ### The planting loop -/

/-- The board and the number of mines after some turns of the loop. -/
def turns (first : Cell) (source : Source) (k : ℕ) : (Cell → UInt8) × ℕ :=
  (List.range k).foldl (fun p i => plantTurn first (source.draws i) p) (fun _ => 0, 0)

lemma turns_succ (first : Cell) (source : Source) (k : ℕ) :
    turns first source (k + 1) = plantTurn first (source.draws k) (turns first source k) := by
  rw [turns, range_succ, foldl_append]
  rfl

/-- What holds after every turn. -/
structure Laid (first : Cell) (p : (Cell → UInt8) × ℕ) : Prop where
  values : ∀ c, p.1 c = 0 ∨ p.1 c = 9
  mines : ∀ c, p.1 c = 9 → inside c = true ∧ near first c = false
  count : cells.countP (p.1 · == 9) = p.2

def drawn (draw : UInt32 × UInt32) : Cell :=
  ((rngRange draw.1 19).toNat, (rngRange draw.2 9).toNat)

lemma inside_drawn (draw : UInt32 × UInt32) : inside (drawn draw) = true := by
  have hx := UInt32.lt_iff_toNat_lt.mp (rngRange_lt draw.1 (n := 19) (by decide))
  have hy := UInt32.lt_iff_toNat_lt.mp (rngRange_lt draw.2 (n := 9) (by decide))
  simp only [UInt32.reduceToNat] at hx hy
  rw [inside_iff, drawn]
  omega

lemma plantTurn_cases (first : Cell) (draw : UInt32 × UInt32) (p : (Cell → UInt8) × ℕ) :
    (plantTurn first draw p = p ∧ (p.1 (drawn draw) = 9 ∨ near first (drawn draw) = true)) ∨
      (plantTurn first draw p = (put p.1 (drawn draw) 9, p.2 + 1) ∧ p.1 (drawn draw) ≠ 9 ∧
        near first (drawn draw) = false) := by
  unfold plantTurn
  change (ite (p.1 (drawn draw) = 9) p (ite (near first (drawn draw) = true) p
      (put p.1 (drawn draw) 9, p.2 + 1)) = p ∧ _) ∨
    (ite (p.1 (drawn draw) = 9) p (ite (near first (drawn draw) = true) p
      (put p.1 (drawn draw) 9, p.2 + 1)) = _ ∧ _)
  split_ifs with hmine hnear
  · exact .inl ⟨rfl, .inl hmine⟩
  · exact .inl ⟨rfl, .inr hnear⟩
  · exact .inr ⟨rfl, hmine, by simpa using hnear⟩

lemma Laid.turn {p : (Cell → UInt8) × ℕ} (h : Laid first p)
    (draw : UInt32 × UInt32) : Laid first (plantTurn first draw p) := by
  rcases plantTurn_cases first draw p with ⟨heq, -⟩ | ⟨heq, hmine, hnear⟩ <;> rw [heq]
  · exact h
  refine ⟨fun c => ?_, fun c hc => ?_, ?_⟩
  · rcases eq_or_ne c (drawn draw) with rfl | hne
    · exact .inr (put_self _ _ _)
    · simp only [put_of_ne _ _ hne]
      exact h.values c
  · rcases eq_or_ne c (drawn draw) with rfl | hne
    · exact ⟨inside_drawn draw, hnear⟩
    · exact h.mines c (by simpa only [put_of_ne _ _ hne] using hc)
  · rw [← h.count]
    exact countP_put nodup_cells (mem_cells.mpr (inside_drawn draw)) (by simpa using hmine)
      (by simp) fun x hx => by simp only [put_of_ne _ _ hx]

lemma laid_turns (first : Cell) (source : Source) (k : ℕ) :
    Laid first (turns first source k) := by
  induction k with
  | zero =>
    refine ⟨fun _ => .inl rfl, fun c hc => absurd hc (by decide : (0 : UInt8) ≠ 9), ?_⟩
    exact List.countP_eq_zero.mpr fun c _ => (by decide : ¬ ((0 : UInt8) == 9) = true)
  | succ k ih =>
    rw [turns_succ]
    exact ih.turn _

lemma mine_kept {source : Source} {j k : ℕ} (h : j ≤ k)
    (hc : (turns first source j).1 c = 9) : (turns first source k).1 c = 9 := by
  induction k, h using Nat.le_induction with
  | base => exact hc
  | succ k _ ih =>
    rw [turns_succ]
    rcases plantTurn_cases first (source.draws k) (turns first source k) with ⟨heq, -⟩ | ⟨heq, -, -⟩
    · rw [heq]
      exact ih
    rw [heq]
    rcases eq_or_ne c (drawn (source.draws k)) with rfl | hne
    · exact put_self _ _ _
    · simpa only [put_of_ne _ _ hne] using ih

lemma exists_mine (source : Source) (hc : inside c = true)
    (hnear : near first c = false) : ∃ k, (turns first source k).1 c = 9 := by
  rw [inside_iff] at hc
  obtain ⟨n, hx, hy⟩ := source.hits c.1.toNat (by omega) c.2.toNat (by omega)
  have hdrawn : drawn (source.draws n) = c := by
    rw [drawn, hx, hy]
    exact Prod.ext (by simp; omega) (by simp; omega)
  refine ⟨n + 1, ?_⟩
  rw [turns_succ]
  rcases plantTurn_cases first (source.draws n) (turns first source n) with
    ⟨heq, hmine | hn⟩ | ⟨heq, -, -⟩
  · rw [heq, ← hdrawn]
    exact hmine
  · rw [hdrawn, hnear] at hn
    exact absurd hn Bool.false_ne_true
  · rw [heq, ← hdrawn]
    exact put_self _ _ _

lemma exists_full (source : Source) :
    ∃ k, 19 ≤ (turns first source k).2 := by
  obtain ⟨y, hy, hfar⟩ : ∃ y : ℤ, (0 ≤ y ∧ y < 9) ∧ ∀ x : ℤ, near first (x, y) = false := by
    rcases lt_or_ge first.2 4 with h | h
    · exact ⟨8, by omega, fun x => by simp [near]; omega⟩
    · exact ⟨0, by omega, fun x => by simp [near]; omega⟩
  have hmine : ∀ x : ℕ, x < 19 → ∃ k, (turns first source k).1 ((x : ℤ), y) = 9 := fun x hx =>
    exists_mine source (by rw [inside_iff]; omega) (hfar x)
  choose! turn hturn using hmine
  refine ⟨(Finset.range 19).sup turn, ?_⟩
  rw [← (laid_turns first source _).count, countP_eq_length_filter]
  have hrow : ((List.range 19).map fun x : ℕ => ((x : ℤ), y)).length ≤
      (cells.filter fun c => (turns first source ((Finset.range 19).sup turn)).1 c == 9).length := by
    refine Subperm.length_le (subperm_of_subset ?_ fun c hc => ?_)
    · refine List.Nodup.map (fun a b hab => ?_) nodup_range
      simpa using hab
    obtain ⟨x, hx, rfl⟩ := List.mem_map.mp hc
    rw [mem_range] at hx
    refine List.mem_filter.mpr ⟨mem_cells.mpr (by rw [inside_iff]; omega), ?_⟩
    rw [beq_iff_eq]
    exact mine_kept (Finset.le_sup (f := turn) (Finset.mem_range.mpr hx)) (hturn x hx)
  simpa using hrow

lemma plantLoop_eq {source : Source} {m : ℕ} (hm : 19 ≤ (turns first source m).2)
    (hless : ∀ k < m, (turns first source k).2 < 19) {k fuel : ℕ} (hk : k ≤ m)
    (hfuel : m - k < fuel) :
    plantLoop first source fuel k (turns first source k) = some (turns first source m).1 := by
  induction fuel generalizing k with
  | zero => omega
  | succ fuel ih =>
    rw [plantLoop]
    rcases Nat.lt_or_eq_of_le hk with hlt | rfl
    · rw [if_neg (by have := hless k hlt; omega), ← turns_succ]
      exact ih hlt (by omega)
    · rw [if_pos hm]

/-! ### The numbers -/

lemma countAdj_toNat (b : Cell → UInt8) (c : Cell) :
    (countAdj b c).toNat = ((around c).filter fun n => inside n && b n == 9).length ∧
      countAdj b c ≠ 9 := by
  have hle : ((around c).filter fun n => inside n && b n == 9).length ≤ 8 :=
    (length_filter_le _ _).trans (by simp [around])
  have htoNat : (countAdj b c).toNat = ((around c).filter fun n => inside n && b n == 9).length := by
    rw [countAdj, Nat.toUInt8_eq, UInt8.toNat_ofNat', Nat.mod_eq_of_lt (by omega)]
  refine ⟨htoNat, fun h => ?_⟩
  rw [h] at htoNat
  simp at htoNat
  omega

lemma countAdj_congr {b b' : Cell → UInt8} (h : ∀ c, b' c = 9 ↔ b c = 9) (c : Cell) :
    countAdj b' c = countAdj b c := by
  unfold countAdj
  congr 2
  refine filter_congr fun n _ => ?_
  rw [Bool.eq_iff_iff]
  simp [h]

lemma number_eq (b : Cell → UInt8) (c : Cell) :
    number b c = if c ∈ cells ∧ b c ≠ 9 then countAdj b c else b c := by
  unfold number
  suffices hl : ∀ (l : List Cell) (b' : Cell → UInt8) (done : Cell → Prop) [DecidablePred done],
      (∀ x, b' x = if done x ∧ b x ≠ 9 then countAdj b x else b x) → ∀ x,
        l.foldl (fun b c => if b c ≠ 9 then put b c (countAdj b c) else b) b' x =
          if (done x ∨ x ∈ l) ∧ b x ≠ 9 then countAdj b x else b x by
    have := hl cells b (fun _ => False) (by simp) c
    simpa using this
  intro l
  induction l with
  | nil =>
    intro b' done _ h x
    simpa using h x
  | cons a l ih =>
    intro b' done _ h x
    have hmine : ∀ x, b' x = 9 ↔ b x = 9 := by
      intro x
      rw [h x]
      split_ifs with hx
      · simp [hx.2, (countAdj_toNat b x).2]
      · rfl
    rw [foldl_cons, ih _ (fun x => done x ∨ x = a) ?_ x]
    · simp only [mem_cons, or_assoc]
    intro x
    by_cases ha : b a = 9
    · rw [if_neg (by simpa [hmine] using ha), h x]
      rcases eq_or_ne x a with rfl | hne
      · simp [ha]
      · simp [hne]
    rw [if_pos (by simpa [hmine] using ha)]
    rcases eq_or_ne x a with rfl | hne
    · simp [ha, countAdj_congr hmine]
    · rw [put_of_ne _ _ hne, h x]
      simp [hne]

/-- A board with its mines laid around a first cell, and numbered. -/
structure Planted (first : Cell) (b : Cell → UInt8) : Prop where
  count : cells.countP (b · == 9) = 19
  clear : ∀ c, inside c = true → near first c = true → b c ≠ 9
  numbers : ∀ c, inside c = true → b c ≠ 9 →
    (b c).toNat = ((around c).filter fun n => inside n && b n == 9).length

/-- **The mines are laid after finitely many draws**, and a longer bound on the turns of the loop
changes nothing. -/
theorem plantMines_spec (first : Cell) (source : Source) :
    ∃ b, Planted first b ∧ ∃ N, ∀ fuel ≥ N, plantMines fuel first source = some b := by
  classical
  have hex := @exists_full first source
  have hm := Nat.find_spec hex
  have hless : ∀ k < Nat.find hex, (turns first source k).2 < 19 := fun k hk =>
    not_le.mp (Nat.find_min hex hk)
  generalize Nat.find hex = m at hm hless
  have hlaid := laid_turns first source m
  have hnumber : ∀ c, number (turns first source m).1 c = 9 ↔ (turns first source m).1 c = 9 := by
    intro c
    rw [number_eq]
    split_ifs with h
    · simp [h.2, (countAdj_toNat _ c).2]
    · rfl
  have h19 : (turns first source m).2 = 19 := by
    rcases m with _ | m
    · simp [turns] at hm
    have := hless m (by omega)
    rw [turns_succ] at hm ⊢
    rcases plantTurn_cases first (source.draws m) (turns first source m) with
      ⟨heq, -⟩ | ⟨heq, -, -⟩ <;> rw [heq] at hm ⊢ <;> omega
  refine ⟨number (turns first source m).1, ⟨?_, ?_, ?_⟩, m + 1, fun fuel hfuel => ?_⟩
  · rw [← h19, ← hlaid.count]
    refine countP_congr fun c _ => ?_
    simp only [beq_iff_eq, hnumber]
  · intro c _ hnear hc
    have := (hlaid.mines c ((hnumber c).mp hc)).2
    rw [hnear] at this
    exact absurd this.symm Bool.false_ne_true
  · intro c hc hne
    have hne' : (turns first source m).1 c ≠ 9 := fun h => hne ((hnumber c).mpr h)
    rw [number_eq, if_pos ⟨mem_cells.mpr hc, hne'⟩, (countAdj_toNat _ c).1]
    refine congrArg List.length (filter_congr fun n _ => ?_)
    rw [Bool.eq_iff_iff]
    simp [hnumber]
  · have hloop : plantLoop first source fuel 0 (fun _ => 0, 0) = some (turns first source m).1 :=
      plantLoop_eq hm hless (k := 0) (Nat.zero_le m) (by omega)
    exact congrArg (Option.map number) hloop

end C1auncher.Games.Mines
