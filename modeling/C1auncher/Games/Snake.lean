import C1auncher.Games.Input
import C1auncher.Rings
import C1auncher.Grids
import Mathlib.Data.Fin.VecNotation
import Mathlib.Tactic.FinCases

/-!
Snake on twenty-four by eleven cells: the body in a ring of cells, the food, the tick and the keys.
-/

namespace C1auncher.Games.Snake

open Input List

abbrev width : ℕ := 24

abbrev height : ℕ := 11

/-- As many slots as the field has cells. -/
abbrev cap : ℕ := width * height

/-- Column and row. -/
abbrev Cell := ℕ × ℕ

/-- Up, right, down, left. -/
abbrev Dir := Fin 4

def dx : Dir → ℤ
  | 0 => 0
  | 1 => 1
  | 2 => 0
  | 3 => -1

def dy : Dir → ℤ
  | 0 => -1
  | 1 => 0
  | 2 => 1
  | 3 => 0

structure State where
  body : ℕ → Cell
  len : ℕ
  head : ℕ
  dir : Dir
  nextDir : Dir
  food : Cell
  score : UInt16
  tickMs : UInt32
  alive : Bool
  paused : Bool
  isOver : Bool
  started : Bool
  exitRequest : Bool

/-- Segment `k` of the body; `0` is the head. -/
def seg (s : State) (k : ℕ) : Cell := s.body (Rings.slot cap s.head k)

def occupied (s : State) (c : Cell) : Bool := (List.range s.len).any fun k => seg s k == c

/-- The numbers that the generator would give, two for each try. -/
abbrev Draws := ℕ → UInt32 × UInt32

def drawnCell (draw : UInt32 × UInt32) : Cell :=
  ((rngRange draw.1 24).toNat, (rngRange draw.2 11).toNat)

/-- Draws cells from number `k` on until one is free, or no tries are left. -/
def tryFood (s : State) (draws : Draws) : ℕ → ℕ → Cell
  | 0, k => drawnCell (draws k)
  | tries + 1, k =>
    if occupied s (drawnCell (draws k)) then tryFood s draws tries (k + 1) else drawnCell (draws k)

def cells : List Cell :=
  (List.range height).flatMap fun y : ℕ => (List.range width).map fun x : ℕ => (x, y)

/-- Up to two hundred tries; after that the first free cell. -/
def spawnFood (draws : Draws) (s : State) : State :=
  if cap ≤ s.len then s
  else
    let food := tryFood s draws 199 0
    if occupied s food then
      { s with food := (cells.find? fun c => !occupied s c).getD food }
    else { s with food }

/-- Four segments in a row, the head in the middle of the field. -/
def reset (s : State) : State :=
  { s with
    len := 4
    head := 0
    body := fun i =>
      if i = 0 then (10, 6)
      else if i = cap - 1 then (9, 6)
      else if i = cap - 2 then (8, 6)
      else if i = cap - 3 then (7, 6)
      else s.body i
    dir := 1
    nextDir := 1
    score := 0
    tickMs := 700
    alive := true
    paused := false
    isOver := false
    started := false }

def enter (draws : Draws) (s : State) : State := spawnFood draws (reset s)

/-- The direction of a tick: the one asked for, unless it is the reverse. -/
def turned (s : State) : Dir :=
  if s.nextDir ≠ s.dir then if s.nextDir ≠ s.dir + 2 then s.nextDir else s.dir else s.dir

/-- The cell ahead of the head; it may be outside the field. -/
def ahead (s : State) (d : Dir) : ℤ × ℤ :=
  (((s.body s.head).1 : ℤ) + dx d, ((s.body s.head).2 : ℤ) + dy d)

def outside (n : ℤ × ℤ) : Bool := n.1 < 0 || n.2 < 0 || (width : ℤ) ≤ n.1 || (height : ℤ) ≤ n.2

def stepped (s : State) (c : Cell) : State :=
  let nhead := Rings.advance cap s.head
  { s with body := Rings.written s.body nhead c, head := nhead }

/-- A piece of food eaten: the end, or the next piece. -/
def grown (draws : Draws) (s : State) : State :=
  let s := { s with len := s.len + 1, score := s.score + 10 }
  if cap ≤ s.len then { s with alive := false, isOver := true }
  else
    spawnFood draws
      (if s.score % 50 = 0 ∧ 450 < s.tickMs then { s with tickMs := s.tickMs - 5 } else s)

def tick (draws : Draws) (s : State) : State :=
  if !s.alive || s.paused || !s.started then s
  else
    let s := { s with dir := turned s }
    let n := ahead s s.dir
    if outside n then { s with alive := false }
    else
      let c : Cell := (n.1.toNat, n.2.toNat)
      let eating := c == s.food
      -- the last segment moves away unless the snake eats
      let limit := if eating then s.len else s.len - 1
      if (List.range limit).any fun k => k != 0 && seg s k == c then { s with alive := false }
      else if eating then grown draws (stepped s c) else stepped s c

/-- A tick or a key, with what the pause overlay would answer and what the generator would give. -/
inductive Event
  | tick (draws : Draws)
  | key (ev : KeyEvent) (pause : PauseSel) (draws : Draws)

/-- The letter keys of a game that goes on. -/
def letter (draws : Draws) (ch : UInt8) (s : State) : State :=
  if ch = code 'n' then enter draws s
  else if ch = code 'w' then { s with nextDir := 0 }
  else if ch = code 'a' then { s with nextDir := 3 }
  else if ch = code 's' then { s with nextDir := 2 }
  else if ch = code 'd' then { s with nextDir := 1 }
  else s

def press (ev : KeyEvent) (pause : PauseSel) (draws : Draws) (s : State) : State :=
  match ev.key with
  | .up => { s with nextDir := 0 }
  | .right => { s with nextDir := 1 }
  | .down => { s with nextDir := 2 }
  | .left => { s with nextDir := 3 }
  | .pause => { s with paused := !s.paused }
  | .char => letter draws ev.ch s
  | .back =>
    match pause with
    | .resume => s
    | .restart => enter draws s
    | .quit => { s with exitRequest := true }
  | .quit => { s with exitRequest := true }
  | _ => s

def onKey (ev : KeyEvent) (pause : PauseSel) (draws : Draws) (s : State) : State :=
  if ev.isRepeat then s
  else if !s.alive then
    if ev.key = .ok ∨ ev.key = .char ∧ ev.ch = code 'n' then enter draws s
    else if ev.key = .back ∨ ev.key = .quit then { s with exitRequest := true }
    else s
  else if !s.started then
    if ev.key = .ok ∨ ev.key = .space then { s with started := true } else s
  else press ev pause draws s

def next (s : State) : Event → State
  | .tick draws => tick draws s
  | .key ev pause draws => onKey ev pause draws s

def run (s : State) (events : List Event) : State := events.foldl next s

/-!
Whole games of snake: the body read from the ring stays a simple path in the field, and every tick
moves it by one cell.
-/

open Input Rings

def segments (s : State) : List Cell := entries cap s.body s.head s.len

def InField (c : Cell) : Prop := c.1 < width ∧ c.2 < height

/-- Neighbours in the field. -/
def Adjacent (a b : Cell) : Prop :=
  (a.1 = b.1 ∧ (a.2 + 1 = b.2 ∨ b.2 + 1 = a.2)) ∨ (a.2 = b.2 ∧ (a.1 + 1 = b.1 ∨ b.1 + 1 = a.1))

/-- The body is a path in the field that meets no cell twice. -/
structure Lies (s : State) : Prop where
  four : 4 ≤ s.len
  inside : ∀ c ∈ segments s, InField c
  nodup : (segments s).Nodup
  chain : (segments s).IsChain Adjacent

def Fed (s : State) : Prop := InField s.food ∧ s.food ∉ segments s

/-- The cell the next tick goes to, as a pair of integers. -/
def target (s : State) : ℤ × ℤ := ahead s (turned s)

def at_ (c : Cell) : ℤ × ℤ := ((c.1 : ℤ), (c.2 : ℤ))

/-- The segments that do not move away when the head goes to `c`. -/
def staying (s : State) (c : Cell) : List Cell :=
  if c = s.food then segments s else (segments s).dropLast

/-- The next cell is outside, or on a segment that does not move away. -/
def Crashes (s : State) : Prop :=
  (¬ ∃ c, InField c ∧ at_ c = target s) ∨ ∃ c ∈ staying s c, at_ c = target s

/-- The head goes on to `c`: the body grows exactly when it eats. -/
structure Steps (s s' : State) (c : Cell) : Prop where
  next : at_ c = target s
  inside : InField c
  adjacent : Adjacent c (seg s 0)
  forward : c ≠ seg s 1
  body : segments s' = c :: staying s c
  len : s'.len = if c = s.food then s.len + 1 else s.len
  full : s'.alive = false ↔ s'.isOver = true

/-- **What a tick does in a game that goes on.** -/
structure Moves (s s' : State) : Prop where
  forward : target s ≠ at_ (seg s 1)
  lost : (s'.alive = false ∧ s'.isOver = false) ↔ Crashes s
  crash : Crashes s → segments s' = segments s
  steps : ¬ Crashes s → ∃ c, Steps s s' c

/-- The game neither ends nor moves. -/
structure Rests (s s' : State) : Prop where
  body : segments s' = segments s
  food : s'.food = s.food
  alive : s'.alive = s.alive
  isOver : s'.isOver = s.isOver

def Ticking (s : State) (e : Event) : Prop :=
  (∃ draws, e = .tick draws) ∧ s.alive = true ∧ s.paused = false ∧ s.started = true

/-- A key has begun a new game. -/
def Restarts (s : State) (e : Event) (s' : State) : Prop :=
  ∃ ev pause draws, e = .key ev pause draws ∧ s' = enter draws s

/-- What an event may do: a tick moves the snake, a key leaves it or begins a new game. -/
def Follows (s : State) (e : Event) (s' : State) : Prop :=
  (Ticking s e ∧ Moves s s') ∨ (¬ Ticking s e ∧ (Rests s s' ∨ Restarts s e s'))

/-! ### The field -/

variable {c : Cell} {s : State}

lemma mem_cells : c ∈ cells ↔ InField c := by
  obtain ⟨x, y⟩ := c
  simp [cells, InField, and_comm]

lemma length_cells : cells.length = cap := Grids.length_places Prod.mk width height

lemma nodup_cells : cells.Nodup :=
  Grids.nodup_places (fun _ _ _ _ h => Prod.mk.inj h) width height

lemma occupied_iff : occupied s c = true ↔ c ∈ segments s := by
  simp [occupied, segments, mem_entries, seg]

lemma length_segments (s : State) : (segments s).length = s.len := length_entries

lemma inField_drawnCell (draw : UInt32 × UInt32) : InField (drawnCell draw) := by
  have h1 := rngRange_lt draw.1 (n := 24) (by decide)
  have h2 := rngRange_lt draw.2 (n := 11) (by decide)
  rw [UInt32.lt_iff_toNat_lt] at h1 h2
  exact ⟨h1, h2⟩

lemma fills_iff (h : Lies s) (hroom : s.len ≤ cap) :
    (∀ c, InField c → c ∈ segments s) ↔ s.len = cap := by
  constructor
  · intro hall
    have hsub : cells.Subperm (segments s) :=
      nodup_cells.subperm fun c hc => hall c (mem_cells.mp hc)
    have := hsub.length_le
    rw [length_cells, length_segments] at this
    omega
  · intro hlen c hc
    have hsub : (segments s).Subperm cells :=
      h.nodup.subperm fun c hc => mem_cells.mpr (h.inside c hc)
    have hperm := hsub.perm_of_length_le (by rw [length_cells, length_segments, hlen])
    exact hperm.mem_iff.mpr (mem_cells.mpr hc)

/-! ### The food -/

lemma inField_tryFood (s : State) (draws : Draws) (tries k : ℕ) :
    InField (tryFood s draws tries k) := by
  induction tries generalizing k with
  | zero => exact inField_drawnCell _
  | succ tries ih =>
    rw [tryFood]
    split
    · exact ih _
    · exact inField_drawnCell _

lemma spawnFood_spec (draws : Draws) (h : Lies s) (hroom : s.len < cap) :
    ∃ food, spawnFood draws s = { s with food } ∧ InField food ∧ food ∉ segments s := by
  have hfree : ∃ c, InField c ∧ c ∉ segments s := by
    by_contra hno
    push Not at hno
    have := (fills_iff h hroom.le).mp hno
    omega
  rw [spawnFood, if_neg (by omega)]
  by_cases hocc : occupied s (tryFood s draws 199 0) = true
  · rw [if_pos hocc]
    refine ⟨_, rfl, ?_⟩
    cases hfind : cells.find? fun c => !occupied s c with
    | none =>
      obtain ⟨c, hc, hnot⟩ := hfree
      have := List.find?_eq_none.mp hfind c (mem_cells.mpr hc)
      rw [← occupied_iff] at hnot
      simp [hnot] at this
    | some c =>
      have hmem := mem_of_find?_eq_some hfind
      have hnot := find?_some hfind
      refine ⟨mem_cells.mp hmem, ?_⟩
      rw [← occupied_iff]
      simpa using hnot
  · rw [if_neg hocc]
    exact ⟨_, rfl, inField_tryFood _ _ _ _, by rwa [← occupied_iff]⟩

/-! ### The invariant -/

/-- **What holds in every state of a game.** -/
structure Kept (s : State) : Prop where
  lies : Lies s
  head : s.head < cap
  room : s.len ≤ cap
  behind : s.alive = true → ahead s (s.dir + 2) = at_ (seg s 1)
  food : s.alive = true → s.len < cap ∧ Fed s
  isOver : s.isOver = true ↔ s.len = cap

lemma Kept.frame {s' : State} (h : Kept s) (hbody : s'.body = s.body) (hlen : s'.len = s.len)
    (hhead : s'.head = s.head) (hdir : s'.dir = s.dir) (hfood : s'.food = s.food)
    (halive : s'.alive = true → s.alive = true) (hover : s'.isOver = s.isOver) : Kept s' := by
  have hseg : segments s' = segments s := by simp only [segments, hbody, hhead, hlen]
  have hone : seg s' 1 = seg s 1 := by simp only [seg, hbody, hhead]
  refine ⟨⟨hlen ▸ h.lies.four, hseg ▸ h.lies.inside, hseg ▸ h.lies.nodup, hseg ▸ h.lies.chain⟩,
    hhead ▸ h.head, hlen ▸ h.room, fun ha => ?_, fun ha => ?_, ?_⟩
  · rw [hone, ← h.behind (halive ha)]
    simp only [ahead, hbody, hhead, hdir]
  · have hf := h.food (halive ha)
    exact ⟨hlen ▸ hf.1, by rw [Fed, hfood, hseg]; exact hf.2⟩
  · rw [hover, hlen]
    exact h.isOver

lemma segments_reset (s : State) : segments (reset s) = [(10, 6), (9, 6), (8, 6), (7, 6)] := by
  simp [segments, entries, reset, slot, range_succ, cap, width, height]

lemma lies_reset (s : State) : Lies (reset s) := by
  refine ⟨le_refl 4, ?_, ?_, ?_⟩ <;> rw [segments_reset]
  · simp [InField, width, height]
  · decide
  · simp [Adjacent]

lemma kept_enter (draws : Draws) (s : State) : Kept (enter draws s) := by
  have hlies := lies_reset s
  have hlen : (reset s).len < cap := show 4 < cap by decide
  obtain ⟨food, heq, hin, hoff⟩ := spawnFood_spec draws hlies hlen
  rw [enter, heq]
  refine ⟨{ hlies with }, ?_, hlen.le, fun _ => ?_,
    fun _ => ⟨hlen, hin, hoff⟩, ?_⟩
  · show 0 < cap
    decide
  · simp [ahead, at_, seg, reset, slot, dx, dy]
  · exact ⟨fun h => absurd h Bool.false_ne_true, fun h => absurd h hlen.ne⟩

/-! ### One cell ahead -/

lemma seg_zero (h : s.head < cap) : seg s 0 = s.body s.head := by
  rw [seg, slot_zero h]

lemma dx_reverse (d : Dir) : dx (d + 2) = - dx d := by
  revert d
  decide

lemma dy_reverse (d : Dir) : dy (d + 2) = - dy d := by
  revert d
  decide

lemma dir_ext {d e : Dir} (hx : dx d = dx e) (hy : dy d = dy e) : d = e := by
  revert d e
  decide

lemma ne_reverse (d : Dir) : d ≠ d + 2 := by
  revert d
  decide

lemma turned_ne (s : State) : turned s ≠ s.dir + 2 := by
  unfold turned
  split_ifs with hne hrev
  · exact hrev
  · exact ne_reverse _
  · exact ne_reverse _

lemma at_inj {d : Cell} (h : at_ c = at_ d) : c = d := by
  simp only [at_, Prod.mk.injEq, Nat.cast_inj] at h
  exact Prod.ext h.1 h.2

lemma Kept.forward (h : Kept s) (halive : s.alive = true) :
    target s ≠ at_ (seg s 1) := by
  rw [← h.behind halive]
  intro he
  simp only [target, ahead, Prod.mk.injEq, add_right_inj] at he
  exact turned_ne s (dir_ext he.1 he.2)

lemma adjacent_ahead {d : Dir} (hc : at_ c = ahead s d) :
    Adjacent c (s.body s.head) := by
  simp only [at_, ahead, Prod.mk.injEq] at hc
  obtain ⟨h1, h2⟩ := hc
  unfold Adjacent
  fin_cases d <;> simp [dx, dy] at h1 h2 <;> omega

lemma Adjacent.ne {a b : Cell} (h : Adjacent a b) : a ≠ b := by
  rintro rfl
  unfold Adjacent at h
  omega

lemma outside_iff (n : ℤ × ℤ) : outside n = true ↔ ¬ ∃ c, InField c ∧ at_ c = n := by
  obtain ⟨x, y⟩ := n
  have hdef : outside (x, y) = true ↔ ((x < 0 ∨ y < 0) ∨ (24 : ℤ) ≤ x) ∨ (11 : ℤ) ≤ y := by
    simp [outside]
  rw [hdef]
  constructor
  · rintro h ⟨⟨a, b⟩, hin, heq⟩
    simp only [at_, Prod.mk.injEq] at heq
    have := hin.1
    have := hin.2
    simp only [width, height] at *
    omega
  · intro hno
    by_contra hc
    refine hno ⟨(x.toNat, y.toNat), ⟨?_, ?_⟩, ?_⟩
    · simp only [width]
      omega
    · simp only [height]
      omega
    · simp only [at_, Prod.mk.injEq]
      omega

/-! ### A tick -/

/-- The number of segments the head must not meet. -/
def limit (s : State) (c : Cell) : ℕ := if c == s.food then s.len else s.len - 1

lemma staying_eq (h : 4 ≤ s.len) (c : Cell) :
    staying s c = entries cap s.body s.head (limit s c) := by
  unfold staying limit
  by_cases hc : c = s.food
  · simp [hc, segments]
  obtain ⟨k, hk⟩ : ∃ k, s.len = k + 1 := ⟨s.len - 1, by omega⟩
  simp only [hc, if_false, beq_iff_eq, segments, hk, Nat.add_sub_cancel]
  exact dropLast_entries

lemma meets_iff (h : Kept s) (hne : c ≠ seg s 0) :
    ((List.range (limit s c)).any fun k => k != 0 && seg s k == c) = true ↔ c ∈ staying s c := by
  rw [staying_eq h.lies.four, mem_entries, any_eq_true]
  constructor
  · rintro ⟨k, hk, htest⟩
    simp only [Bool.and_eq_true, bne_iff_ne, beq_iff_eq] at htest
    exact ⟨k, List.mem_range.mp hk, htest.2⟩
  rintro ⟨k, hk, heq⟩
  refine ⟨k, List.mem_range.mpr hk, ?_⟩
  have : k ≠ 0 := by
    rintro rfl
    exact hne heq.symm
  simp only [Bool.and_eq_true, bne_iff_ne, beq_iff_eq]
  exact ⟨this, heq⟩

lemma segments_stepped (c : Cell) {k : ℕ} (hhead : s.head < cap) (hk : k + 1 ≤ cap) :
    entries cap (stepped s c).body (stepped s c).head (k + 1) = c :: entries cap s.body s.head k :=
  entries_written c hhead hk

lemma staying_subset (s : State) (c : Cell) : staying s c ⊆ segments s := by
  unfold staying
  split
  · exact Subset.refl _
  · exact dropLast_subset _

lemma length_staying (h : Kept s) (c : Cell) :
    (staying s c).length + 1 = if c = s.food then s.len + 1 else s.len := by
  have := h.lies.four
  rw [staying_eq h.lies.four, length_entries, limit]
  split_ifs <;> simp_all <;> omega

lemma lies_stepped {s' : State} (h : Kept s) (hin : InField c)
    (hadj : Adjacent c (seg s 0)) (hfree : c ∉ staying s c)
    (hbody : segments s' = c :: staying s c) : Lies s' := by
  have hlen : s'.len = if c = s.food then s.len + 1 else s.len := by
    rw [← length_segments, hbody, length_cons, length_staying h]
  have hfour := h.lies.four
  refine ⟨by rw [hlen]; split <;> omega, ?_, ?_, ?_⟩
  · rw [hbody]
    intro x hx
    rcases List.mem_cons.mp hx with rfl | hx
    · exact hin
    · exact h.lies.inside x (staying_subset s c hx)
  · rw [hbody, nodup_cons]
    refine ⟨hfree, ?_⟩
    unfold staying
    split
    · exact h.lies.nodup
    · exact h.lies.nodup.sublist (dropLast_sublist _)
  · rw [hbody, isChain_cons]
    refine ⟨fun y hy => ?_, ?_⟩
    · rw [staying_eq hfour, entries] at hy
      obtain ⟨k, hk⟩ : ∃ k, limit s c = k + 1 := ⟨limit s c - 1, by unfold limit; split <;> omega⟩
      rw [hk, range_succ_eq_map] at hy
      simp only [map_cons, head?_cons, Option.mem_some_iff] at hy
      rw [← hy]
      exact hadj
    · unfold staying
      split
      · exact h.lies.chain
      · exact h.lies.chain.dropLast

lemma grown_cases (draws : Draws) (t : State) :
    ∃ tickMs, grown draws t =
      if cap ≤ t.len + 1 then
        { t with len := t.len + 1, score := t.score + 10, alive := false, isOver := true }
      else
        spawnFood draws { t with len := t.len + 1, score := t.score + 10, tickMs } := by
  unfold grown
  by_cases hms : (t.score + 10) % 50 = 0 ∧ 450 < t.tickMs
  · exact ⟨t.tickMs - 5, by simp only [if_pos hms]⟩
  · exact ⟨t.tickMs, by simp only [if_neg hms]⟩

lemma Kept.advance (h : Kept s) (draws : Draws) (hin : InField c)
    (halive : s.alive = true) (hc : at_ c = target s) (hfree : c ∉ staying s c) :
    let t := stepped { s with dir := turned s } c
    let s' := if c == s.food then grown draws t else t
    Kept s' ∧ Steps s s' c := by
  intro t s'
  have hadj : Adjacent c (seg s 0) := by
    rw [seg_zero h.head]
    exact adjacent_ahead hc
  have hfour := h.lies.four
  obtain ⟨hroom, hfood⟩ := h.food halive
  have hforward : c ≠ seg s 1 := fun he => h.forward halive (by rw [← hc, he])
  -- the ring after the head has moved on, read `k + 1` long
  have hring : ∀ k, k + 1 ≤ cap →
      entries cap t.body t.head (k + 1) = c :: entries cap s.body s.head k :=
    fun k hk => segments_stepped c h.head hk
  have hhead : t.head < cap := advance_lt (by decide) s.head
  have hbehind : ∀ u : State, u.body = t.body → u.head = t.head → u.dir = t.dir →
      ahead u (u.dir + 2) = at_ (seg u 1) := by
    intro u hub huh hud
    have h1 : seg t 1 = seg s 0 := by
      have := congrArg (fun l => l[1]?) (hring 1 (by decide))
      simpa [entries, range_succ, seg] using this
    have h0 : t.body t.head = c := by simp [t, stepped, written]
    have hdir : t.dir = turned s := rfl
    have hu1 : seg u 1 = seg t 1 := by simp only [seg, hub, huh]
    rw [hu1, h1, ahead, hub, huh, hud, h0, hdir, dx_reverse, dy_reverse, seg_zero h.head]
    simp only [at_, target, ahead, Prod.mk.injEq] at hc ⊢
    omega
  have hover : s.isOver = false := by
    have := h.isOver.not.mpr (ne_of_lt hroom)
    simpa using this
  by_cases heat : c = s.food
  · have hs' : s' = grown draws t := if_pos (by simpa using heat)
    have hstay : staying s c = segments s := if_pos heat
    -- one segment more, at a speed that the score sets
    have hlong : ∀ u : State, u.body = t.body → u.head = t.head → u.len = s.len + 1 →
        segments u = c :: staying s c := by
      intro u hb hh hl
      rw [segments, hb, hh, hl, hstay]
      exact hring s.len (by omega)
    obtain ⟨tickMs, hgrown⟩ := grown_cases draws t
    rw [hs', hgrown]
    by_cases hfull : cap ≤ t.len + 1
    · -- the body fills the field
      rw [if_pos hfull]
      have hbody := hlong
        { t with len := t.len + 1, score := t.score + 10, alive := false, isOver := true } rfl rfl rfl
      have hlen : t.len + 1 = cap := le_antisymm hroom hfull
      exact ⟨⟨lies_stepped h hin hadj hfree hbody, hhead, hlen.le,
          fun _ => hbehind _ rfl rfl rfl,
          fun ha => absurd ha Bool.false_ne_true, ⟨fun _ => hlen, fun _ => rfl⟩⟩,
        ⟨hc, hin, hadj, hforward, hbody, (if_pos heat).symm, ⟨fun _ => rfl, fun _ => rfl⟩⟩⟩
    · -- a new piece of food
      rw [if_neg hfull]
      have hbody := hlong { t with len := t.len + 1, score := t.score + 10, tickMs } rfl rfl rfl
      have hlies := lies_stepped h hin hadj hfree hbody
      have hlen : t.len + 1 < cap := not_le.mp hfull
      obtain ⟨food, heq, hfin, hoff⟩ := spawnFood_spec draws hlies hlen
      rw [heq]
      exact ⟨⟨{ hlies with }, hhead, hlen.le,
          fun _ => hbehind _ rfl rfl rfl,
          fun _ => ⟨hlen, hfin, hoff⟩,
          ⟨fun ho => absurd (hover.symm.trans ho) Bool.false_ne_true, fun he => absurd he hlen.ne⟩⟩,
        ⟨hc, hin, hadj, hforward, hbody, (if_pos heat).symm,
          ⟨fun ha => absurd (halive.symm.trans ha) (by decide),
            fun ho => absurd (hover.symm.trans ho) Bool.false_ne_true⟩⟩⟩
  · have hs' : s' = t := if_neg (by simpa using heat)
    have hstay : staying s c = (segments s).dropLast := if_neg heat
    have hbody : segments t = c :: staying s c := by
      obtain ⟨k, hk⟩ : ∃ k, s.len = k + 1 := ⟨s.len - 1, by omega⟩
      rw [hstay, segments, segments, show t.len = k + 1 from hk, hk, dropLast_entries]
      exact hring k (by omega)
    have hoff : s.food ∉ segments t := by
      rw [hbody, mem_cons, not_or]
      exact ⟨fun h => heat h.symm, fun h => hfood.2 (staying_subset s c h)⟩
    rw [hs']
    exact ⟨⟨lies_stepped h hin hadj hfree hbody, hhead, h.room, fun _ => hbehind t rfl rfl rfl,
        fun _ => ⟨hroom, hfood.1, hoff⟩, h.isOver⟩,
      ⟨hc, hin, hadj, hforward, hbody, (if_neg heat).symm,
        ⟨fun ha => absurd (halive.symm.trans ha) (by decide),
          fun ho => absurd (hover.symm.trans ho) Bool.false_ne_true⟩⟩⟩

lemma tick_eq (draws : Draws) (halive : s.alive = true) (hpaused : s.paused = false)
    (hstarted : s.started = true) :
    tick draws s =
      let s' := { s with dir := turned s }
      if outside (target s) then { s' with alive := false }
      else
        let c : Cell := ((target s).1.toNat, (target s).2.toNat)
        if (List.range (limit s c)).any fun k => k != 0 && seg s k == c then
          { s' with alive := false }
        else if c == s.food then grown draws (stepped s' c) else stepped s' c := by
  rw [tick, if_neg (by simp [halive, hpaused, hstarted])]
  rfl

lemma Kept.crashed (h : Kept s) (halive : s.alive = true) (hcrash : Crashes s) :
    let s' := { s with dir := turned s, alive := false }
    Kept s' ∧ Moves s s' := by
  intro s'
  obtain ⟨hroom, hfood⟩ := h.food halive
  have hover : s.isOver = false := by
    have := h.isOver.not.mpr (ne_of_lt hroom)
    simpa using this
  refine ⟨⟨{ h.lies with }, h.head, h.room,
    fun ha => absurd ha Bool.false_ne_true, fun ha => absurd ha Bool.false_ne_true, h.isOver⟩, ?_⟩
  exact ⟨h.forward halive, ⟨fun _ => hcrash, fun _ => ⟨rfl, hover⟩⟩, fun _ => rfl,
    fun hno => absurd hcrash hno⟩

lemma Kept.tick (h : Kept s) (draws : Draws) (halive : s.alive = true)
    (hpaused : s.paused = false) (hstarted : s.started = true) :
    Kept (Snake.tick draws s) ∧ Moves s (Snake.tick draws s) := by
  rw [tick_eq draws halive hpaused hstarted]
  simp only
  by_cases hout : outside (target s) = true
  · rw [if_pos hout]
    exact h.crashed halive (Or.inl ((outside_iff _).mp hout))
  rw [if_neg hout]
  obtain ⟨c, hin, hc⟩ : ∃ c, InField c ∧ at_ c = target s := by
    rw [outside_iff] at hout
    exact not_not.mp hout
  have hcell : ((target s).1.toNat, (target s).2.toNat) = c := by
    rw [← hc]
    rfl
  have hne : c ≠ seg s 0 := by
    rw [seg_zero h.head]
    exact (adjacent_ahead hc).ne
  rw [hcell]
  by_cases hmeets : ((List.range (limit s c)).any fun k => k != 0 && seg s k == c) = true
  · rw [if_pos hmeets]
    exact h.crashed halive (Or.inr ⟨c, (meets_iff h hne).mp hmeets, hc⟩)
  rw [if_neg hmeets]
  rw [meets_iff h hne] at hmeets
  obtain ⟨hkept, hsteps⟩ := h.advance draws hin halive hc hmeets
  refine ⟨hkept, h.forward halive, ?_, ?_, fun _ => ⟨c, hsteps⟩⟩
  all_goals
    have hsafe : ¬ Crashes s := by
      rintro (hno | ⟨d, hd, hat⟩)
      · exact hno ⟨c, hin, hc⟩
      · rw [at_inj (hat.trans hc.symm)] at hd
        exact hmeets hd
  · refine ⟨fun hl => ?_, fun hcr => absurd hcr hsafe⟩
    have := hsteps.full.mp hl.1
    rw [hl.2] at this
    exact absurd this Bool.false_ne_true
  · exact fun hcr => absurd hcr hsafe

/-! ### The keys -/

lemma Rests.refl (s : State) : Rests s s := ⟨rfl, rfl, rfl, rfl⟩

/-- The fields that a key sets in a game that goes on. -/
def Sets (s s' : State) : Prop :=
  ∃ nextDir paused started exitRequest, s' = { s with nextDir, paused, started, exitRequest }

lemma Sets.same (s : State) : Sets s s := ⟨s.nextDir, s.paused, s.started, s.exitRequest, rfl⟩

lemma Sets.nextDir (s : State) (d : Dir) : Sets s { s with nextDir := d } :=
  ⟨d, s.paused, s.started, s.exitRequest, rfl⟩

lemma Sets.paused (s : State) (b : Bool) : Sets s { s with paused := b } :=
  ⟨s.nextDir, b, s.started, s.exitRequest, rfl⟩

lemma Sets.started (s : State) (b : Bool) : Sets s { s with started := b } :=
  ⟨s.nextDir, s.paused, b, s.exitRequest, rfl⟩

lemma Sets.exit (s : State) : Sets s { s with exitRequest := true } :=
  ⟨s.nextDir, s.paused, s.started, true, rfl⟩

lemma letter_cases (draws : Draws) (ch : UInt8) (s : State) :
    letter draws ch s = enter draws s ∨ Sets s (letter draws ch s) := by
  unfold letter
  split_ifs
  · exact Or.inl rfl
  · exact Or.inr (Sets.nextDir s 0)
  · exact Or.inr (Sets.nextDir s 3)
  · exact Or.inr (Sets.nextDir s 2)
  · exact Or.inr (Sets.nextDir s 1)
  · exact Or.inr (Sets.same s)

lemma press_cases (ev : KeyEvent) (pause : PauseSel) (draws : Draws) (s : State) :
    press ev pause draws s = enter draws s ∨ Sets s (press ev pause draws s) := by
  unfold press
  cases ev.key with
  | up => exact Or.inr (Sets.nextDir s 0)
  | right => exact Or.inr (Sets.nextDir s 1)
  | down => exact Or.inr (Sets.nextDir s 2)
  | left => exact Or.inr (Sets.nextDir s 3)
  | pause => exact Or.inr (Sets.paused s _)
  | char => exact letter_cases draws ev.ch s
  | back =>
    cases pause with
    | resume => exact Or.inr (Sets.same s)
    | restart => exact Or.inl rfl
    | quit => exact Or.inr (Sets.exit s)
  | quit => exact Or.inr (Sets.exit s)
  | _ => exact Or.inr (Sets.same s)

lemma onKey_cases (ev : KeyEvent) (pause : PauseSel) (draws : Draws) (s : State) :
    onKey ev pause draws s = enter draws s ∨ Sets s (onKey ev pause draws s) := by
  unfold onKey
  split_ifs
  · exact Or.inr (Sets.same s)
  · exact Or.inl rfl
  · exact Or.inr (Sets.exit s)
  · exact Or.inr (Sets.same s)
  · exact Or.inr (Sets.started s true)
  · exact Or.inr (Sets.same s)
  · exact press_cases ev pause draws s

lemma Kept.onKey (h : Kept s) (ev : KeyEvent) (pause : PauseSel) (draws : Draws) :
    Kept (Snake.onKey ev pause draws s) ∧
      (Rests s (Snake.onKey ev pause draws s) ∨ Snake.onKey ev pause draws s = enter draws s) := by
  rcases onKey_cases ev pause draws s with heq | ⟨_, _, _, _, heq⟩
  · rw [heq]
    exact ⟨kept_enter draws s, Or.inr rfl⟩
  · rw [heq]
    exact ⟨h.frame rfl rfl rfl rfl rfl id rfl, Or.inl ⟨rfl, rfl, rfl, rfl⟩⟩

lemma Kept.next (h : Kept s) (e : Event) :
    Kept (Snake.next s e) ∧ Follows s e (Snake.next s e) := by
  cases e with
  | tick draws =>
    by_cases hticks : Ticking s (.tick draws)
    · obtain ⟨-, halive, hpaused, hstarted⟩ := hticks
      obtain ⟨hkept, hmoves⟩ := h.tick draws halive hpaused hstarted
      exact ⟨hkept, Or.inl ⟨⟨⟨draws, rfl⟩, halive, hpaused, hstarted⟩, hmoves⟩⟩
    have hsame : Snake.next s (.tick draws) = s := by
      refine if_pos ?_
      by_contra hno
      simp only [Bool.or_eq_true, Bool.not_eq_true', not_or, Bool.not_eq_false,
        Bool.not_eq_true] at hno
      exact hticks ⟨⟨draws, rfl⟩, hno.1.1, hno.1.2, hno.2⟩
    rw [hsame]
    exact ⟨h, Or.inr ⟨hticks, Or.inl (Rests.refl s)⟩⟩
  | key ev pause draws =>
    obtain ⟨hkept, hrests⟩ := h.onKey ev pause draws
    refine ⟨hkept, Or.inr ⟨?_, hrests.imp_right fun heq => ⟨ev, pause, draws, rfl, heq⟩⟩⟩
    rintro ⟨⟨_, he⟩, -⟩
    exact Event.noConfusion he

lemma Kept.run (h : Kept s) (events : List Event) : Kept (Snake.run s events) := by
  induction events generalizing s with
  | nil => exact h
  | cons e events ih => exact ih (h.next e).1

/-- **The body of the snake.** Whatever the memory held before, the events and the draws: while the
game is on, the body is a path in the field that meets no cell twice and the food lies off it; the
game is won exactly when the body fills the field; and every tick moves the head by one cell, never
back into the second segment, growing exactly when it eats, and loses exactly when the next cell is
outside or on a segment that does not move away. -/
theorem snake (s : State) (draws : Draws) (events : List Event) :
    let t := run (enter draws s) events
    (t.alive = true → Lies t ∧ Fed t) ∧
      (t.isOver = true ↔ ∀ c, InField c → c ∈ segments t) ∧ ∀ e, Follows t e (next t e) := by
  intro t
  have h : Kept t := (kept_enter draws s).run events
  refine ⟨fun ha => ⟨h.lies, (h.food ha).2⟩, ?_, fun e => (h.next e).2⟩
  rw [h.isOver, fills_iff h.lies h.room]

end C1auncher.Games.Snake
