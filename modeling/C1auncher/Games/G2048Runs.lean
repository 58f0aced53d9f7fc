import C1auncher.Games.G2048Board
import Mathlib.Tactic.IntervalCases

/-!
Whole games of 2048: which rules every reached state plays by, and the one condition on the moves
under which all of them do.
-/

namespace C1auncher.Games.G2048

open Input Merging List

/-- What a tile of an exponent counts. -/
def value (v : UInt8) : ℕ := if v = 0 then 0 else 2 ^ v.toNat

def total (b : Board) : ℕ := b.sum value

/-- The values of the tiles that the merges of a move make. -/
def points (d : Dir) (b : Board) : ℕ :=
  ((b.along d).rows.map fun line => ((made d line).map value).sum).sum

/-- A spawned tile lies in a cell that was empty. -/
def Spawned (b b' : Board) : Prop :=
  ∃ y < 4, ∃ x < 4, ∃ v, (v = 1 ∨ v = 2) ∧ b.at_ y x = 0 ∧ b' = b.set y x v ∧
    total b' = total b + value v

/-- **The rules a state plays by**, in every direction and with every spawned tile. -/
structure Plays (s : State) : Prop where
  slides : ∀ d, ((slid d s.cell).along d).rows =
    (s.cell.along d).rows.map fun line => facing d (settle (facing d line))
  keeps : ∀ d, total (slid d s.cell) = total s.cell
  moves : ∀ d draw, if slid d s.cell = s.cell then moveDir d draw s = s
    else Spawned (slid d s.cell) (moveDir d draw s).cell
  scores : ∀ d draw, (moveDir d draw s).score.toNat = s.score.toNat + points d s.cell
  mirrors : ∀ d, slid d.opposite (mirror d s.cell) = mirror d (slid d s.cell) ∧
    gain d.opposite (mirror d s.cell) = gain d s.cell
  ends : s.isOver = true ↔ ∀ d, slid d s.cell = s.cell
  draws : render s ≠ none

def direction (ev : KeyEvent) : Option Dir :=
  match ev.key with
  | .left => some .left
  | .right => some .right
  | .up => some .up
  | .down => some .down
  | .char =>
    if ev.ch = code 'a' then some .left
    else if ev.ch = code 'd' then some .right
    else if ev.ch = code 'w' then some .up
    else if ev.ch = code 's' then some .down
    else none
  | _ => none

/-- The direction in which a key moves the tiles of a state. -/
def asks (s : State) (e : Event) : Option Dir :=
  if e.ev.isRepeat || s.isOver then none else direction e.ev

/-- No move of a game pushes two tiles of 2048 together. -/
def Meets : State → List Turn → Prop
  | _, [] => True
  | s, turn :: turns =>
    (∀ e, turn = .key e → ∀ d ∈ asks s e, Apart 11 d s.cell) ∧ Meets (step s turn) turns

/-! ### The invariant -/

/-- No tile is larger than 2048. -/
def Tame (b : Board) : Prop := ∀ v, b.Has v → v.toNat ≤ 11

/-- The score that the tiles of a board would have if every one was made by merging. -/
def worthOf (v : UInt8) : ℕ := if v = 0 then 0 else (v.toNat - 1) * 2 ^ v.toNat

structure Kept (s : State) : Prop where
  tame : Tame s.cell
  score : s.score.toNat ≤ s.cell.sum worthOf
  tile : ∃ v, s.cell.Has v ∧ v ≠ 0
  ends : s.isOver = !canMove s.cell

variable {v : UInt8} {b b' : Board} {d : Dir} {s : State} {e : Event}

lemma toNat_succ (h : v.toNat ≤ 11) : (v + 1).toNat = v.toNat + 1 := by
  rw [UInt8.toNat_add]
  exact Nat.mod_eq_of_lt (by simp; omega)

lemma succ_ne (h : v.toNat ≤ 11) : v + 1 ≠ 0 := by
  intro h0
  have := toNat_succ h
  rw [h0] at this
  simp at this

lemma toNat_pos (h : v ≠ 0) : 0 < v.toNat := by
  rcases Nat.eq_zero_or_pos v.toNat with h0 | h0
  · exact absurd (UInt8.toNat_inj.mp h0) h
  · exact h0

lemma value_succ (h : v.toNat ≤ 11) (hne : v ≠ 0) : value (v + 1) = 2 * value v := by
  rw [value, if_neg (succ_ne h), value, if_neg hne, toNat_succ h, pow_succ, Nat.mul_comm]

lemma worthOf_succ (h : v.toNat ≤ 11) (hne : v ≠ 0) :
    worthOf (v + 1) = 2 * worthOf v + value (v + 1) := by
  obtain ⟨n, hn⟩ := Nat.exists_eq_add_one.mpr (toNat_pos hne)
  rw [value_succ h hne, worthOf, if_neg (succ_ne h), worthOf, if_neg hne, value, if_neg hne,
    toNat_succ h, hn]
  simp only [Nat.add_sub_cancel, pow_succ]
  ring

lemma tame_line (h : Tame b) {line : List UInt8}
    (hline : line ∈ (b.along d).rows) : ∀ a ∈ line, a.toNat ≤ 11 :=
  fun _ ha => h _ (has_along.mp ⟨line, hline, ha⟩)

lemma total_slid (h : Tame b) (d : Dir) : total (slid d b) = total b := by
  have := sum_slid (f := value) (g := fun _ => 0) rfl d (b := b) fun line hline a ha hne =>
    value_succ (tame_line h hline a ha) hne
  simpa [total] using this

lemma worthOf_slid (h : Tame b) (d : Dir) :
    (slid d b).sum worthOf = b.sum worthOf + points d b :=
  sum_slid rfl d fun _ hline a ha hne => worthOf_succ (tame_line h hline a ha) hne

lemma tame_slid (h : Tame b) (hv : (slid d b).Has v) :
    v.toNat ≤ 11 ∨ v.toNat = 12 ∧ ¬ Apart 11 d b := by
  rcases has_slid hv with rfl | hv | ⟨line, hline, hv⟩
  · exact .inl (by simp)
  · exact .inl (h v hv)
  obtain ⟨a, rfl, hin⟩ := made_iff.mp hv
  have ha := tame_line h hline a (mem_pack.mp (hin.subset (by simp))).1
  rw [toNat_succ ha]
  rcases Nat.lt_or_ge a.toNat 11 with hlt | hge
  · exact .inl (by omega)
  · have : a = 11 := UInt8.toNat_inj.mp (show a.toNat = 11 by omega)
    exact .inr ⟨by omega, fun hapart => hapart line hline (this ▸ hin)⟩

lemma shift_eq (h : v.toNat ≤ 12) (hne : v ≠ 0) :
    (1 : UInt32) <<< v.toUInt32 = UInt32.ofNat (value v) := by
  refine UInt32.toNat_inj.mp ?_
  have hpow : 2 ^ v.toNat < 2 ^ 32 := Nat.pow_lt_pow_right (by omega) (by omega)
  rw [UInt32.toNat_shiftLeft, UInt8.toNat_toUInt32, Nat.mod_eq_of_lt (show v.toNat < 32 by omega),
    UInt32.toNat_ofNat, value, if_neg hne, UInt32.toNat_ofNat', Nat.mod_eq_of_lt hpow]
  change 1 <<< v.toNat % 2 ^ 32 = 2 ^ v.toNat
  rw [Nat.one_shiftLeft, Nat.mod_eq_of_lt hpow]

lemma worth_eq {tiles : List UInt8} (h : ∀ v ∈ tiles, v.toNat ≤ 12 ∧ v ≠ 0) :
    worth tiles = UInt32.ofNat ((tiles.map value).sum) := by
  induction tiles with
  | nil => rfl
  | cons v tiles ih =>
    have hrest := ih fun w hw => h w (mem_cons_of_mem _ hw)
    have hv := h v mem_cons_self
    rw [worth] at hrest
    rw [worth, map_cons, sum_cons, hrest, shift_eq hv.1 hv.2, map_cons, sum_cons, UInt32.ofNat_add]

lemma gain_points (h : Tame b) (d : Dir) : gain d b = UInt32.ofNat (points d b) := by
  have hline : ∀ line ∈ (b.along d).rows,
      worth (made d line) = UInt32.ofNat (((made d line).map value).sum) := by
    intro line hline
    refine worth_eq fun v hv => ?_
    obtain ⟨a, rfl, hin⟩ := made_iff.mp hv
    have ha := tame_line h hline a (mem_pack.mp (hin.subset (by simp))).1
    exact ⟨by rw [toNat_succ ha]; omega, succ_ne ha⟩
  rw [gain_eq, points, map_congr_left hline]
  induction (b.along d).rows with
  | nil => rfl
  | cons line lines ih => simp [ih, UInt32.ofNat_add]

lemma sum_le {f : UInt8 → ℕ} {c : ℕ} (h : ∀ v, b.Has v → f v ≤ c) :
    b.sum f ≤ 16 * c := by
  have hrow : ∀ n ∈ b.rows.map fun row => (row.map f).sum, n ≤ 4 * c := by
    intro n hn
    obtain ⟨row, hrow, rfl⟩ := List.mem_map.mp hn
    have := sum_le_card_nsmul (row.map f) c fun m hm => by
      obtain ⟨v, hv, rfl⟩ := List.mem_map.mp hm
      exact h v ⟨row, hrow, hv⟩
    simpa [b.width row hrow] using this
  have := sum_le_card_nsmul _ _ hrow
  rw [length_map, b.height, nsmul_eq_mul] at this
  rw [Board.sum]
  push_cast at this
  omega

lemma worthOf_slid_lt (h : Tame b) (d : Dir) : (slid d b).sum worthOf < 2 ^ 32 := by
  have := sum_le (b := slid d b) (f := worthOf) (c := 12 * 2 ^ 12) fun v hv => by
    have hle : v.toNat ≤ 12 := by
      rcases tame_slid h hv with hv | hv <;> omega
    unfold worthOf
    split
    · exact Nat.zero_le _
    · exact Nat.mul_le_mul (by omega) (Nat.pow_le_pow_right (by omega) hle)
  omega

/-! ### The spawned tile -/

lemma mem_empties {c : ℕ × ℕ} :
    c ∈ empties b ↔ c.2 < 4 ∧ c.1 < 4 ∧ b.at_ c.2 c.1 = 0 := by
  obtain ⟨x, y⟩ := c
  simp only [empties, mem_flatMap, mem_range, mem_map, mem_filter,
    decide_eq_true_iff, Prod.mk.injEq]
  constructor
  · rintro ⟨y, hy, x, ⟨hx, h0⟩, rfl, rfl⟩
    exact ⟨hy, hx, h0⟩
  · rintro ⟨hy, hx, h0⟩
    exact ⟨y, hy, x, ⟨hx, h0⟩, rfl, rfl⟩

lemma rngRange_index (v : UInt32) {n : ℕ} (h : n ≠ 0) : (rngRange v n.toUInt32).toNat < n := by
  unfold rngRange
  split
  · simpa using Nat.pos_of_ne_zero h
  next hn =>
  have hpos : 0 < n.toUInt32 := by
    by_contra h0
    exact hn (UInt32.le_trans (UInt32.not_lt.mp h0) (by decide))
  have hlt := UInt32.lt_iff_toNat_lt.mp (UInt32.mod_lt v hpos)
  have hle : n.toUInt32.toNat ≤ n := by
    rw [Nat.toUInt32_eq, UInt32.toNat_ofNat']
    exact Nat.mod_le _ _
  omega

/-- **A tile of 2 or 4 is put into an empty cell when there is one.** -/
theorem spawnTile_spec (h : b.Has 0) (draw : Draw) : Spawned b (spawnTile draw b) := by
  obtain ⟨y, hy, x, hx, h0⟩ := has_iff.mp h
  have hmem : (x, y) ∈ empties b := mem_empties.mpr ⟨hy, hx, h0⟩
  have hne : (empties b).length ≠ 0 := (length_pos_of_mem hmem).ne'
  have hi := rngRange_index draw.place hne
  obtain ⟨hy', hx', h0'⟩ := mem_empties.mp
    (getElem_mem (l := empties b) (n := (rngRange draw.place _).toNat) hi)
  rw [← getD_eq_getElem _ (0, 0) hi] at hy' hx' h0'
  generalize hcell : (empties b).getD _ (0, 0) = cell at hy' hx' h0'
  have hspawn : spawnTile draw b =
      b.set cell.2 cell.1 (if rngRange draw.ten 10 = 0 then 2 else 1) := by
    rw [spawnTile, ← hcell]
    exact if_neg hne
  refine ⟨cell.2, hy', cell.1, hx', if rngRange draw.ten 10 = 0 then 2 else 1, ?_, h0', hspawn, ?_⟩
  · split
    · exact .inr rfl
    · exact .inl rfl
  have := sum_set value (b := b) hy' hx' (if rngRange draw.ten 10 = 0 then 2 else 1)
  rw [h0', show value 0 = 0 from rfl, Nat.add_zero] at this
  rw [hspawn]
  exact this

lemma gap_of_changed (h : slid d b ≠ b) : (slid d b).Has 0 := by
  by_contra hfull
  refine h ?_
  have halong : (slid d b).along d = b.along d := Board.ext <| by
    rw [slid_along]
    refine (map_congr_left fun line hline => ?_).trans (map_id _)
    have hsettle : facing d (settle (facing d line)) ∈ ((slid d b).along d).rows := by
      rw [slid_along]
      exact mem_map_of_mem hline
    rw [(@settle_full (facing d line) (by simpa using (b.along d).width _ hline)
      fun h0 => hfull (has_along.mp ⟨_, hsettle, mem_facing.mpr h0⟩)).1, facing_facing, id]
  rw [← along_along d (slid d b), halong, along_along]

/-! ### Every step keeps the invariant -/

lemma render_iff : render s ≠ none ↔ Tame s.cell := by
  have hmapM : ∀ {α β : Type} (f : α → Option β) (l : List α),
      l.mapM f ≠ none ↔ ∀ a ∈ l, f a ≠ none := by
    intro α β f l
    induction l with
    | nil => simp
    | cons a l ih =>
      rw [mapM_cons, forall_mem_cons, ← ih]
      rcases f a with _ | c <;> rcases l.mapM f with _ | cs <;> simp
  have htile : ∀ v : UInt8, drawTile v ≠ none ↔ v.toNat ≤ 11 := by
    intro v
    unfold drawTile
    split
    · next h0 => simp [h0]
    · rw [Ne, Option.map_eq_none_iff, List.getElem?_eq_none_iff, not_le]
      exact Nat.lt_succ_iff
  rw [render, Ne, Option.map_eq_none_iff, ← Ne, hmapM]
  constructor
  · rintro h v ⟨row, hrow, hv⟩
    exact (htile v).mp ((hmapM _ _).mp (h row hrow) v hv)
  · intro h row hrow
    exact (hmapM _ _).mpr fun v hv => (htile v).mpr (h v ⟨row, hrow, hv⟩)

lemma Kept.canMove_iff (h : Kept s) :
    canMove s.cell = true ↔ ∃ d, slid d s.cell ≠ s.cell := by
  obtain ⟨v, hv, hne⟩ := h.tile
  exact canMove_iff_slid hv hne fun a ha => succ_ne (h.tame a ha)

/-- **A state that keeps the invariant plays by the rules.** -/
theorem Kept.plays (h : Kept s) : Plays s where
  slides d := slid_along d s.cell
  keeps d := total_slid h.tame d
  moves d draw := by
    unfold moveDir
    split_ifs with hd hc hc
    · exact absurd hd (changed_iff.mp hc)
    · rw [hd]
    · exact spawnTile_spec (gap_of_changed hd) draw
    · exact absurd (changed_iff.mpr hd) hc
  scores d draw := by
    have hlt := worthOf_slid_lt h.tame d
    have hsum := worthOf_slid h.tame d
    have hscore := h.score
    unfold moveDir
    split_ifs with hc
    · change (s.score + gain d s.cell).toNat = _
      rw [gain_points h.tame, UInt32.toNat_add, UInt32.toNat_ofNat',
        Nat.mod_eq_of_lt (a := points d s.cell) (by omega), Nat.mod_eq_of_lt (by omega)]
    have heq : slid d s.cell = s.cell := not_not.mp (mt changed_iff.mpr hc)
    rw [heq] at hsum
    change s.score.toNat = _
    omega
  mirrors d := slid_opposite d s.cell
  ends := by
    have hmove := h.canMove_iff
    rw [h.ends, Bool.not_eq_true', ← Bool.not_eq_true, hmove]
    push Not
    rfl
  draws := render_iff.mpr h.tame

lemma Kept.of_eq {s' : State} (h : Kept s) (hc : s'.cell = s.cell) (hs : s'.score = s.score)
    (ho : s'.isOver = s.isOver) : Kept s' :=
  ⟨hc ▸ h.tame, by rw [hc, hs]; exact h.score, hc ▸ h.tile, by rw [ho, hc]; exact h.ends⟩

lemma Spawned.tame (h : Spawned b b') (hb : Tame b) : Tame b' := by
  obtain ⟨y, hy, x, hx, v, hv, h0, rfl, -⟩ := h
  intro w hw
  rcases has_set hw with rfl | hw
  · rcases hv with rfl | rfl <;> decide
  · exact hb w hw

lemma Spawned.tile (h : Spawned b b') : ∃ v, b'.Has v ∧ v ≠ 0 := by
  obtain ⟨y, hy, x, hx, v, hv, h0, rfl, -⟩ := h
  exact ⟨v, set_has hy hx v, by rcases hv with rfl | rfl <;> decide⟩

lemma Spawned.sum (h : Spawned b b') {f : UInt8 → ℕ} (h0 : f 0 = 0) :
    b.sum f ≤ b'.sum f := by
  obtain ⟨y, hy, x, hx, v, hv, hat, rfl, -⟩ := h
  have := sum_set f (b := b) hy hx v
  rw [hat, h0] at this
  omega

lemma empty_has : Board.empty.Has v → v = 0 := by
  rintro ⟨row, hrow, hv⟩
  rw [eq_of_mem_replicate hrow] at hv
  exact eq_of_mem_replicate hv

lemma gaps_set {n : ℕ} (h : n + 1 ≤ b.sum fun v => if v = 0 then 1 else 0) (hb : Spawned b b') : n ≤ b'.sum fun v => if v = 0 then 1 else 0 := by
  obtain ⟨y, hy, x, hx, v, hv, hat, rfl, -⟩ := hb
  have := sum_set (fun v => if v = 0 then 1 else 0) (b := b) hy hx v
  simp only [hat, if_true] at this
  omega

lemma has_gap (h : 0 < b.sum fun v => if v = 0 then 1 else 0) : b.Has 0 := by
  by_contra hnot
  refine h.ne' (sum_eq_zero_iff.mpr fun v hv => if_neg ?_)
  rintro rfl
  exact hnot hv

lemma canMove_of_gap (h : b.Has 0) : canMove b = true := by
  by_contra hmove
  rw [Bool.not_eq_true, canMove_iff] at hmove
  obtain ⟨row, hrow, h0⟩ := h
  exact (hmove.1 row hrow).1 h0

lemma kept_enter (first second : Draw) (s : State) : Kept (enter first second s) := by
  have h16 : 16 ≤ Board.empty.sum fun v => if v = 0 then 1 else 0 := by decide
  have h1 := spawnTile_spec (has_gap (b := .empty) (by omega)) first
  have h15 := gaps_set h16 h1
  have h2 := spawnTile_spec (has_gap (b := spawnTile first .empty) (by omega)) second
  have h14 := gaps_set h15 h2
  refine ⟨h2.tame (h1.tame fun v hv => ?_), Nat.zero_le _, h2.tile, ?_⟩
  · rw [empty_has hv]
    decide
  change false = !canMove (spawnTile second (spawnTile first .empty))
  rw [canMove_of_gap (has_gap (by omega))]
  rfl

lemma Kept.moveDir (h : Kept s) (draw : Draw) (ho : s.isOver = false)
    (hapart : Apart 11 d s.cell) : Kept (moveDir d draw s) := by
  unfold G2048.moveDir
  split_ifs with hc
  · have hspawn := spawnTile_spec (gap_of_changed (changed_iff.mp hc)) draw
    have hscore := h.plays.scores d draw
    rw [G2048.moveDir, if_pos hc] at hscore
    refine ⟨hspawn.tame fun v hv => ?_, ?_, hspawn.tile, ?_⟩
    · rcases tame_slid h.tame hv with hv | hv
      · exact hv
      · exact absurd hapart hv.2
    · rw [hscore]
      have := hspawn.sum (f := worthOf) rfl
      rw [worthOf_slid h.tame] at this
      have := h.score
      change _ ≤ Board.sum worthOf (spawnTile draw (slid d s.cell))
      omega
    · simp [ho]
  · exact h.of_eq (not_not.mp (mt changed_iff.mpr hc)) rfl rfl

lemma press_of_direction (h : direction e.ev = some d) :
    press e s = moveDir d e.first s := by
  unfold direction at h
  unfold press
  rcases hkey : e.ev.key <;> rw [hkey] at h <;> simp only [reduceCtorEq, Option.some.injEq] at h
  case char =>
    split_ifs at h ⊢ <;> cases h <;> rfl
  all_goals subst h; rfl

lemma press_of_none (h : direction e.ev = none) :
    press e s = enter e.first e.second s ∨ ∃ quit, press e s = { s with exitRequest := quit } := by
  have hpause : onPause e s = enter e.first e.second s ∨
      ∃ quit, onPause e s = { s with exitRequest := quit } := by
    unfold onPause
    cases e.pause
    exacts [.inr ⟨s.exitRequest, rfl⟩, .inl rfl, .inr ⟨true, rfl⟩]
  unfold direction at h
  unfold press
  rcases hkey : e.ev.key <;> rw [hkey] at h <;> simp only [reduceCtorEq] at h ⊢
  case char =>
    split_ifs at h ⊢ with ha hd hw hs hn
    exacts [.inl rfl, .inr ⟨s.exitRequest, rfl⟩]
  case pause => exact hpause
  case back => exact hpause
  case quit => exact .inr ⟨true, rfl⟩
  all_goals exact .inr ⟨s.exitRequest, rfl⟩

lemma onKey_of_asks (h : asks s e = some d) :
    s.isOver = false ∧ onKey s e = moveDir d e.first s := by
  rw [asks] at h
  split_ifs at h with hskip
  rw [Bool.or_eq_true, not_or] at hskip
  rw [onKey, if_neg hskip.1, if_neg hskip.2]
  exact ⟨Bool.not_eq_true _ ▸ hskip.2, press_of_direction h⟩

lemma onKey_of_none (h : asks s e = none) :
    onKey s e = enter e.first e.second s ∨ ∃ quit, onKey s e = { s with exitRequest := quit } := by
  rw [asks] at h
  rw [onKey]
  split_ifs with hrep hover hagain hquit
  · exact .inr ⟨s.exitRequest, rfl⟩
  · exact .inl rfl
  · exact .inr ⟨true, rfl⟩
  · exact .inr ⟨s.exitRequest, rfl⟩
  · rw [if_neg (by simp [hrep, hover])] at h
    exact press_of_none h

/-- **A step that keeps tiles of 2048 apart keeps the invariant.** -/
theorem Kept.step (h : Kept s) {turn : Turn}
    (hturn : ∀ e, turn = .key e → ∀ d ∈ asks s e, Apart 11 d s.cell) : Kept (step s turn) := by
  rcases turn with e | _
  · rcases hasks : asks s e with _ | d
    · rcases onKey_of_none hasks with heq | ⟨quit, heq⟩
      · change Kept (onKey s e)
        rw [heq]
        exact kept_enter _ _ _
      change Kept (onKey s e)
      rw [heq]
      exact h.of_eq rfl rfl rfl
    · obtain ⟨ho, heq⟩ := onKey_of_asks hasks
      change Kept (onKey s e)
      rw [heq]
      exact h.moveDir _ ho (hturn e rfl d hasks)
  · change Kept (((render s).map (·.2)).getD s)
    unfold render
    rcases s.cell.rows.mapM _ with _ | tiles
    · exact h
    · exact h.of_eq rfl rfl rfl

lemma not_plays_of_together (h : Kept s) (hasks : asks s e = some d)
    (htogether : ¬ Apart 11 d s.cell) : ¬ Plays (G2048.step s (.key e)) := by
  intro hplays
  obtain ⟨line, hline, hin⟩ : ∃ line ∈ (s.cell.along d).rows, [11, 11] <:+: pack line := by
    simpa [Apart] using htogether
  have h12 : (slid d s.cell).Has 12 := slid_has_made hline (made_iff.mpr ⟨11, by decide, hin⟩)
  have hc : slid d s.cell ≠ s.cell := by
    intro heq
    have := h.tame 12 (heq ▸ h12)
    exact absurd this (by decide)
  obtain ⟨y, hy, x, hx, v, -, h0, hset, -⟩ := spawnTile_spec (gap_of_changed hc) e.first
  have hcell : (G2048.step s (.key e)).cell = spawnTile e.first (slid d s.cell) := by
    change (onKey s e).cell = _
    rw [(onKey_of_asks hasks).2, G2048.moveDir, if_pos (changed_iff.mpr hc)]
  have htame := render_iff.mp hplays.draws
  rw [hcell, hset] at htame
  have := htame 12 (set_keeps hy hx h12 (by rw [h0]; decide))
  exact absurd this (by decide)

/-- **Every state that a game reaches plays by the rules exactly when no move of the game pushes
two tiles of 2048 together.** -/
theorem game_rules (first second : Draw) (turns : List Turn) :
    (∀ reached, reached <+: turns → Plays (run (start first second) reached)) ↔
      Meets (start first second) turns := by
  have hkept : Kept (start first second) := kept_enter _ _ _
  revert hkept
  generalize start first second = s
  intro h
  induction turns generalizing s with
  | nil =>
    refine ⟨fun _ => trivial, fun _ reached hr => ?_⟩
    rw [List.prefix_nil.mp hr]
    exact h.plays
  | cons turn turns ih =>
    constructor
    · intro hall
      have hturn : ∀ e, turn = .key e → ∀ d ∈ asks s e, Apart 11 d s.cell := by
        rintro e rfl d hasks
        by_contra htogether
        exact not_plays_of_together h hasks htogether (hall [.key e] (by simp))
      refine ⟨hturn, (ih _ (h.step hturn)).mp fun reached hr => ?_⟩
      exact hall (turn :: reached) (List.cons_prefix_cons.mpr ⟨rfl, hr⟩)
    · rintro ⟨hturn, hrest⟩ reached hr
      rcases reached with _ | ⟨turn', reached⟩
      · exact h.plays
      · obtain ⟨rfl, hr'⟩ := List.cons_prefix_cons.mp hr
        exact (ih _ (h.step hturn)).mpr hrest reached hr'

/-! ### A game that reaches 4096 -/

/-- The draws of a tile of 4, in a cell that the number selects. -/
def four (v : UInt32) : Draw := ⟨v, 10⟩

/-- The key of the first of left, up, down and right that moves a tile. -/
def pressing (s : State) (v : UInt32) : Event :=
  let key : Key :=
    if changed .left s.cell then .left
    else if changed .up s.cell then .up
    else if changed .down s.cell then .down
    else .right
  ⟨⟨key, 0, false⟩, .resume, four v, four v⟩

def playing : List UInt32 → State → List Turn
  | [], _ => []
  | v :: vs, s => .key (pressing s v) :: playing vs (step s (.key (pressing s v)))

/-- The number that selects the empty cell, kept for sixty-four moves. -/
def draws : List UInt32 := [10, 51, 40, 35, 0, 30, 0, 46, 0, 25, 8, 50, 0, 25, 18, 60, 8, 34]

def session : List UInt32 := draws.flatMap (List.replicate 64)

/-- The cells and the score after every sixty-four moves. -/
def stages : List (List (List UInt8) × UInt32) :=
  [([[0, 0, 0, 0], [0, 0, 0, 0], [0, 0, 2, 2], [0, 0, 0, 0]], 0),
    ([[5, 4, 2, 2], [7, 0, 0, 0], [6, 0, 0, 0], [4, 0, 0, 0]], 1056),
    ([[8, 5, 3, 0], [7, 4, 0, 0], [6, 2, 2, 0], [3, 0, 0, 0]], 2576),
    ([[9, 4, 0, 0], [7, 6, 0, 0], [5, 4, 2, 2], [0, 0, 0, 0]], 4640),
    ([[9, 4, 4, 2], [8, 6, 0, 0], [7, 0, 2, 0], [5, 0, 0, 0]], 6176),
    ([[4, 3, 2, 2], [6, 5, 3, 0], [10, 0, 0, 0], [7, 0, 0, 0]], 9232),
    ([[6, 5, 4, 3], [8, 3, 0, 0], [10, 2, 0, 0], [7, 2, 0, 0]], 10768),
    ([[5, 4, 2, 2], [9, 6, 0, 0], [10, 4, 0, 0], [7, 0, 0, 0]], 12832),
    ([[8, 6, 4, 3], [9, 5, 3, 0], [10, 2, 0, 0], [7, 0, 2, 0]], 14352),
    ([[5, 2, 0, 0], [3, 3, 0, 0], [11, 6, 0, 0], [7, 4, 2, 0]], 19472),
    ([[8, 6, 4, 2], [5, 4, 0, 2], [11, 0, 0, 0], [7, 0, 0, 0]], 21024),
    ([[9, 4, 2, 0], [6, 4, 0, 0], [11, 5, 0, 0], [7, 2, 0, 0]], 23072),
    ([[9, 5, 3, 0], [8, 6, 3, 0], [11, 4, 2, 2], [7, 0, 0, 0]], 24592),
    ([[4, 5, 2, 2], [10, 6, 0, 0], [11, 4, 0, 0], [7, 0, 0, 0]], 27680),
    ([[8, 5, 2, 0], [10, 6, 3, 2], [11, 4, 0, 0], [7, 3, 0, 0]], 29200),
    ([[9, 6, 4, 0], [10, 5, 0, 0], [11, 4, 0, 2], [7, 2, 0, 0]], 31264),
    ([[9, 5, 3, 2], [10, 8, 3, 2], [11, 6, 0, 0], [7, 4, 0, 0]], 32784),
    ([[11, 4, 4, 3], [11, 6, 2, 0], [7, 4, 0, 2], [0, 3, 0, 0]], 37872),
    ([[12, 7, 5, 3], [7, 6, 3, 0], [6, 5, 2, 0], [5, 4, 2, 0]], 43088)]

def stage (i : ℕ) : State :=
  let s := stages.getD i ([], 0)
  ⟨if h : s.1.length = 4 ∧ ∀ row ∈ s.1, row.length = 4 then ⟨s.1, h.1, h.2⟩ else .empty, s.2,
    false, false, false⟩

def drawn (s : State) (v : UInt32) : State := step s (.key (pressing s v))

lemma run_playing (vs : List UInt32) (s : State) : run s (playing vs s) = vs.foldl drawn s := by
  induction vs generalizing s with
  | nil => rfl
  | cons v vs ih => exact ih (drawn s v)

/-- Sixty-four moves lead from one stage to the next. -/
def Leads (i : ℕ) : Prop :=
  (List.replicate 64 (draws.getD i 0)).foldl drawn (stage i) = stage (i + 1)

instance (i : ℕ) : Decidable (Leads i) := inferInstanceAs (Decidable (_ = _))

lemma leads_low (i : ℕ) (hi : i < 6) : Leads i := by
  interval_cases i <;> decide +kernel

lemma leads_middle (i : ℕ) (hlo : 6 ≤ i) (hi : i < 12) : Leads i := by
  interval_cases i <;> decide +kernel

lemma leads_high (i : ℕ) (hlo : 12 ≤ i) (hi : i < 18) : Leads i := by
  interval_cases i <;> decide +kernel

lemma stage_succ (i : ℕ) (hi : i < 18) :
    (List.replicate 64 (draws.getD i 0)).foldl drawn (stage i) = stage (i + 1) := by
  rcases lt_or_ge i 6 with hlow | hlow
  · exact leads_low i hlow
  rcases lt_or_ge i 12 with hmiddle | hmiddle
  · exact leads_middle i hlow hmiddle
  · exact leads_high i hmiddle hi

lemma stage_run (n : ℕ) (hn : n ≤ 18) :
    ((draws.take n).flatMap (List.replicate 64)).foldl drawn (stage 0) = stage n := by
  induction n with
  | zero => rfl
  | succ n ih =>
    have hlt : n < draws.length := hn
    rw [take_succ_eq_append_getElem hlt, flatMap_append, foldl_append, ih (Nat.le_of_succ_le hn),
      flatMap_singleton, ← stage_succ n hn, getD_eq_getElem _ _ hlt]

/-- A game whose tiles of 4 fall into the right cells ends with a board that cannot be drawn. -/
theorem game_rules_fail :
    ¬ Plays (run (start (four 10) (four 10)) (playing session (start (four 10) (four 10)))) := by
  have hstart : start (four 10) (four 10) = stage 0 := by decide +kernel
  intro h
  refine h.draws (Option.isNone_iff_eq_none.mp ?_)
  rw [run_playing, hstart, session, ← take_length (l := draws)]
  change (render (((draws.take 18).flatMap (replicate 64)).foldl drawn (stage 0))).isNone = true
  rw [stage_run 18 le_rfl]
  decide +kernel

end C1auncher.Games.G2048
