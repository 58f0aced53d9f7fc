import C1auncher.Games.Mines
import C1auncher.Floods

/-!
Whole games of minesweeper: what every reached state satisfies, and what opening a cell does.
-/

namespace C1auncher.Games.Mines

open Input Floods List

/-- An opening that comes to `c` goes on to `d`: `c` has no mine around it, and `d` was neither open
nor flagged. -/
def Flows (s : State) (b : Cell → UInt8) (c d : Cell) : Prop :=
  b c = 0 ∧ d ∈ around c ∧ inside d = true ∧ s.rep d = false ∧ s.flag d = false

/-- The cells that opening the cell under the cursor comes to. -/
def Uncovers (s : State) (b : Cell → UInt8) (c : Cell) : Prop :=
  Relation.ReflTransGen (Flows s b) s.cur c

/-- **What opening a cell does.** -/
structure Opens (s s' : State) : Prop where
  planted : s.revealed = 0 → Planted s.cur s'.b
  fixed : s.revealed ≠ 0 → s'.b = s.b
  flags : s'.flag = s.flag
  lost : s'.b s.cur = 9 → s'.isOver = true ∧
    ∀ c, s'.rep c = true ↔ s.rep c = true ∨ inside c = true ∧ s'.b c = 9
  reveals : s'.b s.cur ≠ 9 → s'.isOver = false ∧
    ∀ c, s'.rep c = true ↔ s.rep c = true ∨ Uncovers s s'.b c
  spares : s'.b s.cur ≠ 9 → ∀ c, s.flag c = true → s'.rep c = s.rep c

/-- **What holds in every state of a game.** -/
structure Sound (s : State) : Prop where
  planted : s.revealed ≠ 0 → ∃ first, Planted first s.b
  fresh : s.revealed = 0 → ∀ c, s.rep c = false
  revealed : s.revealed.toNat = cells.countP fun c => s.rep c && s.b c != 9
  flags : s.flags.toNat = cells.countP s.flag
  won : s.won = true ↔ ∀ c, inside c = true → s.b c ≠ 9 → s.rep c = true
  lost : s.isOver = true ↔ ∃ c, inside c = true ∧ s.b c = 9 ∧ s.rep c = true

/-- A key that opens the cell under the cursor. -/
def Opening (s : State) (e : Event) : Prop :=
  (e.ev.isRepeat = false ∧ s.isOver = false ∧ s.won = false) ∧ e.ev.key = .ok ∧
    s.rep s.cur = false ∧ s.flag s.cur = false

/-- A step that leaves the board and what is open on it. -/
structure Stays (s s' : State) : Prop where
  b : s'.b = s.b
  rep : s'.rep = s.rep
  ends : s'.isOver = s.isOver ∧ s'.won = s.won

/-- What a key may do: an opening opens, any other key begins a new game or leaves the board. -/
def Follows (s : State) (e : Event) (s' : State) : Prop :=
  (Opening s e ∧ Opens s s') ∨ (¬ Opening s e ∧ (s' = enter s ∨ Stays s s'))

/-! ### The flood -/

def closed (s : State) (c : Cell) : Bool := !inside c || s.rep c || s.flag c

def visit (s : State) (c : Cell) : State :=
  { s with rep := put s.rep c true, revealed := s.revealed + 1 }

lemma floodReveal_eq (n : ℕ) (s : State) (c : Cell) :
    floodReveal n s c = fill closed (fun s c => s.b c == 0) around visit n s c := by
  induction n generalizing s c with
  | zero => rfl
  | succ n ih =>
    have hfun : floodReveal n = fill closed (fun s c => s.b c == 0) around visit n :=
      funext fun s => funext fun c => ih s c
    rw [floodReveal, fill, hfun]
    unfold closed
    rcases inside c <;> rcases s.rep c <;> rcases s.flag c <;> simp [visit]

lemma marks : Marks closed (fun s c => s.b c == 0) visit where
  closed_visit s v w := by
    unfold closed visit
    rcases eq_or_ne w v with rfl | hne
    · simp
    · simp [put_of_ne _ _ hne, hne]
  spreads_visit _ _ _ := rfl

lemma foldl_visit (vs : List Cell) (s : State) :
    vs.foldl visit s = { s with
      rep := fun c => s.rep c || decide (c ∈ vs)
      revealed := s.revealed + UInt32.ofNat vs.length } := by
  induction vs generalizing s with
  | nil => simp
  | cons v vs ih =>
    rw [foldl_cons, ih, visit]
    congr 1
    · funext c
      rcases eq_or_ne c v with rfl | hne
      · simp
      · simp [put_of_ne _ _ hne, hne]
    · simp only [length_cons, UInt32.ofNat_add, UInt32.reduceOfNat]
      rw [UInt32.add_assoc, UInt32.add_comm 1]

variable {s : State}

lemma safe_of_uncovers {b : Cell → UInt8} {first : Cell} (hb : Planted first b)
    (hcur : inside s.cur = true) (hsafe : b s.cur ≠ 9) {c : Cell} (h : Uncovers s b c) :
    inside c = true ∧ b c ≠ 9 := by
  induction h with
  | refl => exact ⟨hcur, hsafe⟩
  | @tail a d _ hstep ih =>
    refine ⟨hstep.2.2.1, fun hmine => ?_⟩
    have hnum := hb.numbers a ih.1 ih.2
    rw [hstep.1] at hnum
    have hmem : d ∈ (around a).filter fun n => inside n && b n == 9 :=
      List.mem_filter.mpr ⟨hstep.2.1, by simp [hstep.2.2.1, hmine]⟩
    have := length_pos_of_mem hmem
    simp at hnum
    omega

/-- **The flood opens exactly the cells that the opening comes to**, each once. -/
theorem floodReveal_spec (hin : inside s.cur = true) (hrep : s.rep s.cur = false)
    (hflag : s.flag s.cur = false) :
    ∃ vs : List Cell, floodReveal 172 s s.cur = some (vs.foldl visit s) ∧ vs.Nodup ∧
      ∀ c, c ∈ vs ↔ Uncovers s s.b c := by
  have hopen : ∀ c, closed s c = false ↔
      inside c = true ∧ s.rep c = false ∧ s.flag c = false := by
    intro c
    simp [closed, Bool.or_eq_false_iff, and_assoc]
  have hcard : (cells.toFinset.filter fun c => closed s c = false).card < 172 := by
    refine lt_of_le_of_lt (Finset.card_filter_le _ _) ?_
    refine lt_of_le_of_lt (toFinset_card_le _) ?_
    rw [length_cells]
    omega
  obtain ⟨vs, hfill, hnodup, hvs⟩ := @fill_spec _ _ _ _ _ around _ marks cells.toFinset 172 s
    (fun c hc => List.mem_toFinset.mpr (mem_cells.mpr ((hopen c).mp hc).1)) hcard s.cur
  refine ⟨vs, by rw [floodReveal_eq, hfill], hnodup, fun c => ?_⟩
  have hjoins : Joins closed (fun s c => s.b c == 0) around s = Flows s s.b := by
    funext a d
    simp [Joins, Flows, hopen]
  rw [hvs, Reached, hjoins]
  constructor
  · rintro ⟨v, hv, -, hpath⟩
    rw [List.mem_singleton.mp hv] at hpath
    exact hpath
  · intro hpath
    exact ⟨s.cur, mem_singleton_self _, (hopen _).mpr ⟨hin, hrep, hflag⟩, hpath⟩

lemma countP_add {l vs : List Cell} (hl : l.Nodup) (hvs : vs.Nodup) (hsub : vs ⊆ l)
    {p q : Cell → Bool} (hp : ∀ c ∈ vs, p c = false) (hq : ∀ c, q c = (p c || decide (c ∈ vs))) :
    l.countP q = l.countP p + vs.length := by
  induction vs generalizing q with
  | nil => exact (countP_congr fun c _ => by simp [hq]).trans (Nat.add_zero _).symm
  | cons v vs ih =>
    rw [nodup_cons] at hvs
    have hrest := ih (q := fun c => p c || decide (c ∈ vs)) hvs.2
      (fun c hc => hsub (mem_cons_of_mem _ hc)) (fun c hc => hp c (mem_cons_of_mem _ hc))
      fun _ => rfl
    have hput := countP_put hl (hsub mem_cons_self) (p := fun c => p c || decide (c ∈ vs))
      (q := q) (by simp [hp v mem_cons_self, hvs.1]) (by simp [hq])
      fun x hx => by simp [hq, hx]
    rw [hput, hrest, length_cons]
    omega

/-! ### The invariant -/

structure Kept (s : State) : Prop where
  cur : inside s.cur = true
  fresh : s.revealed = 0 → (∀ c, s.rep c = false) ∧ ∀ c, s.b c = 0
  planted : s.revealed ≠ 0 → ∃ first, Planted first s.b
  revealed : s.revealed.toNat = cells.countP fun c => s.rep c && s.b c != 9
  flags : s.flags.toNat = cells.countP s.flag
  won : s.won = true ↔ s.revealed = 152
  lost : s.isOver = true ↔ ∃ c, inside c = true ∧ s.b c = 9 ∧ s.rep c = true

lemma countP_safe {first : Cell} {b : Cell → UInt8} (h : Planted first b) :
    cells.countP (b · != 9) = 152 := by
  have := length_eq_countP_add_countP (fun c => b c == 9) (l := cells)
  rw [h.count, length_cells] at this
  have hsame : cells.countP (b · != 9) = cells.countP fun c => ¬ (b c == 9) = true :=
    countP_congr fun c _ => by simp
  omega

lemma Kept.sound (h : Kept s) : Sound s where
  planted := h.planted
  fresh h0 := (h.fresh h0).1
  revealed := h.revealed
  flags := h.flags
  lost := h.lost
  won := by
    rw [h.won]
    by_cases h0 : s.revealed = 0
    · obtain ⟨hrep, hb⟩ := h.fresh h0
      constructor
      · intro h152
        rw [h0] at h152
        exact absurd h152 (by decide)
      intro hall
      have := hall (0, 0) (by decide) (by rw [hb]; decide)
      rw [hrep] at this
      exact absurd this Bool.false_ne_true
    · obtain ⟨first, hb⟩ := h.planted h0
      have hsafe := countP_safe hb
      have hfilter := countP_filter (p := s.rep) (q := fun c => s.b c != 9) (l := cells)
      have hall := countP_eq_length (p := s.rep) (l := cells.filter fun c => s.b c != 9)
      rw [hfilter, ← countP_eq_length_filter, hsafe, ← h.revealed] at hall
      rw [← UInt32.toNat_inj]
      change s.revealed.toNat = 152 ↔ _
      rw [hall]
      simp only [mem_filter, mem_cells, bne_iff_ne, and_imp]

lemma kept_enter (s : State) : Kept (enter s) where
  cur := show inside (19 / 2, 9 / 2) = true by decide
  fresh _ := ⟨fun _ => rfl, fun _ => rfl⟩
  planted h := absurd rfl h
  revealed := by
    rw [List.countP_eq_zero.mpr fun c _ => by simp [enter]]
    rfl
  flags := by
    rw [List.countP_eq_zero.mpr fun c _ => by simp [enter]]
    rfl
  won := by simp [enter]
  lost := by simp [enter]

lemma Kept.move {s' : State} (h : Kept s) (hcur : inside s'.cur = true)
    (hs : s' = { s with cur := s'.cur, exitRequest := s'.exitRequest }) : Kept s' := by
  rw [hs]
  exact { h with cur := hcur }

lemma countP_le_171 (p : Cell → Bool) : cells.countP p ≤ 171 :=
  length_cells ▸ countP_le_length

lemma Kept.toggleFlag (h : Kept s) : Kept (toggleFlag s) := by
  have hflags := h.flags
  have hmem := mem_cells.mpr h.cur
  unfold Mines.toggleFlag
  split_ifs with hrep hflag
  · exact h
  · refine { h with flags := ?_ }
    rw [Bool.not_eq_true'] at hflag
    have hput := countP_put nodup_cells hmem (p := s.flag) (q := put s.flag s.cur (!s.flag s.cur))
      hflag (by simp [hflag]) fun x hx => put_of_ne _ _ hx
    change (s.flags + 1).toNat = cells.countP (put s.flag s.cur (!s.flag s.cur))
    have := countP_le_171 s.flag
    rw [hput, UInt32.toNat_add, hflags]
    exact Nat.mod_eq_of_lt (by simp; omega)
  · refine { h with flags := ?_ }
    rw [Bool.not_eq_true', Bool.not_eq_false] at hflag
    have hput := countP_put nodup_cells hmem (p := put s.flag s.cur (!s.flag s.cur)) (q := s.flag)
      (by simp [hflag]) hflag fun x hx => (put_of_ne _ _ hx).symm
    change (s.flags - 1).toNat = cells.countP (put s.flag s.cur (!s.flag s.cur))
    have := countP_le_171 s.flag
    rw [UInt32.toNat_sub_of_le _ _ (UInt32.le_iff_toNat_le.mpr (by
      change 1 ≤ s.flags.toNat
      omega)), hflags, hput]
    rfl

/-- **Opening a hidden cell of a running game**: mines are laid if there are none, a mine loses the
game, and any other cell is opened with all that it uncovers. -/
theorem Kept.revealCell (h : Kept s) (source : Source) (hover : s.isOver = false)
    (hwon : s.won = false) (hrep : s.rep s.cur = false) (hflag : s.flag s.cur = false) :
    ∃ s', Kept s' ∧ Opens s s' ∧ ∃ N, ∀ fuel ≥ N, revealCell fuel source s = some s' := by
  -- the board that is opened
  obtain ⟨b, first, hb, hfirst, hfixed, N, hplanted⟩ : ∃ b first, Planted first b ∧
      (s.revealed = 0 → first = s.cur) ∧ (s.revealed ≠ 0 → b = s.b) ∧
      ∃ N, ∀ fuel ≥ N, Mines.planted fuel source s = some { s with b := b } := by
    by_cases h0 : s.revealed = 0
    · obtain ⟨b, hb, N, hN⟩ := plantMines_spec s.cur source
      refine ⟨b, s.cur, hb, fun _ => rfl, fun hne => absurd h0 hne, N, fun fuel hfuel => ?_⟩
      rw [Mines.planted, if_pos h0, hN fuel hfuel]
      rfl
    · obtain ⟨first, hb⟩ := h.planted h0
      refine ⟨s.b, first, hb, fun h0' => absurd h0' h0, fun _ => rfl, 0, fun fuel _ => ?_⟩
      rw [Mines.planted, if_neg h0]
  have hreveal : ∀ s', opened { s with b := b } = some s' → ∀ fuel ≥ N,
      Mines.revealCell fuel source s = some s' := by
    intro s' hs' fuel hfuel
    rw [Mines.revealCell, if_neg (by simp [hrep, hflag]), hplanted fuel hfuel, Option.bind_some, hs']
  have hsame : cells.countP (fun c => s.rep c && b c != 9) =
      cells.countP (fun c => s.rep c && s.b c != 9) := by
    by_cases h0 : s.revealed = 0
    · refine countP_congr fun c _ => ?_
      simp [(h.fresh h0).1 c]
    · rw [hfixed h0]
  by_cases hmine : b s.cur = 9
  · -- a mine: the game is lost and all mines are shown
    have h0 : s.revealed ≠ 0 := fun h0 => by
      have hfirst := hfirst h0
      refine hb.clear s.cur h.cur ?_ hmine
      rw [hfirst]
      simp [near]
    have hshow : ∀ (l : List Cell) (r : Cell → Bool) (c : Cell),
        l.foldl (fun r c => if b c = 9 then put r c true else r) r c =
          (r c || decide (c ∈ l ∧ b c = 9)) := by
      intro l
      induction l with
      | nil => simp
      | cons a l ih =>
        intro r c
        rw [foldl_cons, ih]
        rcases eq_or_ne c a with rfl | hne
        · split_ifs with ha <;> simp [ha]
        split_ifs with ha
        · simp [put_of_ne _ _ hne, hne]
        · simp [hne]
    refine ⟨_, ?_, ?_, N, hreveal _ (by rw [opened, if_pos hmine])⟩
    · refine ⟨h.cur, fun h0' => absurd h0' h0, fun _ => ⟨first, hb⟩, ?_, h.flags, h.won, ?_⟩
      · rw [h.revealed, ← hsame]
        refine countP_congr fun c _ => ?_
        simp only [hshow]
        rcases eq_or_ne (b c) 9 with hc | hc <;> simp [hc]
      · simp only [hshow, true_iff]
        exact ⟨s.cur, h.cur, hmine, by simp [hmine, mem_cells, h.cur]⟩
    · refine ⟨fun h0' => absurd h0' h0, hfixed, rfl, fun _ => ⟨rfl, fun c => ?_⟩,
        fun hne => absurd hmine hne, fun hne => absurd hmine hne⟩
      simp only [hshow, Bool.or_eq_true, decide_eq_true_iff, mem_cells]
  · -- no mine: the flood
    obtain ⟨vs, hflood, hnodup, hvs⟩ :=
      floodReveal_spec (s := { s with b := b }) h.cur hrep hflag
    have hsafe : ∀ c ∈ vs, inside c = true ∧ b c ≠ 9 := fun c hc =>
      safe_of_uncovers (s := s) hb h.cur hmine ((hvs c).mp hc)
    have hhidden : ∀ c ∈ vs, s.rep c = false ∧ s.flag c = false := by
      intro c hc
      rcases Relation.ReflTransGen.cases_tail ((hvs c).mp hc) with rfl | ⟨_, _, hstep⟩
      · exact ⟨hrep, hflag⟩
      · exact hstep.2.2.2
    have hcount : cells.countP (fun c => (s.rep c || decide (c ∈ vs)) && b c != 9) =
        s.revealed.toNat + vs.length := by
      rw [h.revealed, ← hsame]
      refine countP_add nodup_cells hnodup (fun c hc => mem_cells.mpr (hsafe c hc).1)
        (fun c hc => by simp [(hhidden c hc).1]) fun c => ?_
      by_cases hc : c ∈ vs <;> simp [hc]
      exact (hsafe c hc).2
    have hrevealed : (s.revealed + UInt32.ofNat vs.length).toNat = s.revealed.toNat + vs.length := by
      have := countP_le_171 fun c => (s.rep c || decide (c ∈ vs)) && b c != 9
      rw [UInt32.toNat_add, UInt32.toNat_ofNat', Nat.mod_eq_of_lt (a := vs.length) (by omega),
        Nat.mod_eq_of_lt (by omega)]
    have hpos : 0 < vs.length := length_pos_of_mem ((hvs s.cur).mpr .refl)
    have hne : s.revealed + UInt32.ofNat vs.length ≠ 0 := fun h0 => by
      rw [h0] at hrevealed
      change 0 = _ at hrevealed
      omega
    have hnomine : s.isOver = true ↔ ∃ c, inside c = true ∧ b c = 9 ∧
        (s.rep c || decide (c ∈ vs)) = true := by
      constructor
      · intro hover'
        rw [hover] at hover'
        exact absurd hover' Bool.false_ne_true
      rintro ⟨c, hc, hc9, hcrep⟩
      rw [Bool.or_eq_true, decide_eq_true_iff] at hcrep
      rcases hcrep with hcrep | hcrep
      · by_cases h0 : s.revealed = 0
        · rw [(h.fresh h0).1] at hcrep
          exact absurd hcrep Bool.false_ne_true
        · exact h.lost.mpr ⟨c, hc, hfixed h0 ▸ hc9, hcrep⟩
      · exact absurd hc9 (hsafe c hcrep).2
    have hcover : ∀ c, c ∈ vs ↔ Uncovers s b c := hvs
    refine ⟨_, ?_, ?_, N, hreveal _ (by rw [opened, if_neg hmine, hflood, foldl_visit, Option.map_some])⟩
    · split_ifs with h152
      · exact ⟨h.cur, fun h0 => absurd h0 hne, fun _ => ⟨first, hb⟩, hrevealed.trans hcount.symm,
          h.flags, ⟨fun _ => h152, fun _ => rfl⟩, hnomine⟩
      refine ⟨h.cur, fun h0 => absurd h0 hne, fun _ => ⟨first, hb⟩, hrevealed.trans hcount.symm,
        h.flags, ⟨fun hw => ?_, fun h' => absurd h' h152⟩, hnomine⟩
      rw [hwon] at hw
      exact absurd hw Bool.false_ne_true
    · have hopens : ∀ won, Opens s { s with
          b := b
          rep := fun c => s.rep c || decide (c ∈ vs)
          revealed := s.revealed + UInt32.ofNat vs.length
          won := won } := by
        intro won
        refine ⟨fun h0 => hfirst h0 ▸ hb, hfixed, rfl, fun h9 => absurd h9 hmine,
          fun _ => ⟨hover, fun c => ?_⟩, fun _ c hc => ?_⟩
        · simp only [Bool.or_eq_true, decide_eq_true_iff, hcover]
        have : c ∉ vs := fun hmem => by
          rw [(hhidden c hmem).2] at hc
          exact absurd hc Bool.false_ne_true
        simp [this]
      split_ifs
      · exact hopens true
      · exact hopens s.won

/-- A step that begins a new game or leaves the board keeps the invariant. -/
def Quiet (s s' : State) : Prop := Kept s' ∧ (s' = enter s ∨ Stays s s')

lemma Kept.quiet_self (h : Kept s) : Quiet s s := ⟨h, .inr ⟨rfl, rfl, rfl, rfl⟩⟩

lemma quiet_enter (s : State) : Quiet s (enter s) := ⟨kept_enter s, .inl rfl⟩

lemma Kept.quiet_exit (h : Kept s) : Quiet s { s with exitRequest := true } :=
  ⟨h.move h.cur rfl, .inr ⟨rfl, rfl, rfl, rfl⟩⟩

lemma Kept.quiet_cur (h : Kept s) {c : Cell} (hc : inside c = true) :
    Quiet s { s with cur := c } :=
  ⟨h.move hc rfl, .inr ⟨rfl, rfl, rfl, rfl⟩⟩

lemma Kept.quiet_toggle (h : Kept s) : Quiet s (Mines.toggleFlag s) := by
  refine ⟨h.toggleFlag, .inr ?_⟩
  unfold Mines.toggleFlag
  split_ifs <;> exact ⟨rfl, rfl, rfl, rfl⟩

lemma Kept.quiet_move (h : Kept s) :
    Quiet s (left s) ∧ Quiet s (right s) ∧ Quiet s (up s) ∧ Quiet s (down s) := by
  have hcur := inside_iff.mp h.cur
  unfold left right up down
  refine ⟨?_, ?_, ?_, ?_⟩ <;> split_ifs
  all_goals first
    | exact h.quiet_self
    | exact h.quiet_cur (inside_iff.mpr (by simp only; omega))

lemma Kept.quiet_letter (h : Kept s) (ch : UInt8) : Quiet s (letter ch s) := by
  obtain ⟨hl, hr, hu, hd⟩ := h.quiet_move
  unfold letter
  split_ifs
  exacts [hl, hr, hu, hd, quiet_enter s, h.quiet_toggle, h.quiet_self]

lemma Kept.quiet_pause (h : Kept s) (e : Event) : Quiet s (onPause e s) := by
  unfold onPause
  cases e.pause
  exacts [h.quiet_self, quiet_enter s, h.quiet_exit]

/-- **Every key ends, keeps the invariant, and opens a cell or leaves the board.** -/
theorem Kept.onKey (h : Kept s) (e : Event) :
    ∃ s', Kept s' ∧ Follows s e s' ∧ ∃ N, ∀ fuel ≥ N, onKey fuel s e = some s' := by
  have hquiet : ∀ s', Quiet s s' → ¬ Opening s e → (∀ fuel, Mines.onKey fuel s e = some s') →
      ∃ s', Kept s' ∧ Follows s e s' ∧ ∃ N, ∀ fuel ≥ N, Mines.onKey fuel s e = some s' :=
    fun s' hs' hnot heq => ⟨s', hs'.1, .inr ⟨hnot, hs'.2⟩, 0, fun fuel _ => heq fuel⟩
  by_cases hrep : e.ev.isRepeat = true
  · refine hquiet s h.quiet_self (fun ho => ?_) fun fuel => if_pos hrep
    exact Bool.false_ne_true (ho.1.1.symm.trans hrep)
  by_cases hend : (s.isOver || s.won) = true
  · have hnot : ¬ Opening s e := fun ho => by
      rw [ho.1.2.1, ho.1.2.2] at hend
      exact Bool.false_ne_true hend
    by_cases hagain : e.ev.key = .ok ∨ e.ev.key = .char ∧ e.ev.ch = code 'n'
    · exact hquiet _ (quiet_enter s) hnot fun fuel => by
        rw [Mines.onKey, if_neg hrep, if_pos hend, if_pos hagain]
    by_cases hleave : e.ev.key = .back ∨ e.ev.key = .quit
    · exact hquiet _ h.quiet_exit hnot fun fuel => by
        rw [Mines.onKey, if_neg hrep, if_pos hend, if_neg hagain, if_pos hleave]
    · exact hquiet _ h.quiet_self hnot fun fuel => by
        rw [Mines.onKey, if_neg hrep, if_pos hend, if_neg hagain, if_neg hleave]
  have hpress : ∀ fuel, Mines.onKey fuel s e = press fuel e s := fun fuel => by
    rw [Mines.onKey, if_neg hrep, if_neg hend]
  rw [Bool.or_eq_true, not_or, Bool.not_eq_true, Bool.not_eq_true] at hend
  simp only [hpress] at hquiet ⊢
  obtain ⟨hl, hr, hu, hd⟩ := h.quiet_move
  rcases hkey : e.ev.key
  case ok =>
    by_cases hopening : s.rep s.cur = false ∧ s.flag s.cur = false
    · obtain ⟨s', hs', hopens, N, hN⟩ :=
        h.revealCell e.source hend.1 hend.2 hopening.1 hopening.2
      refine ⟨s', hs', .inl ⟨⟨⟨by simpa using hrep, hend⟩, hkey, hopening⟩, hopens⟩, N, ?_⟩
      intro fuel hfuel
      rw [press, hkey]
      exact hN fuel hfuel
    · refine hquiet s h.quiet_self (fun ho => hopening ho.2.2) fun fuel => ?_
      rw [press, hkey]
      refine if_pos ?_
      rw [Bool.or_eq_true]
      by_contra hno
      rw [not_or, Bool.not_eq_true, Bool.not_eq_true] at hno
      exact hopening hno
  all_goals
    have hnot : ¬ Opening s e := fun ho => by
      rw [ho.2.1] at hkey
      exact absurd hkey (by simp)
  case left => exact hquiet _ hl hnot fun fuel => by rw [press, hkey]
  case right => exact hquiet _ hr hnot fun fuel => by rw [press, hkey]
  case up => exact hquiet _ hu hnot fun fuel => by rw [press, hkey]
  case down => exact hquiet _ hd hnot fun fuel => by rw [press, hkey]
  case char => exact hquiet _ (h.quiet_letter e.ev.ch) hnot fun fuel => by rw [press, hkey]
  case del => exact hquiet _ h.quiet_toggle hnot fun fuel => by rw [press, hkey]
  case pause => exact hquiet _ (h.quiet_pause e) hnot fun fuel => by rw [press, hkey]
  case back => exact hquiet _ (h.quiet_pause e) hnot fun fuel => by rw [press, hkey]
  case quit => exact hquiet _ h.quiet_exit hnot fun fuel => by rw [press, hkey]
  all_goals exact hquiet _ h.quiet_self hnot fun fuel => by rw [press, hkey]

lemma Kept.run (h : Kept s) (events : List Event) :
    ∃ s', Kept s' ∧ ∃ N, ∀ fuel ≥ N, run fuel s events = some s' := by
  induction events generalizing s with
  | nil => exact ⟨s, h, 0, fun _ _ => rfl⟩
  | cons e events ih =>
    obtain ⟨s₁, hs₁, -, N₁, hN₁⟩ := h.onKey e
    obtain ⟨s', hs', N, hN⟩ := ih hs₁
    refine ⟨s', hs', max N₁ N, fun fuel hfuel => ?_⟩
    have hrest : foldlM (Mines.onKey fuel) s₁ events = some s' := hN fuel (by omega)
    rw [Mines.run, foldlM_cons, hN₁ fuel (by omega), Option.bind_eq_bind, Option.bind_some,
      hrest]

/-- **Every game of minesweeper**: whatever keys are pressed and whatever the source draws, the keys
come to an end in a state that is sound, and the next key opens a cell as it should or leaves the
board alone. -/
theorem minesweeper (events : List Event) :
    ∃ s, (∃ N, ∀ fuel ≥ N, run fuel start events = some s) ∧ Sound s ∧
      ∀ e, ∃ s', Follows s e s' ∧ ∃ N, ∀ fuel ≥ N, onKey fuel s e = some s' := by
  obtain ⟨s, hs, hrun⟩ := (kept_enter _).run events
  refine ⟨s, hrun, hs.sound, fun e => ?_⟩
  obtain ⟨s', -, hfollows, hkey⟩ := hs.onKey e
  exact ⟨s', hfollows, hkey⟩

/-! ### What an opening leaves and what a lost game shows -/

/-- A source that lays a ring of mines around the middle of the board first, and then comes to every
cell in turn. -/
def ring : Source where
  draws n :=
    if n < 19 then
      [(7, 2), (8, 2), (9, 2), (10, 2), (11, 2), (12, 2), (7, 3), (12, 3), (7, 4), (12, 4), (7, 5),
        (12, 5), (7, 6), (8, 6), (9, 6), (10, 6), (11, 6), (12, 6), (0, 0)].getD n (0, 0)
    else ((n % 19).toUInt32, (n / 19 % 9).toUInt32)
  hits := by
    intro x hx y hy
    refine ⟨171 + 19 * y + x, ?_⟩
    have hlarge : ¬ 171 + 19 * y + x < 19 := by omega
    have hxmod : (171 + 19 * y + x) % 19 = x := by omega
    have hymod : (171 + 19 * y + x) / 19 % 9 = y := by omega
    simp only [if_neg hlarge, hxmod, hymod]
    have hrange : ∀ v n : ℕ, v < n → n < 2 ^ 32 → 1 < n →
        (rngRange v.toUInt32 n.toUInt32).toNat = v := by
      intro v n hv hn h1
      unfold rngRange
      rw [if_neg (by
        rw [UInt32.le_iff_toNat_le, Nat.toUInt32_eq, UInt32.toNat_ofNat', Nat.mod_eq_of_lt hn]
        change ¬ n ≤ 1
        omega), UInt32.toNat_mod, Nat.toUInt32_eq, Nat.toUInt32_eq, UInt32.toNat_ofNat',
        UInt32.toNat_ofNat', Nat.mod_eq_of_lt (a := v) (by omega), Nat.mod_eq_of_lt hn,
        Nat.mod_eq_of_lt hv]
    exact ⟨hrange x 19 hx (by omega) (by omega), hrange y 9 hy (by omega) (by omega)⟩

def pressing (key : Key) : Event := ⟨⟨key, 0, false⟩, .resume, ring⟩

/-- The board that this source lays around the middle. -/
def ringBoard (c : Cell) : UInt8 :=
  let b := (turns (9, 4) ring 19).1
  if inside c && b c != 9 then countAdj b c else b c

lemma plantMines_ring : plantMines 100 (9, 4) ring = some ringBoard := by
  have hloop : plantLoop (9, 4) ring 100 0 (fun _ => 0, 0) = some (turns (9, 4) ring 19).1 :=
    plantLoop_eq (by decide) (by decide) (k := 0) (Nat.zero_le 19) (by omega)
  rw [plantMines, hloop, Option.map_some]
  refine congrArg some (funext fun c => ?_)
  rw [number_eq, ringBoard]
  simp only [mem_cells, Bool.and_eq_true, bne_iff_ne]

/-- The cells beside the middle are flagged before anything is open. -/
def flagged : State := right (toggleFlag (left (left (toggleFlag (right start)))))

/-- The middle is opened with the cells beside it flagged; then the flags are taken off. -/
def besideMiddle : List Event :=
  [.right, .del, .left, .left, .del, .right, .ok, .left, .del, .right, .right, .del].map pressing

/-- The cell to the right of the middle is opened, a mine flagged, and the cursor put on another. -/
def beforeLoss : List Event :=
  besideMiddle ++ [.ok, .right, .right, .del, .down].map pressing

lemma run_flagged (events : List Event) :
    run 100 start ([.right, .del, .left, .left, .del, .right, .ok].map pressing ++ events) =
      (opened { flagged with b := ringBoard }).bind fun s => run 100 s events := by
  have hflagged : run 100 start ([.right, .del, .left, .left, .del, .right].map pressing) =
      some flagged := rfl
  have hopen : onKey 100 flagged (pressing .ok) = opened { flagged with b := ringBoard } := by
    change (planted 100 ring flagged).bind opened = _
    rw [planted, if_pos (show flagged.revealed = 0 from rfl), show flagged.cur = (9, 4) from rfl,
      plantMines_ring]
    rfl
  change foldlM (onKey 100) start (([.right, .del, .left, .left, .del, .right].map pressing) ++
    (pressing .ok :: events)) = _
  rw [foldlM_append]
  change ((run 100 start _).bind fun s => foldlM (onKey 100) s (pressing .ok :: events)) = _
  rw [hflagged, Option.bind_some, foldlM_cons, hopen]
  rfl

lemma exists_of_check {before : Option State} {f : State → Option State} {check : State → State → Bool}
    (h : (before.bind fun s => (f s).map fun s' => check s s') = some true) :
    ∃ s s', before = some s ∧ f s = some s' ∧ check s s' = true := by
  obtain ⟨s, hs, h⟩ := Option.bind_eq_some_iff.mp h
  obtain ⟨s', hs', h⟩ := Option.map_eq_some_iff.mp h
  exact ⟨s, s', hs, hs', h⟩

/-- Opening the cell to the right of the middle leaves the cell to its left closed, though an open
cell without mines around it lies between them; and losing the game shows a flagged mine. -/
theorem minesweeper_fails :
    (∃ s s', run 100 start besideMiddle = some s ∧ onKey 100 s (pressing .ok) = some s' ∧
      Opening s (pressing .ok) ∧ s'.b s.cur = 0 ∧ (9, 4) ∈ around s.cur ∧ s'.rep (9, 4) = true ∧
      s'.b (9, 4) = 0 ∧ (8, 4) ∈ around (9, 4) ∧ s.flag (8, 4) = false ∧ s'.rep (8, 4) = false) ∧
    ∃ s s', run 100 start beforeLoss = some s ∧ onKey 100 s (pressing .ok) = some s' ∧
      Opening s (pressing .ok) ∧ (12, 4) ≠ s.cur ∧ s.flag (12, 4) = true ∧ s.rep (12, 4) = false ∧
      s'.rep (12, 4) = true := by
  have hbeside : besideMiddle =
      [.right, .del, .left, .left, .del, .right, .ok].map pressing ++
        [.left, .del, .right, .right, .del].map pressing := rfl
  constructor
  · have hcheck : ((run 100 start besideMiddle).bind fun s =>
        (onKey 100 s (pressing .ok)).map fun s' =>
          (!s.isOver && !s.won && s.cur == (10, 4) && !s.rep (10, 4) && !s.flag (10, 4) &&
            !s.flag (8, 4)) && (s'.b (10, 4) == 0 && s'.rep (9, 4) && s'.b (9, 4) == 0 &&
              !s'.rep (8, 4))) = some true := by
      rw [hbeside, run_flagged]
      decide +kernel
    obtain ⟨s, s', hs, hs', h⟩ := exists_of_check hcheck
    simp only [Bool.and_eq_true, Bool.not_eq_true', beq_iff_eq] at h
    obtain ⟨⟨⟨⟨⟨⟨hover, hwon⟩, hcur⟩, hrep⟩, hflag⟩, hleft⟩, ⟨⟨hzero, hopen⟩, hzero'⟩, hclosed⟩ := h
    refine ⟨s, s', hs, hs', ⟨⟨rfl, hover, hwon⟩, rfl, ?_, ?_⟩, ?_, ?_, hopen, hzero', by decide,
      hleft, hclosed⟩ <;> rw [hcur]
    exacts [hrep, hflag, hzero, by decide]
  · have hcheck : ((run 100 start beforeLoss).bind fun s =>
        (onKey 100 s (pressing .ok)).map fun s' =>
          !s.isOver && !s.won && s.cur == (12, 5) && !s.rep (12, 5) && !s.flag (12, 5) &&
            s.flag (12, 4) && !s.rep (12, 4) && s'.rep (12, 4)) = some true := by
      rw [beforeLoss, hbeside, append_assoc, run_flagged]
      decide +kernel
    obtain ⟨s, s', hs, hs', h⟩ := exists_of_check hcheck
    simp only [Bool.and_eq_true, Bool.not_eq_true', beq_iff_eq] at h
    obtain ⟨⟨⟨⟨⟨⟨⟨hover, hwon⟩, hcur⟩, hrep⟩, hflag⟩, hmine⟩, hhidden⟩, hshown⟩ := h
    refine ⟨s, s', hs, hs', ⟨⟨rfl, hover, hwon⟩, rfl, ?_, ?_⟩, ?_, hmine, hhidden, hshown⟩ <;>
      rw [hcur]
    exacts [hrep, hflag, by decide]

end C1auncher.Games.Mines
