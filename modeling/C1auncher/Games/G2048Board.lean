import C1auncher.Games.G2048
import C1auncher.Piles

/-!
What a move does to a whole board: the sums over its cells, the largest tile, and whether any move
is left.
-/

namespace C1auncher.Games.G2048

open Merging Piles List Bool

/-! ### Sums over the cells -/

def Board.sum (f : UInt8 → ℕ) (b : Board) : ℕ := (b.rows.map fun row => (row.map f).sum).sum

lemma sum_columns (f : UInt8 → ℕ) (rows : List (List UInt8)) (h : ∀ row ∈ rows, row.length = 4) :
    (((List.range 4).map fun i => rows.map (·.getD i 0)).map fun col => (col.map f).sum).sum =
      (rows.map fun row => (row.map f).sum).sum := by
  induction rows with
  | nil => simp
  | cons row rows ih =>
    have hrow : row.length = 4 := h row mem_cons_self
    have hsum : ((List.range 4).map fun i => f (row.getD i 0)).sum = (row.map f).sum := by
      congr 1
      refine ext_getElem (by simp [hrow]) fun i hi hi' => ?_
      rw [getElem_map, getElem_map, getElem_range,
        getD_eq_getElem _ _ (by simpa using hi')]
    have hrows := ih fun r hr => h r (mem_cons_of_mem _ hr)
    simp only [map_map, Function.comp_def, map_cons, sum_cons, sum_map_add]
      at hrows ⊢
    rw [hrows, hsum]

@[simp] lemma sum_along (f : UInt8 → ℕ) (d : Dir) (b : Board) : (b.along d).sum f = b.sum f := by
  unfold Board.along
  split
  · rfl
  · exact sum_columns f b.rows b.width

variable {f : UInt8 → ℕ} {v : UInt8} {line : List UInt8} {d : Dir} {b : Board} {y x : ℕ}

lemma sum_pack (h0 : f 0 = 0) (line : List UInt8) :
    ((pack line).map f).sum = (line.map f).sum := by
  induction line with
  | nil => rfl
  | cons v line ih =>
    rcases eq_or_ne v 0 with rfl | hv
    · simpa [pack, h0] using ih
    · simpa [pack, hv] using ih

lemma sum_facing (f : UInt8 → ℕ) (d : Dir) (line : List UInt8) :
    ((facing d line).map f).sum = (line.map f).sum := by
  unfold facing
  split
  · rw [map_reverse, sum_reverse]
  · rfl

lemma mem_pack : v ∈ pack line ↔ v ∈ line ∧ v ≠ 0 := by
  simp [pack]

lemma mem_facing : v ∈ facing d line ↔ v ∈ line := by
  unfold facing; split <;> simp

lemma sum_settled {g : UInt8 → ℕ} (h0 : f 0 = 0) (d : Dir)
    (h : ∀ a ∈ line, a ≠ 0 → f (a + 1) = 2 * f a + g (a + 1)) :
    ((facing d (settle (facing d line))).map f).sum =
      (line.map f).sum + ((made d line).map g).sum := by
  have hmerge := @sum_merge _ _ (· + 1) f g (pack (facing d line)) fun a ha =>
    h a (mem_facing.mp (mem_pack.mp ha).1) (mem_pack.mp ha).2
  rw [sum_facing, settle, map_append, sum_append, hmerge, sum_pack h0, sum_facing, made,
    map_replicate, h0]
  simp

/-- **A sum over the cells grows in a move by what the merges add.** -/
theorem sum_slid {g : UInt8 → ℕ} (h0 : f 0 = 0) (d : Dir)
    (h : ∀ line ∈ (b.along d).rows, ∀ a ∈ line, a ≠ 0 → f (a + 1) = 2 * f a + g (a + 1)) :
    (slid d b).sum f =
      b.sum f + ((b.along d).rows.map fun line => ((made d line).map g).sum).sum := by
  rw [← sum_along f d, ← sum_along f d b, Board.sum, Board.sum, slid_along, map_map, ← sum_map_add]
  congr 1
  exact map_congr_left fun line hline => sum_settled h0 d (h line hline)

lemma at_eq (hy : y < 4) (hx : x < 4) :
    ∃ (hy' : y < b.rows.length) (hx' : x < b.rows[y].length), b.at_ y x = b.rows[y][x] := by
  have hy' : y < b.rows.length := by rw [b.height]; exact hy
  have hx' : x < b.rows[y].length := by rw [b.width _ (getElem_mem hy')]; exact hx
  exact ⟨hy', hx', by
    rw [Board.at_, getD_eq_getElem _ _ hy', getD_eq_getElem _ _ hx']⟩

lemma rows_set (hy : y < b.rows.length) (x : ℕ) (v : UInt8) :
    (b.set y x v).rows = b.rows.set y (b.rows[y].set x v) := by
  simp only [Board.set, getD_eq_getElem _ _ hy]

lemma sum_set (f : UInt8 → ℕ) (hy : y < 4) (hx : x < 4) (v : UInt8) :
    (b.set y x v).sum f + f (b.at_ y x) = b.sum f + f v := by
  obtain ⟨hy', hx', hat⟩ := at_eq (b := b) hy hx
  have hrow := sum_map_set f b.rows[y] hx' v
  have hrows := sum_map_set (fun row : List UInt8 => (row.map f).sum) b.rows hy'
    (b.rows[y].set x v)
  rw [hat, Board.sum, Board.sum, rows_set hy']
  omega

/-! ### The tiles of a board -/

/-- A value lies in some cell. -/
def Board.Has (b : Board) (v : UInt8) : Prop := ∃ row ∈ b.rows, v ∈ row

lemma has_iff : b.Has v ↔ ∃ y < 4, ∃ x < 4, b.at_ y x = v := by
  constructor
  · rintro ⟨row, hrow, hv⟩
    obtain ⟨y, hy, rfl⟩ := getElem_of_mem hrow
    obtain ⟨x, hx, rfl⟩ := getElem_of_mem hv
    refine ⟨y, by rw [← b.height]; exact hy, x, by rw [← b.width _ hrow]; exact hx, ?_⟩
    rw [Board.at_, getD_eq_getElem _ _ hy, getD_eq_getElem _ _ hx]
  · rintro ⟨y, hy, x, hx, rfl⟩
    obtain ⟨hy', hx', hat⟩ := at_eq (b := b) hy hx
    exact ⟨_, getElem_mem hy', hat ▸ getElem_mem hx'⟩

lemma at_transpose (hy : y < 4) (hx : x < 4) :
    b.transpose.at_ x y = b.at_ y x := by
  obtain ⟨hy', hx', hat⟩ := at_eq (b := b) hy hx
  obtain ⟨hx'', hy'', hat'⟩ := at_eq (b := b.transpose) hx hy
  rw [hat', hat]
  simp only [Board.transpose, getElem_map, getElem_range]
  exact getD_eq_getElem _ _ hx'

lemma has_along : (b.along d).Has v ↔ b.Has v := by
  unfold Board.along
  split
  · rfl
  rw [has_iff, has_iff]
  constructor
  · rintro ⟨x, hx, y, hy, rfl⟩
    exact ⟨y, hy, x, hx, (at_transpose hy hx).symm⟩
  · rintro ⟨y, hy, x, hx, rfl⟩
    exact ⟨x, hx, y, hy, at_transpose hy hx⟩

lemma has_set {w : UInt8} (h : (b.set y x v).Has w) :
    w = v ∨ b.Has w := by
  obtain ⟨row, hrow, hw⟩ := h
  rcases mem_or_eq_of_mem_set hrow with hrow | rfl
  · exact .inr ⟨row, hrow, hw⟩
  rcases mem_or_eq_of_mem_set hw with hw | rfl
  · rcases Nat.lt_or_ge y b.rows.length with hy | hy
    · rw [getD_eq_getElem _ _ hy] at hw
      exact .inr ⟨_, getElem_mem hy, hw⟩
    · rw [getD_eq_default _ _ hy] at hw
      exact absurd hw not_mem_nil
  · exact .inl rfl

lemma set_has (hy : y < 4) (hx : x < 4) (v : UInt8) :
    (b.set y x v).Has v := by
  obtain ⟨hy', hx', -⟩ := at_eq (b := b) hy hx
  refine ⟨b.rows[y].set x v, ?_, mem_set hx' v⟩
  rw [rows_set hy']
  exact mem_set hy' _

lemma sum_eq_zero_iff : b.sum f = 0 ↔ ∀ v, b.Has v → f v = 0 := by
  rw [Board.sum, List.sum_eq_zero_iff_forall_eq_nat]
  simp only [mem_map, forall_exists_index, and_imp, forall_apply_eq_imp_iff₂,
    List.sum_eq_zero_iff_forall_eq_nat]
  constructor
  · rintro h v ⟨row, hrow, hv⟩
    exact h row hrow v hv
  · intro h row hrow v hv
    exact h v ⟨row, hrow, hv⟩

lemma set_keeps (hy : y < 4) (hx : x < 4) {w : UInt8}
    (h : b.Has w) (hne : b.at_ y x ≠ w) : (b.set y x v).Has w := by
  by_contra hnot
  have hzero : (b.set y x v).sum (fun c => if c = w then 1 else 0) = 0 :=
    sum_eq_zero_iff.mpr fun c hc => if_neg fun hcw : c = w => hnot (hcw ▸ hc)
  have hpos : b.sum (fun c => if c = w then 1 else 0) ≠ 0 := fun h0 => by
    simpa using sum_eq_zero_iff.mp h0 w h
  have := sum_set (fun c => if c = w then 1 else 0) (b := b) hy hx v
  rw [hzero, if_neg hne] at this
  omega

lemma has_slid (h : (slid d b).Has v) :
    v = 0 ∨ b.Has v ∨ ∃ line ∈ (b.along d).rows, v ∈ made d line := by
  obtain ⟨row, hrow, hv⟩ := has_along.mpr h
  rw [slid_along] at hrow
  obtain ⟨line, hline, rfl⟩ := List.mem_map.mp hrow
  rw [mem_facing, settle, mem_append] at hv
  rcases hv with hv | hv
  · rcases mem_merge hv with hv | hv
    · exact .inr (.inl (has_along.mp ⟨line, hline, mem_facing.mp (mem_pack.mp hv).1⟩))
    · exact .inr (.inr ⟨line, hline, hv⟩)
  · exact .inl (eq_of_mem_replicate hv)

lemma slid_has_made
    (hline : line ∈ (b.along d).rows) (hv : v ∈ made d line) : (slid d b).Has v := by
  refine (has_along (d := d)).mp ⟨facing d (settle (facing d line)), ?_, ?_⟩
  · rw [slid_along]
    exact mem_map_of_mem hline
  · rw [mem_facing, settle]
    exact mem_append_left _ (merged_subset _ hv)

/-- No two tiles of a value lie side by side along a direction, empty cells not counted. -/
def Apart (v : UInt8) (d : Dir) (b : Board) : Prop :=
  ∀ line ∈ (b.along d).rows, ¬ [v, v] <:+: pack line

lemma pack_facing (d : Dir) (line : List UInt8) : pack (facing d line) = facing d (pack line) := by
  unfold facing pack; split <;> simp

lemma infix_facing :
    [v, v] <:+: facing d line ↔ [v, v] <:+: line := by
  unfold facing
  split
  · have hpair : [v, v].reverse = [v, v] := rfl
    rw [← hpair, reverse_infix, hpair]
  · rfl

lemma made_iff :
    v ∈ made d line ↔ ∃ a, v = a + 1 ∧ [a, a] <:+: pack line := by
  rw [made, pack_facing]
  constructor
  · intro h
    obtain ⟨a, ha, hin⟩ := exists_of_mem_merged h
    exact ⟨a, ha, infix_facing.mp hin⟩
  · rintro ⟨a, rfl, hin⟩
    exact mem_merged_of_pair (infix_facing.mpr hin)

/-! ### Whether a move is left -/

/-- A line without a gap and without equal neighbours. -/
def Stuck (line : List UInt8) : Prop := 0 ∉ line ∧ ∀ a, ¬ [a, a] <:+: line

lemma pair_infix_iff :
    (∃ a, [a, a] <:+: line) ↔ ∃ i, i + 1 < line.length ∧ line.getD i 0 = line.getD (i + 1) 0 := by
  constructor
  · rintro ⟨a, s, t, rfl⟩
    exact ⟨s.length, by simp, by simp [getD_eq_getElem?_getD]⟩
  rintro ⟨i, hi, heq⟩
  refine ⟨line.getD i 0, line.take i, line.drop (i + 2), ?_⟩
  have hdrop : line.drop i = [line.getD i 0, line.getD i 0] ++ line.drop (i + 2) := by
    nth_rewrite 2 [heq]
    rw [drop_eq_getElem_cons (by omega), drop_eq_getElem_cons (by omega),
      getD_eq_getElem _ _ (by omega), getD_eq_getElem _ _ hi]
    rfl
  rw [append_assoc, ← hdrop, take_append_drop]

lemma stuck_iff (h : line.length = 4) :
    Stuck line ↔
      ∀ x < 4, line.getD x 0 ≠ 0 ∧ (x + 1 < 4 → line.getD x 0 ≠ line.getD (x + 1) 0) := by
  have hpair := (@pair_infix_iff line).not
  push Not at hpair
  rw [Stuck, hpair, h]
  constructor
  · rintro ⟨hzero, hne⟩ x hx
    refine ⟨fun h0 => hzero ?_, fun hx1 => hne x hx1⟩
    rw [← h0, getD_eq_getElem _ _ (by omega)]
    exact getElem_mem _
  intro hall
  refine ⟨fun hzero => ?_, fun x hx => (hall x (by omega)).2 hx⟩
  obtain ⟨x, hx, h0⟩ := getElem_of_mem hzero
  exact (hall x (by omega)).1 (by rw [getD_eq_getElem _ _ hx, h0])

lemma forall_rows {P : List UInt8 → Prop} :
    (∀ row ∈ b.rows, P row) ↔ ∀ y < 4, P (b.rows.getD y []) := by
  constructor
  · intro h y hy
    have hy' : y < b.rows.length := by rw [b.height]; exact hy
    rw [getD_eq_getElem _ _ hy']
    exact h _ (getElem_mem hy')
  intro h row hrow
  obtain ⟨y, hy, rfl⟩ := getElem_of_mem hrow
  have := h y (by rw [← b.height]; exact hy)
  rwa [getD_eq_getElem _ _ hy] at this

/-- **No move is left when every row and every column is stuck.** -/
theorem canMove_iff :
    canMove b = false ↔ (∀ row ∈ b.rows, Stuck row) ∧ ∀ col ∈ b.transpose.rows, Stuck col := by
  have hrows : (∀ row ∈ b.rows, Stuck row) ↔ ∀ y < 4, ∀ x < 4,
      b.at_ y x ≠ 0 ∧ (x + 1 < 4 → b.at_ y x ≠ b.at_ y (x + 1)) := by
    rw [forall_rows]
    refine forall₂_congr fun y hy => stuck_iff ?_
    rw [getD_eq_getElem _ _ (by rw [b.height]; exact hy)]
    exact b.width _ (getElem_mem _)
  have hcols : (∀ col ∈ b.transpose.rows, Stuck col) ↔ ∀ y < 4, ∀ x < 4,
      b.at_ y x ≠ 0 ∧ (y + 1 < 4 → b.at_ y x ≠ b.at_ (y + 1) x) := by
    rw [forall_rows]
    have hcol : ∀ x < 4, Stuck (b.transpose.rows.getD x []) ↔ ∀ y < 4,
        b.at_ y x ≠ 0 ∧ (y + 1 < 4 → b.at_ y x ≠ b.at_ (y + 1) x) := by
      intro x hx
      rw [stuck_iff (by
        rw [getD_eq_getElem _ _ (by rw [b.transpose.height]; exact hx)]
        exact b.transpose.width _ (getElem_mem _))]
      refine forall₂_congr fun y hy => ?_
      rw [← at_transpose hy hx]
      refine and_congr Iff.rfl (imp_congr_right fun hy1 => ?_)
      rw [← at_transpose hy1 hx]
      rfl
    exact ⟨fun h y hy x hx => (hcol x hx).mp (h x hx) y hy,
      fun h x hx => (hcol x hx).mpr fun y hy => h y hy x hx⟩
  rw [hrows, hcols]
  simp only [canMove, any_eq_false, mem_range, not_eq_true, or_eq_false_iff,
    and_eq_false_imp, decide_eq_true_iff, decide_eq_false_iff_not]
  exact ⟨fun h => ⟨fun y hy x hx => ⟨(h y hy x hx).1.1, (h y hy x hx).1.2⟩,
    fun y hy x hx => ⟨(h y hy x hx).1.1, (h y hy x hx).2⟩⟩,
    fun h y hy x hx => ⟨⟨(h.1 y hy x hx).1, (h.1 y hy x hx).2⟩, (h.2 y hy x hx).2⟩⟩

lemma Stuck.facing (h : Stuck line) : Stuck (facing d line) :=
  ⟨fun h0 => h.1 (mem_facing.mp h0), fun a ha => h.2 a (infix_facing.mp ha)⟩

lemma pack_eq_self (h : 0 ∉ line) : pack line = line :=
  List.filter_eq_self.mpr fun v hv => by
    have : v ≠ 0 := fun h0 => h (h0 ▸ hv)
    simpa using this

lemma Stuck.settle (h : Stuck line) (hlen : line.length = 4) :
    settle line = line := by
  rw [G2048.settle, pack_eq_self h.1, merge_eq_self h.2, hlen]
  simp

lemma settle_full (hlen : line.length = 4) (h : 0 ∉ settle line) :
    settle line = line ∧ Stuck line := by
  have hpack := length_pack_le line
  have hmerge := @length_merge _ _ (· + 1) (pack line)
  have hfull : (merge (· + 1) (pack line)).length = 4 := by
    by_contra hne
    refine h (mem_append_right _ ?_)
    exact List.mem_replicate.mpr ⟨by omega, rfl⟩
  have hzero : 0 ∉ line := by
    intro h0
    have : (pack line).length < line.length :=
      List.length_filter_lt_length_iff_exists.mpr ⟨0, h0, by simp⟩
    omega
  have hpairs : ∀ a, ¬ [a, a] <:+: line := by
    intro a ha
    have := length_pos_of_mem (@mem_merged_of_pair _ _ (· + 1) _ _ (pack_eq_self hzero ▸ ha))
    omega
  exact ⟨Stuck.settle ⟨hzero, hpairs⟩ hlen, hzero, hpairs⟩

lemma settle_gap (hlen : line.length = 4) (h0 : 0 ∈ line) :
    ∃ tiles, settle line = tiles ++ [0] := by
  have hpack : (pack line).length < line.length :=
    List.length_filter_lt_length_iff_exists.mpr ⟨0, h0, by simp⟩
  have hmerge := @length_merge _ _ (· + 1) (pack line)
  obtain ⟨k, hk⟩ := Nat.exists_eq_add_one.mpr
    (show 0 < 4 - (merge (· + 1) (pack line)).length by omega)
  exact ⟨merge (· + 1) (pack line) ++ replicate k 0, by
    rw [settle, hk, replicate_succ', append_assoc]⟩

lemma head_settle (hv : v ∈ line) (hne : v ≠ 0)
    (hsmall : ∀ a ∈ line, a + 1 ≠ 0) : ∃ a rest, a ≠ 0 ∧ settle line = a :: rest := by
  have hmem : v ∈ pack line := mem_pack.mpr ⟨hv, hne⟩
  have hall : ∀ a ∈ pack line, a ∈ line ∧ a ≠ 0 := fun a ha => mem_pack.mp ha
  rcases hp : pack line with _ | ⟨a, _ | ⟨c, rest⟩⟩
  · rw [hp] at hmem; exact absurd hmem not_mem_nil
  · exact ⟨a, _, (hall a (by simp [hp])).2, by rw [settle, hp, merge_single]; rfl⟩
  rcases eq_or_ne a c with rfl | hac
  · exact ⟨a + 1, _, hsmall a (hall a (by simp [hp])).1, by rw [settle, hp, merge_same]; rfl⟩
  · exact ⟨a, _, (hall a (by simp [hp])).2, by rw [settle, hp, merge_of_ne hac]; rfl⟩

lemma settle_mixed (hlen : line.length = 4) (h0 : 0 ∈ line)
    (hv : v ∈ line) (hne : v ≠ 0) (hsmall : ∀ a ∈ line, a + 1 ≠ 0) (hfront : settle line = line) :
    (settle line.reverse).reverse ≠ line := by
  intro hback
  obtain ⟨a, rest, ha, hhead⟩ := head_settle hv hne hsmall
  obtain ⟨tiles, hlast⟩ := @settle_gap line.reverse (by simpa using hlen) (by simpa using h0)
  rw [hlast, ← hfront, hhead, reverse_append] at hback
  simp only [reverse_singleton, singleton_append, cons.injEq] at hback
  exact ha hback.1.symm

lemma at_mem (b : Board) (hy : y < 4) : ∃ row ∈ b.rows, ∀ x < 4, b.at_ y x ∈ row := by
  have hy' : y < b.rows.length := by rw [b.height]; exact hy
  refine ⟨b.rows[y], getElem_mem hy', fun x hx => ?_⟩
  obtain ⟨_, hx', hat⟩ := at_eq (b := b) hy hx
  rw [hat]
  exact getElem_mem hx'

/-- **A board with a tile has a move left exactly when some direction changes it.** -/
theorem canMove_iff_slid (hv : b.Has v) (hne : v ≠ 0)
    (hsmall : ∀ a, b.Has a → a + 1 ≠ 0) : canMove b = true ↔ ∃ d, slid d b ≠ b := by
  have hfix : ∀ d, slid d b = b → ∀ line ∈ (b.along d).rows,
      facing d (settle (facing d line)) = line := by
    intro d hd
    have := slid_along d b
    rw [hd] at this
    exact List.map_inj_left.mp (this.symm.trans (map_id _).symm)
  constructor
  · intro hmove
    by_contra hnone
    push Not at hnone
    have hrow : ∀ d₁ d₂ : Dir, d₁.far = false → d₂ = d₁.opposite → ∀ line ∈ (b.along d₁).rows,
        ∀ w ∈ line, w ≠ 0 → 0 ∉ line := by
      rintro d₁ _ hd₁ rfl line hline w hw hw0 h0
      have hfront := hfix d₁ (hnone _) line hline
      have hback := hfix d₁.opposite (hnone _) line (by rwa [along_opposite])
      rw [(facing_opposite d₁ _).2, (facing_opposite d₁ _).2] at hback
      simp only [facing, hd₁, false_eq_true, if_false] at hfront hback
      exact settle_mixed ((b.along d₁).width _ hline) h0 hw hw0
        (fun a ha => hsmall a (has_along.mp ⟨line, hline, ha⟩)) hfront hback
    -- with a gap, the cell in its row and in the column of the tile could not be filled
    have hfull : ¬ b.Has 0 := by
      intro h0
      obtain ⟨y, hy, x, hx, h0⟩ := has_iff.mp h0
      obtain ⟨y', hy', x', hx', rfl⟩ := has_iff.mp hv
      obtain ⟨row, hrow', hat⟩ := at_mem b hy
      obtain ⟨col, hcol', hat'⟩ := at_mem b.transpose hx'
      have hat'' : ∀ z < 4, b.at_ z x' ∈ col := fun z hz => at_transpose hz hx' ▸ hat' z hz
      rcases eq_or_ne (b.at_ y x') 0 with hc | hc
      · exact hrow .up _ rfl rfl col hcol' _ (hat'' y' hy') hne (hc ▸ hat'' y hy)
      · exact hrow .left _ rfl rfl row hrow' _ (hat x' hx') hc (h0 ▸ hat x hx)
    have hstuck : ∀ d, ∀ line ∈ (b.along d).rows, Stuck line := by
      intro d line hline
      have hfixed : settle (facing d line) = facing d line := by
        rw [← facing_facing d (settle (facing d line)), hfix d (hnone d) line hline]
      have := (@settle_full (facing d line) (by simpa using (b.along d).width _ hline) (by
        rw [hfixed, mem_facing]
        exact fun h0 => hfull (has_along.mp ⟨line, hline, h0⟩))).2.facing (d := d)
      rwa [facing_facing] at this
    have hnot : canMove b = false := canMove_iff.mpr ⟨hstuck .left, hstuck .up⟩
    exact Bool.false_ne_true (hnot ▸ hmove)
  · rintro ⟨d, hd⟩
    by_contra hmove
    rw [not_eq_true, canMove_iff] at hmove
    have hstuck : ∀ line ∈ (b.along d).rows, Stuck line := by
      cases d
      exacts [hmove.1, hmove.1, hmove.2, hmove.2]
    refine hd ?_
    have halong : (slid d b).along d = b.along d := Board.ext <| by
      rw [slid_along]
      refine (map_congr_left fun line hline => ?_).trans (map_id _)
      rw [(hstuck line hline).facing.settle (by simpa using (b.along d).width _ hline),
        facing_facing, id]
    rw [← along_along d (slid d b), halong, along_along]

end C1auncher.Games.G2048
