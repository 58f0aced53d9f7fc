import C1auncher.XorMaps

/-!
The generator of the games: xorshift32, and how a number below a bound is drawn from it.
-/

namespace C1auncher.Games.Rng

open XorMaps Nat

/-- `rng_t`: the word `s`. -/
abbrev State := BitVec 32

/-- `rng_seed` -/
def seed (entropy : BitVec 64) : State :=
  let s := (entropy ^^^ (entropy >>> 32)).setWidth 32
  if s = 0#32 then 0x9e3779b9#32 else s

/-- `rng_next`: the output is the next state too. -/
def next (s : State) : State :=
  let x := s ^^^ (s <<< 13)
  let x := x ^^^ (x >>> 17)
  x ^^^ (x <<< 5)

def limit (n : BitVec 32) : BitVec 32 := -1#32 / n * n

/-- The loop of `rng_range`: the first output below the limit. -/
def draw (limit : BitVec 32) : ℕ → State → Option State
  | 0, _ => none
  | fuel + 1, s =>
    let v := next s
    if limit ≤ v then draw limit fuel v else some v

/-- `rng_range`: the number and the state after it; nothing when the fuel runs out. -/
def range (n : BitVec 32) (fuel : ℕ) (s : State) : Option (BitVec 32 × State) :=
  if n ≤ 1#32 then some (0#32, s) else (draw (limit n) fuel s).map fun v => (v % n, v)

/-! ### The outputs -/

lemma linear_left (k : ℕ) : Linear fun x : State => x ^^^ (x <<< k) := fun x y => by
  dsimp only
  rw [BitVec.shiftLeft_xor_distrib]
  ac_rfl

lemma linear_right (k : ℕ) : Linear fun x : State => x ^^^ (x >>> k) := fun x y => by
  dsimp only
  rw [BitVec.ushiftRight_xor_distrib]
  ac_rfl

lemma next_linear : Linear next :=
  (linear_left 5).comp ((linear_right 17).comp (linear_left 13))

/-- Which of the thirty-two outputs after a state give the state. -/
def recurrence : List Bool :=
  [6, 9, 14, 15, 17, 18, 19, 20, 21, 32].foldl (fun cs i => cs.set (i - 1) true)
    (List.replicate 32 false)

lemma next_meets : Meets next recurrence :=
  (next_linear.combine (true :: recurrence)).eq_zero (by decide)

variable {n s : BitVec 32}

lemma seed_ne_zero (entropy : BitVec 64) : seed entropy ≠ 0#32 := by
  unfold seed
  dsimp only
  split_ifs with hzero
  · decide
  · exact hzero

/-! ### The limit -/

lemma toNat_pos (hn : n ≠ 0#32) : 0 < n.toNat :=
  Nat.pos_of_ne_zero fun h => hn (BitVec.eq_of_toNat_eq h)

lemma toNat_limit : (limit n).toNat = (2 ^ 32 - 1) / n.toNat * n.toNat := by
  have hle : (2 ^ 32 - 1) / n.toNat * n.toNat ≤ 2 ^ 32 - 1 := div_mul_le_self _ _
  rw [limit, BitVec.toNat_mul, BitVec.toNat_udiv, mod_eq_of_lt]
  · rfl
  · exact hle.trans_lt (by decide)

/-- At most the upper half of the words is rejected. -/
lemma half_le_limit (hn : n ≠ 0#32) : 2 ^ 31 ≤ (limit n).toNat := by
  have hpos := toNat_pos hn
  have hlt := n.isLt
  have hrest := div_add_mod' (2 ^ 32 - 1) n.toNat
  have hmod := mod_lt (2 ^ 32 - 1) hpos
  have hone : 1 ≤ (2 ^ 32 - 1) / n.toNat := (Nat.one_le_div_iff hpos).mpr (by omega)
  have hge := Nat.le_mul_of_pos_left n.toNat hone
  rw [toNat_limit]
  omega

/-- The outputs that are accepted, as numbers. -/
def accepted {r : BitVec 32} (hr : r < n) :
    {v : BitVec 32 // v < limit n ∧ v % n = r} ≃
      {k : ℕ // k < (limit n).toNat ∧ k ≡ r.toNat [MOD n.toNat]} where
  toFun v := ⟨v.1.toNat, v.2.1, by
    have hmod := congrArg BitVec.toNat v.2.2
    rw [BitVec.toNat_umod] at hmod
    rw [Nat.ModEq, hmod, Nat.mod_eq_of_lt hr]⟩
  invFun k := ⟨BitVec.ofNatLT k.1 (k.2.1.trans (limit n).isLt), k.2.1, by
    refine BitVec.eq_of_toNat_eq ?_
    rw [BitVec.toNat_umod, BitVec.toNat_ofNatLT, k.2.2, Nat.mod_eq_of_lt hr]⟩
  left_inv _ := rfl
  right_inv _ := rfl

/-- **No bias**: every residue has as many accepted outputs. -/
theorem card_accepted (hn : n ≠ 0#32) {r : BitVec 32} (hr : r < n) :
    Nat.card {v : BitVec 32 // v < limit n ∧ v % n = r} = (limit n).toNat / n.toNat := by
  have hwhole : (limit n).toNat % n.toNat = 0 := by rw [toNat_limit, Nat.mul_mod_left]
  rw [Nat.card_congr (accepted hr), Nat.subtype_card ((Finset.range (limit n).toNat).filter
    (· ≡ r.toNat [MOD n.toNat])) (by simp), ← Nat.count_eq_card_filter_range,
    Nat.count_modEq_card _ (toNat_pos hn), hwhole, if_neg (Nat.not_lt_zero _), Nat.add_zero]

/-! ### The loop -/

lemma draw_of_iterate {bound : BitVec 32} : ∀ {k : ℕ} {s : State}, s ≠ 0#32 →
    next^[k] (next s) < bound →
    ∃ v, v < bound ∧ v ≠ 0#32 ∧ ∀ fuel > k, draw bound fuel s = some v := by
  intro k
  induction k with
  | zero =>
    intro s hs hlt
    refine ⟨next s, hlt, (next_meets.bijOn next_linear).mapsTo hs, fun fuel hfuel => ?_⟩
    obtain ⟨fuel, rfl⟩ := exists_eq_succ_of_ne_zero hfuel.ne'
    exact if_neg (BitVec.not_le.mpr hlt)
  | succ k ih =>
    intro s hs hlt
    have hnext := (next_meets.bijOn next_linear).mapsTo hs
    by_cases hhere : next s < bound
    · refine ⟨next s, hhere, hnext, fun fuel hfuel => ?_⟩
      obtain ⟨fuel, rfl⟩ := exists_eq_succ_of_ne_zero (Nat.ne_zero_of_lt hfuel)
      exact if_neg (BitVec.not_le.mpr hhere)
    obtain ⟨v, hv, hne, hdraw⟩ := ih hnext hlt
    refine ⟨v, hv, hne, fun fuel hfuel => ?_⟩
    obtain ⟨fuel, rfl⟩ := exists_eq_succ_of_ne_zero (Nat.ne_zero_of_lt hfuel)
    rw [draw, if_pos (BitVec.not_lt.mp hhere)]
    exact hdraw fuel (lt_of_succ_lt_succ hfuel)

/-- The loop ends: among thirty-three outputs one is below the half. -/
lemma range_some (hn : n ≠ 0#32) (hs : s ≠ 0#32) :
    ∃ v t, v < n ∧ t ≠ 0#32 ∧ ∀ fuel ≥ 33, range n fuel s = some (v, t) := by
  have hpos : 0#32 < n := toNat_pos hn
  unfold range
  split_ifs with hone
  · exact ⟨0#32, s, hpos, hs, fun _ _ => rfl⟩
  obtain ⟨k, hk, hclear⟩ := next_meets.exists_clear (by decide) 31 (next s)
  have hlow : (next^[k] (next s)).toNat < 2 ^ 31 :=
    BitVec.toNat_lt_of_msb_false (by rwa [BitVec.msb_eq_getLsbD_last])
  have hlimit : next^[k] (next s) < limit n := hlow.trans_le (half_le_limit hn)
  obtain ⟨v, -, hne, hdraw⟩ := draw_of_iterate hs hlimit
  refine ⟨v % n, v, BitVec.umod_lt _ hpos, hne, fun fuel hfuel => ?_⟩
  rw [hdraw fuel (by simp [recurrence] at hk; omega), Option.map_some]

/-- **The random range**: a seed is never zero, the outputs go round the words other than zero,
every number below the bound has as many accepted outputs, and one is found. -/
theorem random_range : (∀ entropy, seed entropy ≠ 0#32) ∧
    Set.BijOn next {s | s ≠ 0#32} {s | s ≠ 0#32} ∧ ∀ n ≠ 0#32,
      n.toNat ∣ (limit n).toNat ∧
      (∀ r < n, Nat.card {v : BitVec 32 // v < limit n ∧ v % n = r} =
        (limit n).toNat / n.toNat) ∧
      ∀ s ≠ 0#32, ∃ v t, v < n ∧ t ≠ 0#32 ∧ ∀ fuel ≥ 33, range n fuel s = some (v, t) := by
  refine ⟨seed_ne_zero, next_meets.bijOn next_linear, fun n hn => ⟨?_, fun r hr =>
    card_accepted hn hr, fun s hs => range_some hn hs⟩⟩
  rw [toNat_limit]
  exact Nat.dvd_mul_left _ _

end C1auncher.Games.Rng
