import Mathlib

/-!
Maps of words that respect exclusive or.

The words a map runs through meet a fixed recurrence. A bit that stayed set for as many words as
the recurrence has would have to meet it too, which it cannot when an odd number of the words count.
-/

namespace C1auncher.XorMaps

open Function

variable {w : ℕ} {f : BitVec w → BitVec w} {cs : List Bool}

def Linear (f : BitVec w → BitVec w) : Prop := ∀ x y, f (x ^^^ y) = f x ^^^ f y

lemma Linear.map_zero (h : Linear f) : f 0#w = 0#w := by
  have hself := h 0#w 0#w
  rwa [BitVec.xor_self, BitVec.xor_self] at hself

lemma Linear.comp {g : BitVec w → BitVec w} (hf : Linear f) (hg : Linear g) : Linear (f ∘ g) :=
  fun x y => by rw [comp_apply, hg, hf]; rfl

lemma lt_xor_twoPow {x : BitVec w} {k : ℕ} (hx : x.toNat < 2 ^ (k + 1)) (hk : 2 ^ k ≤ x.toNat) :
    (x ^^^ BitVec.twoPow w k).toNat < 2 ^ k := by
  refine Nat.lt_pow_two_of_testBit _ fun i hi => ?_
  rw [BitVec.testBit_toNat, BitVec.getLsbD_xor, BitVec.getLsbD_twoPow, ← BitVec.testBit_toNat]
  rcases eq_or_lt_of_le hi with rfl | hlt
  · have hw : k < w := (Nat.pow_lt_pow_iff_right (by decide)).mp (hk.trans_lt x.isLt)
    have hset : x.toNat.testBit k = true := by
      rw [Nat.testBit_eq_decide_div_mod_eq, decide_eq_true_eq,
        Nat.div_eq_of_lt_le (k := 1) (by omega) (by omega)]
    simp [hset, hw]
  · have hbit := Nat.testBit_lt_two_pow (hx.trans_le (Nat.pow_le_pow_right (by decide) hlt))
    simp [hbit, hlt.ne]

/-- **A linear map that is zero at every single bit is zero.** -/
theorem Linear.eq_zero (h : Linear f) (hbits : ∀ k < w, f (BitVec.twoPow w k) = 0#w)
    (x : BitVec w) : f x = 0#w := by
  suffices hlow : ∀ k ≤ w, ∀ x : BitVec w, x.toNat < 2 ^ k → f x = 0#w from
    hlow w le_rfl x x.isLt
  intro k
  induction k with
  | zero =>
    intro _ x hx
    obtain rfl : x = 0#w := BitVec.eq_of_toNat_eq (by simpa using hx)
    exact h.map_zero
  | succ k ih =>
    intro hk x hx
    rcases lt_or_ge x.toNat (2 ^ k) with hlt | hge
    · exact ih (by omega) x hlt
    · have hrest := ih (by omega) _ (lt_xor_twoPow hx hge)
      rwa [h, hbits k (by omega), BitVec.xor_zero] at hrest

/-! ### Recurrences -/

/-- The exclusive or of the words that count among `x`, `f x`, `f (f x)` and so on. -/
def combine (f : BitVec w → BitVec w) : List Bool → BitVec w → BitVec w
  | [], _ => 0#w
  | c :: cs, x => (if c then x else 0#w) ^^^ combine f cs (f x)

lemma Linear.combine (h : Linear f) : ∀ cs, Linear (combine f cs)
  | [] => fun _ _ => by simp [XorMaps.combine]
  | c :: cs => fun x y => by
    simp only [XorMaps.combine, h x y, Linear.combine h cs (f x) (f y)]
    cases c
    · simp
    · simp only [if_true]
      ac_rfl

/-- `f` meets the recurrence, in which the first word counts. -/
def Meets (f : BitVec w → BitVec w) (cs : List Bool) : Prop :=
  ∀ x, combine f (true :: cs) x = 0#w

lemma Meets.injective (h : Meets f cs) (hf : Linear f) : Injective f := by
  intro x y heq
  have hzero : f (x ^^^ y) = 0#w := by rw [hf, heq, BitVec.xor_self]
  have hsum := h (x ^^^ y)
  rw [XorMaps.combine, if_pos rfl, hzero, (hf.combine cs).map_zero, BitVec.xor_zero] at hsum
  exact BitVec.xor_eq_zero_iff.mp hsum

/-- **A linear map that meets a recurrence is a bijection of the words other than zero.** -/
theorem Meets.bijOn (h : Meets f cs) (hf : Linear f) :
    Set.BijOn f {x | x ≠ 0#w} {x | x ≠ 0#w} := by
  have hinj := h.injective hf
  refine ⟨fun x hx hzero => hx (hinj (hzero.trans hf.map_zero.symm)), hinj.injOn, fun y hy => ?_⟩
  obtain ⟨x, rfl⟩ := (Finite.injective_iff_surjective.mp hinj) y
  exact ⟨x, fun hx => hy (hx ▸ hf.map_zero), rfl⟩

lemma getLsbD_combine {i : ℕ} : ∀ {cs : List Bool} {x : BitVec w},
    (∀ k < cs.length, (f^[k] x).getLsbD i = true) →
    (combine f cs x).getLsbD i = cs.foldr xor false
  | [], _, _ => by simp [combine]
  | c :: cs, x, h => by
    have hx : x.getLsbD i = true := h 0 (by simp)
    rw [combine, BitVec.getLsbD_xor, List.foldr_cons, getLsbD_combine fun k hk => by
      rw [← iterate_succ_apply]
      exact h (k + 1) (by simpa using hk)]
    cases c <;> simp [hx]

/-- **No bit stays set**: where an odd number of words count, one of them has the bit clear. -/
theorem Meets.exists_clear (h : Meets f cs) (hodd : cs.foldr xor false = false) (i : ℕ)
    (x : BitVec w) : ∃ k ≤ cs.length, (f^[k] x).getLsbD i = false := by
  by_contra hall
  push Not at hall
  have hbit := @getLsbD_combine w f i (true :: cs) x fun k hk =>
    Bool.not_eq_false _ |>.mp (hall k (by simpa [Nat.lt_succ_iff] using hk))
  rw [h x, List.foldr_cons, hodd] at hbit
  simp at hbit

end C1auncher.XorMaps
