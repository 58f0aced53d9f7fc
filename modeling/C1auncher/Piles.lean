import Mathlib

/-!
Rows of piles, one of which is replaced: sums over the piles, and how often a piece lies in them.
Families of piles, between which a piece is moved: all pieces together stay the same.
-/

namespace C1auncher.Piles

open List Function

variable {α : Type*}

/-- **A sum over a row changes by the entry that is replaced.** -/
theorem sum_map_set (f : α → ℕ) (l : List α) {i : ℕ} (hi : i < l.length) (a : α) :
    ((l.set i a).map f).sum + f l[i] = (l.map f).sum + f a := by
  induction l generalizing i with
  | nil => simp at hi
  | cons c l ih =>
    rcases i with _ | i
    · simp; omega
    have := ih (i := i) (by simpa using hi)
    rw [set_cons_succ, map_cons, sum_cons, getElem_cons_succ, map_cons, sum_cons]
    omega

lemma count_set [DecidableEq α] (piles : List (List α)) {i : ℕ} (hi : i < piles.length)
    (pile : List α) (a : α) :
    (piles.set i pile).flatten.count a + piles[i].count a =
      piles.flatten.count a + pile.count a := by
  rw [count_flatten, count_flatten]
  exact sum_map_set (List.count a) piles hi pile

lemma length_set (piles : List (List α)) {i : ℕ} (hi : i < piles.length) (pile : List α) :
    (piles.set i pile).flatten.length + piles[i].length = piles.flatten.length + pile.length := by
  rw [length_flatten, length_flatten]
  exact sum_map_set List.length piles hi pile

lemma length_le_flatten {piles : List (List α)} {pile : List α} (h : pile ∈ piles) :
    pile.length ≤ piles.flatten.length := by
  obtain ⟨before, after, rfl⟩ := append_of_mem h
  simp
  omega

lemma sum_getD (piles : List (List α)) {n : ℕ} (h : piles.length = n) :
    ((List.finRange n).map fun i : Fin n => (piles.getD i [] : Multiset α)).sum =
      (piles.flatten : Multiset α) := by
  have hmap : ((finRange n).map fun i : Fin n => (piles.getD i [] : Multiset α)) =
      piles.map fun pile : List α => (pile : Multiset α) := by
    refine ext_getElem (by simp [h]) fun i hi _ => ?_
    have hi' : i < piles.length := by simpa [h] using hi
    simp [hi']
  rw [hmap]
  clear hmap h
  induction piles with
  | nil => rfl
  | cons pile piles ih =>
    rw [map_cons, sum_cons, ih, List.flatten_cons, Multiset.coe_add]

/-! ### Families of piles -/

section Families

variable {ι : Type*} [Fintype ι] [DecidableEq ι]

def gathered (piles : ι → List α) : Multiset α := ∑ i, (piles i : Multiset α)

/-- A piece goes from the top of one pile onto another. -/
def Transfer (a : α) (i j : ι) (piles piles' : ι → List α) : Prop :=
  i ≠ j ∧ ∃ rest, piles i = a :: rest ∧
    piles' = Function.update (Function.update piles i rest) j (a :: piles j)

lemma gathered_update (piles : ι → List α) (i : ι) (pile : List α) :
    gathered (Function.update piles i pile) + (piles i : Multiset α) =
      gathered piles + (pile : Multiset α) := by
  have hcomp : (fun j => (Function.update piles i pile j : Multiset α)) =
      Function.update (fun j => (piles j : Multiset α)) i pile := by
    funext j
    rcases eq_or_ne j i with rfl | hne
    · rw [update_self, update_self]
    · rw [update_of_ne hne, update_of_ne hne]
  rw [gathered, hcomp, Finset.sum_update_of_mem (Finset.mem_univ i), gathered,
    ← Finset.sum_sdiff (Finset.subset_univ {i}), Finset.sum_singleton]
  rw [add_assoc, add_comm]

/-- **A piece that is moved is neither lost nor doubled.** -/
theorem Transfer.gathered_eq {a : α} {i j : ι} {piles piles' : ι → List α}
    (h : Transfer a i j piles piles') : gathered piles' = gathered piles := by
  obtain ⟨hne, rest, htop, rfl⟩ := h
  have hput := gathered_update (Function.update piles i rest) j (a :: piles j)
  have htaken := gathered_update piles i rest
  rw [update_of_ne hne.symm, ← Multiset.cons_coe, Multiset.add_cons,
    ← Multiset.cons_add, Multiset.add_left_inj] at hput
  rw [htop, ← Multiset.cons_coe, Multiset.add_cons, ← Multiset.cons_add,
    Multiset.add_left_inj] at htaken
  rw [hput, htaken]

omit [DecidableEq ι] in
lemma length_le_gathered (piles : ι → List α) (i : ι) :
    (piles i).length ≤ (gathered piles).card := by
  rw [gathered, Multiset.card_sum]
  exact Finset.single_le_sum (f := fun j => (piles j : Multiset α).card)
    (fun _ _ => Nat.zero_le _) (Finset.mem_univ i)

lemma length_add_le_gathered (piles : ι → List α) {i j : ι} (hne : i ≠ j) :
    (piles i).length + (piles j).length ≤ (gathered piles).card := by
  have hout := congrArg Multiset.card (gathered_update piles i [])
  have hle := length_le_gathered (Function.update piles i []) j
  rw [update_of_ne hne.symm] at hle
  rw [Multiset.card_add, Multiset.card_add, Multiset.coe_card, Multiset.coe_card,
    length_nil] at hout
  omega

end Families

end C1auncher.Piles
