import Mathlib

/-!
Merging equal neighbours of a row of pieces from its leading end: two equal pieces become the next
larger one, and a piece made by a merge merges no further.
-/

namespace C1auncher.Merging

open List

variable {α : Type*} [DecidableEq α] (up : α → α)

/-- The pieces of a row once equal neighbours have merged. -/
def merge : List α → List α
  | a :: b :: rest => if a = b then up a :: merge rest else a :: merge (b :: rest)
  | row => row

def merged : List α → List α
  | a :: b :: rest => if a = b then up a :: merged rest else merged (b :: rest)
  | _ => []

variable {up}

@[simp] lemma merge_nil : merge up [] = [] := rfl
@[simp] lemma merge_single (a : α) : merge up [a] = [a] := rfl
@[simp] lemma merged_nil : merged up [] = [] := rfl
@[simp] lemma merged_single (a : α) : merged up [a] = [] := rfl

@[simp] lemma merge_same (a : α) (rest : List α) :
    merge up (a :: a :: rest) = up a :: merge up rest := by simp [merge]

@[simp] lemma merged_same (a : α) (rest : List α) :
    merged up (a :: a :: rest) = up a :: merged up rest := by simp [merged]

lemma merge_of_ne {a b : α} (h : a ≠ b) (rest : List α) :
    merge up (a :: b :: rest) = a :: merge up (b :: rest) := by simp [merge, h]

lemma merged_of_ne {a b : α} (h : a ≠ b) (rest : List α) :
    merged up (a :: b :: rest) = merged up (b :: rest) := by simp [merged, h]

theorem row_induction {P : List α → Prop} (nil : P []) (single : ∀ a, P [a])
    (same : ∀ a rest, P rest → P (a :: a :: rest))
    (differ : ∀ a b rest, a ≠ b → P (b :: rest) → P (a :: b :: rest)) (row : List α) : P row := by
  induction row using merge.induct with
  | case1 b rest ih => exact same b rest ih
  | case2 a b rest hne ih => exact differ a b rest hne ih
  | case3 row hrow =>
    rcases row with _ | ⟨a, _ | ⟨b, rest⟩⟩
    · exact nil
    · exact single a
    · exact absurd rfl (hrow a b rest)

lemma length_merge (row : List α) :
    (merge up row).length + (merged up row).length = row.length := by
  induction row using row_induction with
  | nil => rfl
  | single a => rfl
  | same a rest ih => simp only [merge_same, merged_same, length_cons]; omega
  | differ a b rest hne ih =>
    simp only [merge_of_ne hne, merged_of_ne hne, length_cons] at ih ⊢; omega

/-- **A measure of the pieces grows by what the merges add to it.** -/
theorem sum_merge {size gain : α → ℕ} (row : List α)
    (h : ∀ a ∈ row, size (up a) = 2 * size a + gain (up a)) :
    ((merge up row).map size).sum = (row.map size).sum + ((merged up row).map gain).sum := by
  induction row using row_induction with
  | nil => rfl
  | single a => simp
  | same a rest ih =>
    have ha := h a (by simp)
    have hrest := ih fun c hc => h c (by simp [hc])
    simp only [merge_same, merged_same, map_cons, sum_cons]
    omega
  | differ a b rest hne ih =>
    have hrest := ih fun c hc => h c (mem_cons_of_mem _ hc)
    simp only [merge_of_ne hne, merged_of_ne hne, map_cons, sum_cons] at hrest ⊢
    omega

lemma mem_merge {c : α} {row : List α} (h : c ∈ merge up row) : c ∈ row ∨ c ∈ merged up row := by
  induction row using row_induction with
  | nil => exact .inl h
  | single a => exact .inl h
  | same a rest ih =>
    rw [merge_same, mem_cons] at h
    rw [merged_same]
    rcases h with rfl | h
    · exact .inr mem_cons_self
    · exact (ih h).imp (fun hc => by simp [hc]) (mem_cons_of_mem _)
  | differ a b rest hne ih =>
    rw [merge_of_ne hne, mem_cons] at h
    rw [merged_of_ne hne]
    rcases h with rfl | h
    · exact .inl mem_cons_self
    · exact (ih h).imp_left (mem_cons_of_mem _)

lemma merged_subset (row : List α) : merged up row ⊆ merge up row := by
  induction row using row_induction with
  | nil => simp
  | single a => simp
  | same a rest ih => rw [merge_same, merged_same]; exact cons_subset_cons _ ih
  | differ a b rest hne ih =>
    rw [merge_of_ne hne, merged_of_ne hne]
    exact subset_cons_of_subset _ ih

lemma exists_of_mem_merged {c : α} {row : List α} (h : c ∈ merged up row) :
    ∃ a, c = up a ∧ [a, a] <:+: row := by
  induction row using row_induction with
  | nil => simp at h
  | single a => simp at h
  | same a rest ih =>
    rw [merged_same, mem_cons] at h
    rcases h with rfl | h
    · exact ⟨a, rfl, [], rest, rfl⟩
    · obtain ⟨d, hd, hin⟩ := ih h
      exact ⟨d, hd, hin.trans ((suffix_cons a rest).trans (suffix_cons a _)).isInfix⟩
  | differ a b rest hne ih =>
    rw [merged_of_ne hne] at h
    obtain ⟨d, hd, hin⟩ := ih h
    exact ⟨d, hd, hin.trans (suffix_cons a _).isInfix⟩

lemma mem_merged_of_pair {a : α} {row : List α} (h : [a, a] <:+: row) : up a ∈ merged up row := by
  induction row using row_induction with
  | nil => simp at h
  | single c => have := h.length_le; simp at this
  | same c rest ih =>
    rw [merged_same, mem_cons]
    rcases List.infix_cons_iff.mp h with hp | h
    · exact .inl (by rw [(List.cons_prefix_cons.mp hp).1])
    rcases List.infix_cons_iff.mp h with hp | h
    · exact .inl (by rw [(List.cons_prefix_cons.mp hp).1])
    · exact .inr (ih h)
  | differ c d rest hne ih =>
    rw [merged_of_ne hne]
    rcases List.infix_cons_iff.mp h with hp | h
    · have h1 := List.cons_prefix_cons.mp hp
      have h2 := List.cons_prefix_cons.mp h1.2
      exact absurd (h1.1.symm.trans h2.1) hne
    · exact ih h

lemma merge_eq_self {row : List α} (h : ∀ a, ¬ [a, a] <:+: row) : merge up row = row := by
  induction row using row_induction with
  | nil => rfl
  | single a => rfl
  | same a rest ih => exact absurd ⟨[], rest, rfl⟩ (h a)
  | differ a b rest hne ih =>
    rw [merge_of_ne hne, ih fun c hc => h c (hc.trans (suffix_cons a _).isInfix)]

end C1auncher.Merging
