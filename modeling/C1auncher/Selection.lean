import Mathlib

/-!
A bounded list of the best rows, kept on-line.

Every row has a key and a rank; of the rows with one key only the lowest rank counts, and of
those that count only the lowest are kept. The list is the same as if all rows were sorted and
cut at the end.
-/

namespace C1auncher.Selection

open List

variable {α κ β : Type*} [LinearOrder β]

/-! ### The best rows -/

section Best

variable (key : α → κ) (rank : α → β)

/-- The row has the lowest rank of those with its key. -/
def Best (rows : List α) (x : α) : Prop :=
  x ∈ rows ∧ ∀ m ∈ rows, key m = key x → rank x ≤ rank m

variable {key rank} {rows : List α} {n x : α}

lemma best_snoc : Best key rank (rows ++ [n]) x ↔
    (Best key rank rows x ∧ (key n = key x → rank x ≤ rank n)) ∨
    (x = n ∧ ∀ m ∈ rows, key m = key n → rank n ≤ rank m) := by
  simp only [Best, mem_append, mem_singleton, or_imp, forall_and, forall_eq]
  constructor
  · rintro ⟨hx | rfl, hrows, hn⟩
    · exact .inl ⟨⟨hx, hrows⟩, hn⟩
    · exact .inr ⟨rfl, hrows⟩
  rintro (⟨⟨hx, hrows⟩, hn⟩ | ⟨rfl, hrows⟩)
  · exact ⟨.inl hx, hrows, hn⟩
  · exact ⟨.inr rfl, hrows, fun _ => le_rfl⟩

variable (key rank) in
lemma exists_best (hx : x ∈ rows) :
    ∃ m, Best key rank rows m ∧ key m = key x ∧ rank m ≤ rank x := by
  classical
  have hmem : x ∈ rows.filter (fun m => key m = key x) := by simp [hx]
  obtain ⟨m, hm, hmin⟩ := Finset.exists_min_image (rows.filter fun m => key m = key x).toFinset rank
    ⟨x, List.mem_toFinset.mpr hmem⟩
  rw [mem_toFinset, mem_filter, decide_eq_true_eq] at hm
  refine ⟨m, ⟨hm.1, fun m' hm' hkey => hmin m' ?_⟩, hm.2, hmin x (List.mem_toFinset.mpr hmem)⟩
  rw [mem_toFinset, mem_filter, decide_eq_true_eq]
  exact ⟨hm', hkey.trans hm.2⟩

end Best

/-! ### The lowest of a set -/

/-- At most `K` members of a set, and where some are left out, `K` that are lower. -/
structure Lowest (rank : α → β) (K : ℕ) (B : α → Prop) (l : List α) : Prop where
  nodup : l.Nodup
  mem : ∀ x ∈ l, B x
  length : l.length ≤ K
  rest : ∀ b, B b → b ∉ l → l.length = K ∧ ∀ x ∈ l, rank x < rank b

namespace Lowest

variable {rank : α → β} {K : ℕ} {B : α → Prop} {l l' : List α}

lemma perm (h : Lowest rank K B l) (hperm : l'.Perm l) : Lowest rank K B l' := by
  refine ⟨hperm.nodup_iff.mpr h.nodup, fun x hx => h.mem x (hperm.mem_iff.mp hx),
    hperm.length_eq.trans_le h.length, fun b hb hnot => ?_⟩
  obtain ⟨hlen, hlower⟩ := h.rest b hb fun hb' => hnot (hperm.mem_iff.mpr hb')
  exact ⟨hperm.length_eq.trans hlen, fun x hx => hlower x (hperm.mem_iff.mp hx)⟩

lemma subset (h : Lowest rank K B l) (h' : Lowest rank K B l') : l ⊆ l' := by
  intro x hx
  by_contra hnot
  obtain ⟨hlen, hlower⟩ := h'.rest x (h.mem x hx) hnot
  have hsub : x :: l' ⊆ l := by
    intro y hy
    rcases List.mem_cons.mp hy with rfl | hy
    · exact hx
    by_contra hnot'
    have hyx := hlower y hy
    exact lt_asymm hyx ((h.rest y (h'.mem y hy) hnot').2 x hx)
  have hle := (subperm_of_subset (nodup_cons.mpr ⟨hnot, h'.nodup⟩) hsub).length_le
  rw [length_cons, hlen] at hle
  exact absurd h.length (by omega)

/-- **There is one such set of rows, in one order.** -/
theorem unique (h : Lowest rank K B l) (h' : Lowest rank K B l')
    (hsorted : l.Pairwise (rank · < rank ·)) (hsorted' : l'.Pairwise (rank · < rank ·)) :
    l = l' := by
  have : Std.Irrefl fun x y => rank x < rank y := ⟨fun x => lt_irrefl (rank x)⟩
  exact hsorted.eq_of_mem_iff hsorted' fun x => ⟨fun hx => h.subset h' hx, fun hx => h'.subset h hx⟩

end Lowest

/-- **Sorting everything and cutting gives the lowest.** -/
theorem lowest_take {rank : α → β} {sorted : List α} (h : sorted.Pairwise (rank · < rank ·))
    (K : ℕ) : Lowest rank K (· ∈ sorted) (sorted.take K) := by
  have hsplit := take_append_drop K sorted
  have hnodup : sorted.Nodup :=
    List.nodup_iff_pairwise_ne.mpr (h.imp fun hlt heq => hlt.ne (congrArg rank heq))
  refine ⟨hnodup.take, fun x hx => mem_of_mem_take hx, length_take_le _ _,
    fun b hb hnot => ?_⟩
  have hdrop : b ∈ sorted.drop K := by
    rw [← hsplit, mem_append] at hb
    exact hb.resolve_left hnot
  have hlen : K < sorted.length := by
    have hpos := length_pos_of_mem hdrop
    rw [length_drop] at hpos
    omega
  refine ⟨by rw [length_take]; omega, fun x hx => ?_⟩
  rw [← hsplit, pairwise_append] at h
  exact h.2.2 x hx b hdrop

/-! ### One more row -/

section Step

variable {key : α → κ} {rank : α → β} {K : ℕ} {rows l : List α} {n m : α}

lemma best_of_ne {x : α} (h : Best key rank rows x) (hkey : key x ≠ key n) :
    Best key rank (rows ++ [n]) x :=
  best_snoc.mpr (.inl ⟨h, fun hkey' => absurd hkey'.symm hkey⟩)

variable (hinj : ∀ x ∈ rows ++ [n], ∀ y ∈ rows ++ [n], rank x = rank y → x = y)

include hinj

lemma eq_of_key {x y : α} (hx : Best key rank rows x) (hy : Best key rank rows y)
    (hkey : key x = key y) : x = y :=
  hinj x (mem_append_left _ hx.1) y (mem_append_left _ hy.1)
    (le_antisymm (hx.2 y hy.1 hkey.symm) (hy.2 x hx.1 hkey))

lemma lowest_same (h : Lowest rank K (Best key rank rows) l) (hm : m ∈ l) (hkey : key m = key n)
    (hle : rank m ≤ rank n) : Lowest rank K (Best key rank (rows ++ [n])) l := by
  have hbest := h.mem m hm
  refine ⟨h.nodup, fun x hx => ?_, h.length, fun b hb hnot => ?_⟩
  · refine best_snoc.mpr (.inl ⟨h.mem x hx, fun hkey' => ?_⟩)
    obtain rfl := eq_of_key hinj hbest (h.mem x hx) (hkey.trans hkey')
    exact hle
  rcases best_snoc.mp hb with ⟨hb, -⟩ | ⟨rfl, hrows⟩
  · exact h.rest b hb hnot
  have heq := hinj m (mem_append_left _ hbest.1) b (by simp)
    (le_antisymm hle (hrows m hbest.1 hkey))
  exact absurd (heq ▸ hm) hnot

lemma lowest_replace [DecidableEq α] (h : Lowest rank K (Best key rank rows) l) (hm : m ∈ l)
    (hkey : key m = key n) (hlt : rank n < rank m) :
    Lowest rank K (Best key rank (rows ++ [n])) (n :: l.erase m) := by
  have hbest := h.mem m hm
  have hnew : n ∉ l := fun hn => by
    obtain rfl := eq_of_key hinj hbest (h.mem n hn) hkey
    exact lt_irrefl _ hlt
  have hpos := length_pos_of_mem hm
  have hlen : (n :: l.erase m).length = l.length := by
    rw [length_cons, length_erase_of_mem hm]
    omega
  refine ⟨nodup_cons.mpr ⟨fun hn => hnew (mem_of_mem_erase hn), h.nodup.erase m⟩,
    fun x hx => ?_, hlen.trans_le h.length, fun b hb hnot => ?_⟩
  · rcases List.mem_cons.mp hx with rfl | hx
    · refine best_snoc.mpr (.inr ⟨rfl, fun m' hm' hkey' => ?_⟩)
      exact hlt.le.trans (hbest.2 m' hm' (hkey'.trans hkey.symm))
    obtain ⟨hne, hx⟩ := h.nodup.mem_erase_iff.mp hx
    exact best_of_ne (h.mem x hx) fun hkey' =>
      hne (eq_of_key hinj (h.mem x hx) hbest (hkey'.trans hkey.symm))
  · rcases best_snoc.mp hb with ⟨hb, hworse⟩ | ⟨rfl, -⟩
    · rw [mem_cons, not_or] at hnot
      have hout : b ∉ l := by
        intro hbl
        by_cases heq : b = m
        · exact absurd (hworse (heq ▸ hkey.symm)) (not_le.mpr (heq ▸ hlt))
        · exact hnot.2 (h.nodup.mem_erase_iff.mpr ⟨heq, hbl⟩)
      obtain ⟨hfull, hlower⟩ := h.rest b hb hout
      refine ⟨hlen.trans hfull, fun x hx => ?_⟩
      rcases List.mem_cons.mp hx with rfl | hx
      · exact hlt.trans (hlower m hm)
      · exact hlower x (mem_of_mem_erase hx)
    · exact absurd mem_cons_self hnot

omit hinj

lemma lowest_append (h : Lowest rank K (Best key rank rows) l) (hkey : ∀ m ∈ l, key m ≠ key n)
    (hlen : l.length < K) : Lowest rank K (Best key rank (rows ++ [n])) (l ++ [n]) := by
  have hall : ∀ b, Best key rank rows b → b ∈ l := fun b hb => by
    by_contra hnot
    exact absurd (h.rest b hb hnot).1 hlen.ne
  have hnew : n ∉ l := fun hn => hkey n hn rfl
  refine ⟨?_, fun x hx => ?_, ?_, fun b hb hnot => ?_⟩
  · exact (nodup_cons.mpr ⟨hnew, h.nodup⟩).perm (perm_append_singleton n l).symm
  · rcases List.mem_append.mp hx with hx | hx
    · exact best_of_ne (h.mem x hx) (hkey x hx)
    obtain rfl := List.mem_singleton.mp hx
    refine best_snoc.mpr (.inr ⟨rfl, fun m' hm' hkey' => ?_⟩)
    obtain ⟨m₀, hm₀, hkey₀, -⟩ := exists_best key rank hm'
    exact absurd (hkey₀.trans hkey') (hkey m₀ (hall m₀ hm₀))
  · rw [length_append, length_singleton]
    omega
  · rcases best_snoc.mp hb with ⟨hb, -⟩ | ⟨rfl, -⟩
    · exact absurd (mem_append_left _ (hall b hb)) hnot
    · exact absurd (by simp) hnot

lemma lowest_refuse (h : Lowest rank K (Best key rank rows) l) (hkey : ∀ m ∈ l, key m ≠ key n)
    (hlen : l.length = K) (hlower : ∀ m ∈ l, rank m < rank n) :
    Lowest rank K (Best key rank (rows ++ [n])) l := by
  refine ⟨h.nodup, fun x hx => best_of_ne (h.mem x hx) (hkey x hx), h.length, fun b hb hnot => ?_⟩
  rcases best_snoc.mp hb with ⟨hb, -⟩ | ⟨rfl, -⟩
  · exact h.rest b hb hnot
  · exact ⟨hlen, hlower⟩

lemma lowest_evict (h : Lowest rank K (Best key rank rows) (l ++ [m]))
    (hkey : ∀ x ∈ l ++ [m], key x ≠ key n) (hlen : (l ++ [m]).length = K)
    (hlower : ∀ x ∈ l, rank x < rank m) (hlt : rank n < rank m) :
    Lowest rank K (Best key rank (rows ++ [n])) (l ++ [n]) := by
  have hnew : n ∉ l := fun hn => hkey n (mem_append_left _ hn) rfl
  have hlen' : (l ++ [n]).length = K := by simpa using hlen
  refine ⟨?_, fun x hx => ?_, hlen'.le, fun b hb hnot => ⟨hlen', fun x hx => ?_⟩⟩
  · exact (nodup_cons.mpr ⟨hnew, (List.nodup_append.mp h.nodup).1⟩).perm
      (perm_append_singleton n l).symm
  · rcases List.mem_append.mp hx with hx | hx
    · exact best_of_ne (h.mem x (mem_append_left _ hx)) (hkey x (mem_append_left _ hx))
    obtain rfl := List.mem_singleton.mp hx
    refine best_snoc.mpr (.inr ⟨rfl, fun m' hm' hkey' => ?_⟩)
    obtain ⟨m₀, hm₀, hkey₀, hle⟩ := exists_best key rank hm'
    have hout : m₀ ∉ l ++ [m] := fun hin => hkey m₀ hin (hkey₀.trans hkey')
    calc rank x ≤ rank m := hlt.le
      _ ≤ rank m₀ := ((h.rest m₀ hm₀ hout).2 m (by simp)).le
      _ ≤ rank m' := hle
  · rcases best_snoc.mp hb with ⟨hb, -⟩ | ⟨rfl, -⟩
    · have hbound : ∀ y ∈ l ++ [m], b = m ∨ rank y < rank b := by
        intro y hy
        by_cases heq : b = m
        · exact .inl heq
        refine .inr ((h.rest b hb fun hin => ?_).2 y hy)
        rcases List.mem_append.mp hin with hin | hin
        · exact hnot (mem_append_left _ hin)
        · exact heq (List.mem_singleton.mp hin)
      rcases List.mem_append.mp hx with hx | hx
      · rcases hbound x (mem_append_left _ hx) with rfl | hlt'
        · exact hlower x hx
        · exact hlt'
      obtain rfl := List.mem_singleton.mp hx
      rcases hbound m (by simp) with rfl | hlt'
      · exact hlt
      · exact hlt.trans hlt'
    · exact absurd (by simp) hnot

end Step

end C1auncher.Selection
