import Mathlib
import C1auncher.Games.Cards
import C1auncher.Games.Rng

/-!
Every order of a deck comes from equally many outputs of the generator.
-/

namespace C1auncher.Games.FairShuffle

open List hiding swap
open Input Cards Rng

variable {m i j k : ℕ} {cards t : List UInt8} {c c' : ℕ → ℕ}

/-! ### The places that are chosen -/

/-- The loop of the shuffle, with the place that each one from `m` down changes with. -/
def arrange (c : ℕ → ℕ) : ℕ → List UInt8 → List UInt8
  | 0, cards => cards
  | m + 1, cards => arrange c m (swap cards (m + 1) (c (m + 1)))

lemma foldl_swap (c : ℕ → ℕ) (m : ℕ) (cards : List UInt8) :
    (List.range' 1 m).reverse.foldl (fun cards i => swap cards i (c i)) cards =
      arrange c m cards := by
  induction m generalizing cards with
  | zero => rfl
  | succ m ih =>
    rw [range'_1_concat, reverse_append, reverse_singleton, singleton_append, foldl_cons, ih,
      Nat.add_comm, arrange]

lemma arrange_congr (h : ∀ i < m, c (i + 1) = c' (i + 1)) :
    arrange c m cards = arrange c' m cards := by
  induction m generalizing cards with
  | zero => rfl
  | succ m ih => rw [arrange, arrange, h m m.lt_succ_self, ih fun i hi => h i (by omega)]

lemma getD_swap (hi : i < cards.length) (hj : j < cards.length) : (swap cards i j).getD k 0 =
    if k = j then cards.getD i 0 else if k = i then cards.getD j 0 else cards.getD k 0 := by
  rw [swap, getD_eq_getElem?_getD, getElem?_set, getElem?_set, length_set]
  by_cases hkj : k = j
  · rw [if_pos hkj.symm, if_pos hj, if_pos hkj]
    rfl
  rw [if_neg (Ne.symm hkj), if_neg hkj]
  by_cases hki : k = i
  · rw [if_pos hki.symm, if_pos hi, if_pos hki]
    rfl
  · rw [if_neg (Ne.symm hki), if_neg hki, getD_eq_getElem?_getD]

lemma getD_swap_self (hi : i < cards.length) (hj : j < cards.length) :
    (swap cards i j).getD i 0 = cards.getD j 0 := by
  rw [getD_swap hi hj, if_pos rfl]
  split_ifs with h
  · rw [h]
  · rfl

section Choice

variable (hm : m < cards.length)
include hm

lemma getD_arrange (hc : ∀ i < m, c (i + 1) ≤ i + 1) (hk : m < k) :
    (arrange c m cards).getD k 0 = cards.getD k 0 := by
  induction m generalizing cards with
  | zero => rfl
  | succ m ih =>
    have hle := hc m m.lt_succ_self
    have hlen := (swap_perm hm (show c (m + 1) < cards.length by omega)).length_eq
    rw [arrange, ih (by omega) (fun i hi => hc i (by omega)) (by omega), getD_swap hm (by omega),
      if_neg (by omega), if_neg (by omega)]

/-- **One way**: two choices that lead to the same order are the same. -/
lemma arrange_inj (hnodup : cards.Nodup) (hc : ∀ i < m, c (i + 1) ≤ i + 1)
    (hc' : ∀ i < m, c' (i + 1) ≤ i + 1) (h : arrange c m cards = arrange c' m cards) :
    ∀ i < m, c (i + 1) = c' (i + 1) := by
  induction m generalizing cards with
  | zero => exact fun i hi => absurd hi (by omega)
  | succ m ih =>
    have hperm {j : ℕ} (hj : j ≤ m + 1) := swap_perm hm (show j < cards.length by omega)
    have htop {c : ℕ → ℕ} (hc : ∀ i < m + 1, c (i + 1) ≤ i + 1) :
        (arrange c (m + 1) cards).getD (m + 1) 0 = cards.getD (c (m + 1)) 0 := by
      have hle := hc m m.lt_succ_self
      rw [arrange, getD_arrange (by rw [(hperm hle).length_eq]; omega)
        (fun i hi => hc i (by omega)) m.lt_succ_self, getD_swap_self hm (by omega)]
    have hle := hc m m.lt_succ_self
    have hle' := hc' m m.lt_succ_self
    have hsame : c (m + 1) = c' (m + 1) := by
      have heq := (htop hc).symm.trans ((congrArg (·.getD (m + 1) 0) h).trans (htop hc'))
      rw [getD_eq_getElem _ _ (by omega), getD_eq_getElem _ _ (by omega)] at heq
      exact hnodup.getElem_inj_iff.mp heq
    intro i hi
    rcases (Nat.lt_succ_iff.mp hi).lt_or_eq with hlt | rfl
    · rw [arrange, arrange, ← hsame] at h
      exact ih (by rw [(hperm hle).length_eq]; omega) ((hperm hle).nodup_iff.mpr hnodup)
        (fun i hi => hc i (by omega)) (fun i hi => hc' i (by omega)) h i hlt
    · exact hsame

/-- **Every way**: an order that differs in the first places only can be chosen. -/
lemma exists_arrange (hperm : t.Perm cards) (hdrop : t.drop (m + 1) = cards.drop (m + 1)) :
    ∃ c : ℕ → ℕ, (∀ i < m, c (i + 1) ≤ i + 1) ∧ arrange c m cards = t := by
  have hfront : (t.take (m + 1)).Perm (cards.take (m + 1)) := by
    rw [← take_append_drop (m + 1) t, ← take_append_drop (m + 1) cards, hdrop] at hperm
    exact (perm_append_right_iff _).mp hperm
  induction m generalizing cards with
  | zero =>
    obtain ⟨x, rest, rfl⟩ := exists_cons_of_length_pos hm
    refine ⟨id, fun i hi => absurd hi (by omega), ?_⟩
    rw [arrange, ← take_append_drop 1 t, hdrop, perm_singleton.mp hfront]
    rfl
  | succ m ih =>
    have hlen := hperm.length_eq
    obtain ⟨j, hj, hcard⟩ := mem_take_iff_getElem.mp (hfront.subset
      (mem_take_iff_getElem.mpr ⟨m + 1, by omega, rfl⟩))
    have hj' : j < cards.length := by omega
    have hswap := swap_perm hm hj'
    have hperm' := hperm.trans hswap.symm
    have hlt : m + 1 < (swap cards (m + 1) j).length := hm.trans_eq hswap.length_eq.symm
    have hdrop' : t.drop (m + 1) = (swap cards (m + 1) j).drop (m + 1) := by
      rw [drop_eq_getElem_cons (by omega), drop_eq_getElem_cons hlt, ← getD_eq_getElem _ 0 hlt,
        getD_swap_self hm hj', getD_eq_getElem _ _ hj', hcard, swap, drop_set_of_lt (by omega),
        drop_set_of_lt (by omega), hdrop]
    have hfront' := hperm'
    rw [← take_append_drop (m + 1) t, ← take_append_drop (m + 1) (swap cards (m + 1) j),
      hdrop', perm_append_right_iff] at hfront'
    obtain ⟨c, hc, harrange⟩ := ih (by omega) hperm' hdrop' hfront'
    refine ⟨Function.update c (m + 1) j, fun i hi => ?_, ?_⟩
    · rcases (Nat.lt_succ_iff.mp hi).lt_or_eq with hlt | rfl
      · rw [Function.update_of_ne (by omega)]
        exact hc i hlt
      · rw [Function.update_self]
        omega
    · have hsame : arrange (Function.update c (m + 1) j) m (swap cards (m + 1) j) = t :=
        (arrange_congr fun i hi => Function.update_of_ne (by omega) _ _).trans harrange
      rw [arrange, Function.update_self, hsame]

end Choice

/-! ### The outputs that are accepted -/

/-- The draw for the place `i + 1` is below it. -/
def bound (i : ℕ) : BitVec 32 := BitVec.ofNat 32 (i + 2)

abbrev Accepted (i : ℕ) : Type := {v : BitVec 32 // v < limit (bound i)}

def numbered (draws : (i : Fin m) → Accepted i) (k : ℕ) : UInt32 :=
  if h : k - 1 < m then ⟨(draws ⟨k - 1, h⟩).1⟩ else 0

lemma toNat_bound (hi : i < 256) : (bound i).toNat = i + 2 := by
  rw [bound, BitVec.toNat_ofNat, Nat.mod_eq_of_lt (by omega)]

lemma place_eq (hm : m < 256) (draws : (i : Fin m) → Accepted i) (i : Fin m) :
    (rngRange (numbered draws (i + 1)) ((i + 1 : ℕ).toUInt32 + 1)).toNat =
      ((draws i).1 % bound i).toNat := by
  have hi := i.isLt
  have hn : ((i + 1 : ℕ).toUInt32 + 1).toNat = i + 2 := by
    rw [UInt32.toNat_add, Nat.toUInt32_eq, UInt32.toNat_ofNat']
    simp
    omega
  have hone : ¬ (i + 1 : ℕ).toUInt32 + 1 ≤ 1 := by
    rw [UInt32.le_iff_toNat_le, hn]
    simp
  rw [rngRange, if_neg hone, UInt32.toNat_mod, hn, numbered, dif_pos (by simp),
    BitVec.toNat_umod, toNat_bound (by omega)]
  rfl

lemma nodup_deck {n : ℕ} (hn : n ≤ 256) : (deck n).Nodup := by
  refine Nodup.map_on (fun a ha b hb h => ?_) nodup_range
  have := congrArg UInt8.toNat h
  simp at this ha hb
  omega

lemma card_choices (hm : m < 256) (r : ℕ → BitVec 32) (hr : ∀ i < m, r i < bound i) :
    Nat.card {draws : (i : Fin m) → Accepted i // ∀ i : Fin m, (draws i).1 % bound i = r i} =
      ∏ i : Fin m, (limit (bound i)).toNat / (i + 2) := by
  rw [Nat.card_congr (Equiv.subtypePiEquivPi (p := fun (i : Fin m) (v : Accepted i) =>
    v.1 % bound i = r i)), Nat.card_pi]
  refine Finset.prod_congr rfl fun i _ => ?_
  have hn := toNat_bound (i.isLt.trans hm)
  have hzero : bound i ≠ 0#32 := fun h => by
    rw [h] at hn
    simp at hn
  rw [Nat.card_congr (Equiv.subtypeSubtypeEquivSubtypeInter (fun v : BitVec 32 =>
    v < limit (bound i)) fun v => v % bound i = r i), card_accepted hzero (hr i i.isLt), hn]

/-- **A fair shuffle.** Every shuffle is an order of the deck, and every order of a deck of at most
256 cards comes from as many sequences of accepted outputs as any other. -/
theorem fair_shuffle : (∀ n < 2 ^ 32, ∀ draws, (shuffle n draws).Perm (deck n)) ∧
    ∀ m < 256, ∀ t : List UInt8, t.Perm (deck (m + 1)) →
      Nat.card {draws : (i : Fin m) → Accepted i // shuffle (m + 1) (numbered draws) = t} =
        ∏ i : Fin m, (limit (bound i)).toNat / (i + 2) := by
  refine ⟨fun n hn draws => shuffle_perm hn draws, fun m hm t ht => ?_⟩
  have hlen : (deck (m + 1)).length = m + 1 := by simp [deck]
  have hfew : m < (deck (m + 1)).length := by omega
  obtain ⟨c, hc, rfl⟩ := exists_arrange hfew ht (by
    rw [drop_of_length_le (ht.length_eq.trans hlen).le, drop_of_length_le hlen.le])
  have hnat (i : ℕ) (hi : i < m) : (BitVec.ofNat 32 (c (i + 1))).toNat = c (i + 1) := by
    have hle := hc i hi
    rw [BitVec.toNat_ofNat, Nat.mod_eq_of_lt (by omega)]
  rw [← card_choices hm (fun i => BitVec.ofNat 32 (c (i + 1))) fun i hi => by
    have hle := hc i hi
    rw [BitVec.lt_def, hnat i hi, toNat_bound (by omega)]
    omega]
  refine Nat.card_congr (Equiv.subtypeEquivRight fun draws => ?_)
  have hshuffle : shuffle (m + 1) (numbered draws) = _ := foldl_swap _ m _
  have hsame (i : Fin m) : (draws i).1 % bound i = BitVec.ofNat 32 (c (i + 1)) ↔
      (rngRange (numbered draws (i + 1)) ((i + 1 : ℕ).toUInt32 + 1)).toNat = c (i + 1) := by
    rw [place_eq hm, ← hnat i i.isLt, BitVec.toNat_inj, hnat i i.isLt]
  rw [hshuffle]
  refine ⟨fun h i => (hsame i).mpr ?_, fun h => arrange_congr fun i hi =>
    (hsame ⟨i, hi⟩).mp (h ⟨i, hi⟩)⟩
  exact arrange_inj hfew (nodup_deck hm) (fun i hi => Nat.le_of_lt_succ
    (draw_lt (numbered draws) (i + 1).lt_succ_self (by omega))) hc h i i.isLt

end C1auncher.Games.FairShuffle
