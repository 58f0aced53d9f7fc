import C1auncher.Games.Input
import Mathlib.Data.List.GetD

/-!
A deck of cards numbered from zero, how the card games shuffle and deal it, and what they read.
-/

namespace C1auncher.Games.Cards

open Input List

def deck (n : ℕ) : List UInt8 := (List.range n).map Nat.toUInt8

/-- Two cards of a deck change places. -/
def swap (cards : List UInt8) (i j : ℕ) : List UInt8 :=
  (cards.set i (cards.getD j 0)).set j (cards.getD i 0)

/-- From the last place down to the second, each card changes places with one at or before it. -/
def shuffle (n : ℕ) (draws : ℕ → UInt32) : List UInt8 :=
  (List.range' 1 (n - 1)).reverse.foldl
    (fun cards i => swap cards i (rngRange (draws i) (i.toUInt32 + 1)).toNat) (deck n)

/-- Columns of given sizes are dealt one after another; each has its top card first. -/
def dealColumns (cards : List UInt8) : List ℕ → List (List UInt8)
  | [] => []
  | n :: ns => (cards.take n).reverse :: dealColumns (cards.drop n) ns

/-- A card put onto a pile whose array holds `size` cards. -/
def push (size : ℕ) (card : UInt8) (pile : List UInt8) : Option (List UInt8) :=
  if pile.length < size then some (card :: pile) else none

/-- A key, with what the pause overlay would answer and what the generator would draw. -/
structure Event where
  ev : KeyEvent
  pause : PauseSel
  draws : ℕ → UInt32

lemma swap_perm {cards : List UInt8} {i j : ℕ} (hi : i < cards.length) (hj : j < cards.length) :
    (swap cards i j).Perm cards := by
  rw [swap, getD_eq_getElem _ _ hi, getD_eq_getElem _ _ hj]
  exact set_set_perm hi hj

lemma draw_lt (draws : ℕ → UInt32) {i n : ℕ} (hi : i < n) (hn : n < 2 ^ 32) :
    (rngRange (draws i) (i.toUInt32 + 1)).toNat < n := by
  have hi32 : (i.toUInt32 + 1).toNat = (i + 1) % 2 ^ 32 := by
    rw [UInt32.toNat_add, Nat.toUInt32_eq, UInt32.toNat_ofNat']
    simp
  rw [Nat.mod_eq_of_lt (by omega)] at hi32
  have hpos : 0 < i.toUInt32 + 1 := by
    rw [UInt32.lt_iff_toNat_lt, hi32]
    exact Nat.succ_pos i
  have := UInt32.lt_iff_toNat_lt.mp (rngRange_lt (draws i) hpos)
  omega

lemma swaps_perm (draws : ℕ → UInt32) (is : List ℕ) (cards : List UInt8)
    (his : ∀ i ∈ is, i < cards.length) (hn : cards.length < 2 ^ 32) :
    (is.foldl (fun cards i => swap cards i (rngRange (draws i) (i.toUInt32 + 1)).toNat)
      cards).Perm cards := by
  induction is generalizing cards with
  | nil => exact .refl cards
  | cons i is ih =>
    have hi := his i mem_cons_self
    have hswap := swap_perm hi (draw_lt draws hi hn)
    have hlen := hswap.length_eq
    exact (ih _ (fun k hk => hlen ▸ his k (mem_cons_of_mem _ hk)) (hlen ▸ hn)).trans hswap

/-- **Shuffling loses no card and makes none.** -/
theorem shuffle_perm {n : ℕ} (hn : n < 2 ^ 32) (draws : ℕ → UInt32) :
    (shuffle n draws).Perm (deck n) := by
  have hlen : (deck n).length = n := by simp [deck]
  refine swaps_perm draws _ (deck n) (fun i hi => ?_) (by rw [hlen]; exact hn)
  rw [mem_reverse, mem_range'_1] at hi
  omega

lemma dealColumns_count (cards : List UInt8) (ns : List ℕ) (a : UInt8) :
    (dealColumns cards ns).flatten.count a + (cards.drop ns.sum).count a = cards.count a := by
  induction ns generalizing cards with
  | nil => simp [dealColumns]
  | cons n ns ih =>
    have hsplit := congrArg (List.count a) (take_append_drop n cards)
    have := ih (cards.drop n)
    rw [drop_drop] at this
    rw [count_append] at hsplit
    rw [dealColumns, List.flatten_cons, count_append, count_reverse, sum_cons]
    omega

lemma length_dealColumns (cards : List UInt8) (ns : List ℕ) :
    (dealColumns cards ns).length = ns.length := by
  induction ns generalizing cards with
  | nil => rfl
  | cons n ns ih => rw [dealColumns, length_cons, ih, length_cons]

end C1auncher.Games.Cards
