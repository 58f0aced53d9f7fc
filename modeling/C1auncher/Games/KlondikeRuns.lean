import C1auncher.Games.Klondike
import C1auncher.Piles
import Mathlib.Tactic.FinCases

/-!
Whole games of klondike: every state is as it should be as long as no card is moved from a waste
that has been taken back into the stock since it was selected.
-/

namespace C1auncher.Games.Klondike

open Input Cards Piles List Function Option Klondike

inductive Place
  | stock | waste | found (f : Fin 4) | tab (c : Fin 7)
deriving DecidableEq

def places : List Place :=
  .stock :: .waste :: (List.finRange 4).map .found ++ (List.finRange 7).map .tab

instance : Fintype Place where
  elems := ⟨places, by decide⟩
  complete p := by
    rcases p with _ | _ | f | c
    · decide
    · decide
    · revert f
      decide
    · revert c
      decide

/-- The cards that lie in a place, the top card first. -/
def contents (s : State) : Place → List UInt8
  | .stock => s.deck
  | .waste => s.waste
  | .found f => s.found f
  | .tab c => s.tab c

def Src.place : Src → Place
  | .column c => .tab c
  | .waste => .waste

def Dst.place : Dst → Place
  | .column c => .tab c
  | .found f => .found f

/-! ### The rules -/

/-- A card above another one in a column: of the other colour, and one less. -/
def Descends (card below : UInt8) : Prop := color card ≠ color below ∧ rank card + 1 = rank below

/-- The first `n` cards of a suit, the largest first. -/
def suited (f : Fin 4) (n : ℕ) : List UInt8 :=
  ((List.range n).map fun r => (13 * f.val + r).toUInt8).reverse

/-- The open cards of a column. -/
def faceUp (s : State) (c : Fin 7) : List UInt8 := (s.tab c).take ((s.tab c).length - s.fd c)

def flips : ℕ → State → Option State
  | 0, s => some s
  | n + 1, s => (flip s).bind (flips n)

structure Holds (s : State) : Prop where
  cards : gathered (contents s) = deck 52
  piles : ∀ p, (contents s p).length ≤ 52
  founds : ∀ f, (s.found f).length ≤ 13 ∧ s.found f = suited f (s.found f).length
  faceDown : ∀ c, s.tab c ≠ [] → s.fd c < (s.tab c).length
  columns : ∀ c, (faceUp s c).IsChain Descends
  drawing : ∀ c, ∀ i ∈ drawn (s.tab c).length (s.fd c), 0 ≤ i ∧ i < (s.tab c).length
  turning : ∃ s', flips (s.deck.length + s.waste.length + 1) s = some s' ∧
    s'.deck = s.deck ∧ s'.waste = s.waste

/-- A key moves a card from the selected pile. -/
def Uses (s : State) (e : Event) (src : Src) : Prop :=
  s.isOver = false ∧ e.ev.isRepeat = false ∧ e.ev.key = .ok ∧ s.sel = some src ∧
    onSelected src s = false

/-- The move that a key asks for is accepted. -/
def Accepts (s : State) (e : Event) (src : Src) (dst : Dst) (card : UInt8) : Prop :=
  Uses s e src ∧ dstAtCursor s = some dst ∧ topCard src s = some card ∧
    canGive card (some dst) s = true

/-- A new game, or the same cards in the foundations and the columns and, with the waste below
the stock, in the same order. -/
def Rests (s s' : State) : Prop :=
  (s'.found = s.found ∧ s'.tab = s.tab ∧ s'.fd = s.fd ∧
    s'.waste.reverse ++ s'.deck = s.waste.reverse ++ s.deck) ∨ ∃ draws, s' = enter draws s

/-- What a key does. -/
structure Follows (s : State) (e : Event) (s' : State) : Prop where
  selected : ∀ src, Uses s e src → contents s src.place ≠ []
  moves : ∀ src dst card, Accepts s e src dst card →
    Transfer card src.place dst.place (contents s) (contents s') ∧
      ∀ c, dst = .column c → ∀ top ∈ (s.tab c).head?, top ∈ faceUp s c ∧ Descends card top
  others : (∀ src dst card, ¬ Accepts s e src dst card) → Rests s s'

/-- All states of a game are as they should be, no key reads below a pile or leaves an array. -/
def Plays : State → List Event → Prop
  | s, [] => Holds s
  | s, e :: events => Holds s ∧ ∃ s', onKey s e = some s' ∧ Follows s e s' ∧ Plays s' events

/-- No key of a game moves a card from a selected waste that has become empty. -/
def Meets : State → List Event → Prop
  | _, [] => True
  | s, e :: events => (Uses s e .waste → s.waste ≠ []) ∧ ∀ s' ∈ onKey s e, Meets s' events

/-! ### The invariant -/

/-- What holds of the foundations and the columns, also while a card is in hand. -/
structure Shaped (s : State) : Prop where
  founds : ∀ f, (s.found f).length ≤ 13 ∧ s.found f = suited f (s.found f).length
  faceDown : ∀ c, s.tab c = [] ∧ s.fd c = 0 ∨ s.fd c < (s.tab c).length
  columns : ∀ c, (faceUp s c).IsChain Descends

structure Kept (s : State) : Prop extends Shaped s where
  cards : gathered (contents s) = deck 52
  source : ∀ c, s.sel = some (.column c) → s.tab c ≠ []

variable {s : State}

lemma Kept.card (h : Kept s) : (gathered (contents s)).card = 52 := by
  rw [h.cards]
  rfl

lemma toUInt8_card (c : UInt8) : (13 * suit c + (rank c - 1)).toUInt8 = c := by
  rw [suit, rank, Nat.add_sub_cancel, Nat.div_add_mod, Nat.toUInt8_eq, UInt8.ofNat_toNat]

variable {card : UInt8} {src : Src} {c : Fin 7} {dst : Dst} {s' : State} {e : Event}

lemma suited_next {f : Fin 4} {n : ℕ} (hsuit : suit card = f.val)
    (hrank : rank card = n + 1) : suited f (n + 1) = card :: suited f n := by
  have hcard := toUInt8_card card
  rw [hsuit, hrank, Nat.add_sub_cancel] at hcard
  rw [suited, range_succ, map_append, reverse_append, map_singleton, hcard]
  rfl

/-! ### Flipping cards -/

/-- **A flip** moves a card to the waste, or turns the whole waste over. -/
lemma flip_spec (hroom : s.deck.length + s.waste.length ≤ 52) (hover : s.isOver = false) :
    ∃ moves, flip s = some (match s.deck with
      | card :: deck => { s with deck := deck, waste := card :: s.waste, moves := moves }
      | [] => { s with deck := s.waste.reverse, waste := [], moves := moves }) := by
  unfold flip
  rw [if_neg (by rw [hover]; decide)]
  rcases hdeck : s.deck with _ | ⟨card, deck⟩
  · simp only
    split_ifs with hempty hlength
    · refine ⟨s.moves, ?_⟩
      cases s
      simp_all
    · exact ⟨_, rfl⟩
    · omega
  · rw [hdeck, length_cons] at hroom
    simp only
    rw [push, if_pos (by omega)]
    exact ⟨_, rfl⟩

/-- Flipping does nothing but turn the cards from the stock to the waste and back. -/
def Flipped (s s' : State) : Prop :=
  s' = { s with deck := s'.deck, waste := s'.waste, moves := s'.moves } ∧
    s'.waste.reverse ++ s'.deck = s.waste.reverse ++ s.deck

lemma exists_flipped (hroom : s.deck.length + s.waste.length ≤ 52) :
    ∃ s', flip s = some s' ∧ Flipped s s' := by
  rcases hover : s.isOver
  · obtain ⟨moves, hflip⟩ := flip_spec hroom hover
    refine ⟨_, hflip, ?_⟩
    rcases hdeck : s.deck with _ | ⟨card, deck⟩
    · exact ⟨rfl, by simp [hdeck]⟩
    · exact ⟨rfl, by simp [hdeck]⟩
  · exact ⟨s, by rw [flip, if_pos hover], rfl, rfl⟩

lemma flips_add (m n : ℕ) (s : State) : flips (m + n) s = (flips m s).bind (flips n) := by
  induction m generalizing s with
  | zero => rw [Nat.zero_add]; rfl
  | succ m ih =>
    rw [Nat.succ_add, flips, flips, bind_assoc]
    exact congrArg _ (funext ih)

lemma flips_deck (cards : List UInt8) {deck : List UInt8} (hdeck : s.deck = cards ++ deck)
    (hroom : s.deck.length + s.waste.length ≤ 52) (hover : s.isOver = false) :
    ∃ s', flips cards.length s = some s' ∧ s'.deck = deck ∧ s'.waste = cards.reverse ++ s.waste ∧
      s'.isOver = false := by
  induction cards generalizing s with
  | nil => exact ⟨s, rfl, hdeck, rfl, hover⟩
  | cons card cards ih =>
    obtain ⟨moves, hflip⟩ := flip_spec hroom hover
    rw [hdeck] at hflip
    obtain ⟨s', hrest, hdeck', hwaste', hover'⟩ := ih
      (s := { s with deck := cards ++ deck, waste := card :: s.waste, moves := moves }) rfl
      (by rw [hdeck] at hroom; simp at hroom ⊢; omega) hover
    refine ⟨s', ?_, hdeck', ?_, hover'⟩
    · rw [length_cons, flips, hflip]
      exact hrest
    · rw [hwaste', reverse_cons, append_assoc]
      rfl

/-- **Turning the stock through** restores its order, and that of the waste. -/
theorem exists_turned (hroom : s.deck.length + s.waste.length ≤ 52) :
    ∃ s', flips (s.deck.length + s.waste.length + 1) s = some s' ∧
      s'.deck = s.deck ∧ s'.waste = s.waste := by
  rcases hover : s.isOver
  · obtain ⟨s₁, h₁, hdeck₁, hwaste₁, hover₁⟩ :=
      flips_deck s.deck (append_nil _).symm hroom hover
    have hroom₁ : s₁.deck.length + s₁.waste.length ≤ 52 := by
      rw [hdeck₁, hwaste₁]
      simpa using hroom
    obtain ⟨moves, hflip⟩ := flip_spec hroom₁ hover₁
    rw [hdeck₁] at hflip
    have hturned : s₁.waste.reverse = s.waste.reverse ++ s.deck := by
      rw [hwaste₁, reverse_append, reverse_reverse]
    obtain ⟨s₂, h₂, hdeck₂, hwaste₂, -⟩ := flips_deck
      (s := { s₁ with deck := s₁.waste.reverse, waste := [], moves := moves }) s.waste.reverse
      hturned (by simp [hwaste₁]; omega) hover₁
    refine ⟨s₂, ?_, hdeck₂, by rw [hwaste₂]; simp⟩
    rw [length_reverse] at h₂
    rw [show s.deck.length + s.waste.length + 1 = s.deck.length + (1 + s.waste.length) by omega,
      flips_add, h₁, bind_some, flips_add, flips, hflip]
    exact h₂
  · have hstay : ∀ n, flips n s = some s := by
      intro n
      induction n with
      | zero => rfl
      | succ n ih => rw [flips, flip, if_pos hover]; exact ih
    exact ⟨s, hstay _, rfl, rfl⟩

/-! ### A card in hand -/

lemma contents_takeFrom (src : Src) :
    contents (takeFrom src s) = Function.update (contents s) src.place (contents s src.place).tail := by
  funext p
  rcases src with c | _ <;> rcases p with _ | _ | f | c' <;>
    simp [contents, takeFrom, Src.place, update_apply]

lemma head?_topCard (src : Src) : topCard src s = (contents s src.place).head? := by
  rcases src <;> rfl

lemma Shaped.takeFrom (h : Shaped s) (htop : topCard src s = some card) :
    Shaped (takeFrom src s) := by
  rcases src with c | _
  swap
  · exact { h with }
  obtain ⟨rest, hcol⟩ : ∃ rest, s.tab c = card :: rest := List.head?_eq_some_iff.mp htop
  have hfd : s.fd c < rest.length + 1 := by
    rcases h.faceDown c with ⟨hempty, -⟩ | hlt
    · rw [hempty] at hcol
      exact absurd hcol.symm (cons_ne_nil _ _)
    · rwa [hcol] at hlt
  have hchain := h.columns c
  rw [faceUp, hcol, length_cons] at hchain
  have hother : ∀ c' ≠ c, (takeFrom (.column c) s).tab c' = s.tab c' ∧
      (takeFrom (.column c) s).fd c' = s.fd c' := by
    intro c' hne
    simp only [takeFrom]
    split_ifs <;> simp [hne]
  have hsame : (takeFrom (.column c) s).tab c = rest := by
    simp [takeFrom, hcol]
  -- a last open card turns up the one below it
  have hturned : (takeFrom (.column c) s).fd c =
      if 0 < s.fd c ∧ s.fd c = rest.length then s.fd c - 1 else s.fd c := by
    simp only [takeFrom, hcol, tail_cons]
    split_ifs <;> simp
  refine ⟨h.founds, fun c' => ?_, fun c' => ?_⟩ <;> rcases eq_or_ne c' c with rfl | hne
  · rw [hsame, hturned]
    split_ifs with hlast
    · exact .inr (by omega)
    rcases rest with _ | ⟨below, rest⟩
    · exact .inl ⟨rfl, by simpa using hfd⟩
    · simp only [length_cons] at hfd hlast ⊢
      exact .inr (by omega)
  · rw [(hother c' hne).1, (hother c' hne).2]
    exact h.faceDown c'
  · rw [faceUp, hsame, hturned]
    split_ifs with hlast
    · rw [show rest.length - (s.fd c' - 1) = 1 by omega]
      rcases rest with _ | ⟨below, rest⟩ <;> simp
    rw [show rest.length + 1 - s.fd c' = rest.length - s.fd c' + 1 by omega,
      take_succ_cons] at hchain
    exact hchain.tail
  · rw [faceUp, (hother c' hne).1, (hother c' hne).2]
    exact h.columns c'

lemma Shaped.descends (h : Shaped s) {top : UInt8} {rest : List UInt8}
    (hcol : s.tab c = top :: rest) : ∃ below, faceUp s c = top :: below := by
  rcases h.faceDown c with ⟨hempty, -⟩ | hlt
  · rw [hempty] at hcol
    exact absurd hcol.symm (cons_ne_nil _ _)
  rw [hcol, length_cons] at hlt
  refine ⟨rest.take (rest.length - s.fd c), ?_⟩
  rw [faceUp, hcol, length_cons,
    show rest.length + 1 - s.fd c = rest.length - s.fd c + 1 by omega, take_succ_cons]

lemma descends_of_canGive {top : UInt8}
    (hgive : canGive card (some (.column c)) s = true) (htop : top ∈ (s.tab c).head?) :
    Descends card top := by
  obtain ⟨rest, hcol⟩ : ∃ rest, s.tab c = top :: rest := List.head?_eq_some_iff.mp htop
  simp only [canGive, hcol, Bool.and_eq_true, bne_iff_ne, beq_iff_eq] at hgive
  exact hgive

/-- **A card put where it may go** keeps the foundations and the columns in order. -/
lemma Shaped.putOn (h : Shaped s)
    (hgive : canGive card (some dst) s = true) (hroom : ∀ c, dst = .column c → (s.tab c).length < 52) :
    ∃ s', putOn card dst s = some s' ∧ Shaped s' ∧
      contents s' = Function.update (contents s) dst.place (card :: contents s dst.place) := by
  rcases dst with c | f
  · rw [putOn, push, if_pos (hroom c rfl), map_some]
    refine ⟨_, rfl, ⟨h.founds, fun c' => ?_, fun c' => ?_⟩, ?_⟩
    · rcases eq_or_ne c' c with rfl | hne
      · simp only [update_self, length_cons]
        rcases h.faceDown c' with ⟨hempty, hzero⟩ | hlt
        · exact .inr (by omega)
        · exact .inr (by omega)
      · simpa only [update_of_ne hne] using h.faceDown c'
    · rcases eq_or_ne c' c with rfl | hne
      · have hchain := h.columns c'
        simp only [faceUp, update_self, length_cons] at hchain ⊢
        rcases hcol : s.tab c' with _ | ⟨top, rest⟩
        · exact IsChain.take (isChain_singleton card) _
        obtain ⟨below, hbelow⟩ := h.descends hcol
        have hdown := descends_of_canGive hgive (List.head?_eq_some_iff.mpr ⟨rest, hcol⟩)
        have hlt : s.fd c' ≤ (top :: rest).length := by
          rcases h.faceDown c' with ⟨hempty, -⟩ | hlt
          · exact absurd (hcol.symm.trans hempty) (cons_ne_nil _ _)
          · exact hcol ▸ hlt.le
        rw [faceUp, hcol] at hbelow
        rw [hcol, hbelow] at hchain
        rw [Nat.succ_sub hlt, take_succ_cons, hbelow]
        exact hchain.cons_cons hdown
      · have := h.columns c'
        simpa only [faceUp, update_of_ne hne] using this
    · funext p
      rcases p with _ | _ | f | c' <;> simp [contents, Dst.place, update_apply]
  · obtain ⟨hle, hsuited⟩ := h.founds f
    have hgive' : suit card = f.val ∧ rank card = (s.found f).length + 1 := by
      simp only [canGive] at hgive
      rcases hn : (s.found f).length with _ | n <;> simp [hn] at hgive <;> simpa using hgive
    have hlt : (s.found f).length < 13 := by
      have : rank card ≤ 13 := by
        unfold rank
        omega
      omega
    rw [putOn, push, if_pos hlt, map_some]
    refine ⟨_, rfl, ⟨fun f' => ?_, h.faceDown, h.columns⟩, ?_⟩
    · rcases eq_or_ne f' f with rfl | hne
      · simp only [update_self, length_cons]
        exact ⟨hlt, by rw [suited_next hgive'.1 hgive'.2, ← hsuited]⟩
      · simpa only [update_of_ne hne] using h.founds f'
    · funext p
      rcases p with _ | _ | f | c' <;> simp [contents, Dst.place, update_apply]

lemma srcPlace_ne_dstPlace (h : sameColumn src (some dst) = false) :
    src.place ≠ dst.place := by
  rcases src with c | _ <;> rcases dst with c' | f
  · rintro heq
    rw [Src.place, Dst.place, Place.tab.injEq] at heq
    simp [sameColumn, heq] at h
  all_goals exact Place.noConfusion

lemma canGive_takeFrom (hne : src.place ≠ dst.place) :
    canGive card (some dst) (takeFrom src s) = canGive card (some dst) s := by
  rcases src with c | _ <;> rcases dst with c' | f
  · have : c' ≠ c := fun heq => hne (congrArg Place.tab heq.symm)
    simp [canGive, takeFrom, update_of_ne this]
  all_goals rfl

/-- **A move that the code accepts is made by the rules.** -/
lemma Kept.move (h : Kept s)
    (hsame : sameColumn src (some dst) = false) (htop : topCard src s = some card)
    (hgive : canGive card (some dst) s = true) :
    ∃ s', move src (some dst) s = some (s', true) ∧ Shaped s' ∧
      Transfer card src.place dst.place (contents s) (contents s') := by
  have hne := srcPlace_ne_dstPlace hsame
  obtain ⟨rest, hrest⟩ := List.head?_eq_some_iff.mp ((head?_topCard src).symm.trans htop)
  have htaken := contents_takeFrom (s := s) src
  rw [hrest, tail_cons] at htaken
  have hroom : ∀ c, dst = .column c → ((takeFrom src s).tab c).length < 52 := by
    rintro c rfl
    have hle := length_add_le_gathered (contents s) hne
    have htab : (takeFrom src s).tab c = s.tab c :=
      (congrFun htaken (.tab c)).trans (update_of_ne hne.symm _ _)
    rw [hrest, h.card, length_cons] at hle
    rw [htab]
    exact Nat.lt_of_lt_of_le (Nat.lt_add_of_pos_left (Nat.succ_pos _)) hle
  obtain ⟨t, hput, hshaped, hcontents⟩ := (h.toShaped.takeFrom htop).putOn
    ((canGive_takeFrom hne).trans hgive) hroom
  refine ⟨settle t, ?_, { hshaped with }, hne, rest, hrest, ?_⟩
  · rw [Klondike.move, hsame, htop]
    simp only [Bool.false_eq_true, if_false, bind_some]
    rw [if_pos hgive, hput, map_some]
  · rw [htaken, update_of_ne hne.symm] at hcontents
    exact hcontents

lemma openShown_le (n : ℕ) : openShown n ≤ n := by
  induction n using openShown.induct with
  | case1 n hover ih =>
    rw [openShown, if_pos hover]
    omega
  | case2 n hover => rw [openShown, if_neg hover]
  | case3 n h => rw [openShown.eq_2 n h]

/-- **The drawing of a column reads cards of that column.** -/
lemma drawn_spec {n fd : ℕ} (h : fd < n) : ∀ i ∈ drawn n fd, 0 ≤ i ∧ i < n := by
  have hopen := openShown_le (n - fd)
  intro i hi
  rw [drawn, if_neg (by omega)] at hi
  simp only [mem_append, List.mem_map, mem_range] at hi
  rcases hi with ⟨j, hj, rfl⟩ | ⟨j, hj, rfl⟩
  · split_ifs at hj ⊢ <;> omega
  · omega

/-! ### The keys -/

lemma Kept.room (h : Kept s) : s.deck.length + s.waste.length ≤ 52 := by
  rw [← h.card]
  exact length_add_le_gathered (contents s) (i := .stock) (j := .waste) (by decide)

/-- Only the cursor, the selection and the wish to leave change. -/
def Quiet (s s' : State) : Prop :=
  s' = { s with cur := s'.cur, sel := s'.sel, exitRequest := s'.exitRequest }

lemma Kept.quiet (h : Kept s) (hquiet : Quiet s s')
    (hsel : ∀ c, s'.sel = some (.column c) → s.tab c ≠ []) : Kept s' := by
  rw [hquiet]
  exact ⟨{ h with }, h.cards, hsel⟩

lemma Flipped.gathered_eq (h : Flipped s s') :
    gathered (contents s') = gathered (contents s) := by
  obtain ⟨heq, horder⟩ := h
  have hcontents : contents s' =
      Function.update (Function.update (contents s) .stock s'.deck) .waste s'.waste := by
    funext p
    rw [heq]
    rcases p with _ | _ | f | c <;> simp [contents]
  have hstock := gathered_update (contents s) .stock s'.deck
  have hwaste := gathered_update (Function.update (contents s) .stock s'.deck) .waste s'.waste
  rw [← hcontents, update_of_ne (by decide), show contents s .waste = s.waste from rfl]
    at hwaste
  rw [show contents s .stock = s.deck from rfl] at hstock
  have hperm : (s'.waste : Multiset UInt8) + s'.deck = (s.waste : Multiset UInt8) + s.deck := by
    rw [Multiset.coe_add, Multiset.coe_add, Multiset.coe_eq_coe]
    exact ((reverse_perm _).symm.append_right _).trans
      (horder ▸ ((reverse_perm _).append_right _))
  rw [← add_left_inj ((s.waste : Multiset UInt8) + s.deck), ← add_assoc]
  calc gathered (contents s') + s.waste + s.deck
      = gathered (Function.update (contents s) .stock s'.deck) + s.deck + s'.waste := by
        rw [hwaste, add_right_comm]
    _ = gathered (contents s) + (s.waste + s.deck) := by
        rw [hstock, add_assoc, add_comm (s'.deck : Multiset UInt8), hperm]

lemma Kept.flipped (h : Kept s) (hflip : Flipped s s') : Kept s' := by
  have hcards := hflip.gathered_eq.trans h.cards
  rw [hflip.1] at hcards ⊢
  exact ⟨{ h with }, hcards, h.source⟩

lemma length_column (draws : ℕ → UInt32) (c : Fin 7) :
    ((dealColumns (shuffle 52 draws) [1, 2, 3, 4, 5, 6, 7]).getD c []).length = c + 1 := by
  have hlength : (shuffle 52 draws).length = 52 := by
    rw [(shuffle_perm (by omega) draws).length_eq]
    rfl
  fin_cases c <;> simp [dealColumns, hlength]

lemma gathered_contents (s : State) : gathered (contents s) =
    (s.deck : Multiset UInt8) + s.waste +
      (((List.finRange 4).map fun f => (s.found f : Multiset UInt8)).sum +
        ((List.finRange 7).map fun c => (s.tab c : Multiset UInt8)).sum) := by
  change (places.map fun p => (contents s p : Multiset UInt8)).sum = _
  rw [places, map_append, sum_append, map_cons, map_cons, List.map_map,
    List.map_map, sum_cons, sum_cons, add_assoc, add_assoc, add_assoc]
  rfl

lemma gathered_enter (draws : ℕ → UInt32) (s : State) :
    gathered (contents (enter draws s)) = deck 52 := by
  have hcols := sum_getD (dealColumns (shuffle 52 draws) [1, 2, 3, 4, 5, 6, 7])
    (length_dealColumns _ _)
  have hdeal : (((shuffle 52 draws).drop 28).reverse ++
      (dealColumns (shuffle 52 draws) [1, 2, 3, 4, 5, 6, 7]).flatten).Perm (deck 52) := by
    refine List.perm_iff_count.mpr fun a => ?_
    have hdealt := dealColumns_count (shuffle 52 draws) [1, 2, 3, 4, 5, 6, 7] a
    have hsum : [1, 2, 3, 4, 5, 6, 7].sum = 28 := rfl
    rw [hsum, (shuffle_perm (by omega) draws).count_eq] at hdealt
    rw [count_append, count_reverse, Nat.add_comm]
    exact hdealt
  have hempty : ((finRange 4).map fun _ => (([] : List UInt8) : Multiset UInt8)).sum = 0 := by
    simp
  have hdeck : (enter draws s).deck = ((shuffle 52 draws).drop 28).reverse := by
    simp only [enter, resetState, deal]
  have htab : (enter draws s).tab = fun c : Fin 7 =>
      (dealColumns (shuffle 52 draws) [1, 2, 3, 4, 5, 6, 7]).getD c [] := by
    simp only [enter, resetState, deal]
  rw [gathered_contents, ← Multiset.coe_eq_coe.mpr hdeal, ← Multiset.coe_add, ← hcols, hdeck, htab,
    show (enter draws s).waste = [] from rfl, show (enter draws s).found = fun _ => [] from rfl,
    hempty, Multiset.coe_nil, add_zero, zero_add]
  rfl

lemma kept_enter (draws : ℕ → UInt32) (s : State) : Kept (enter draws s) := by
  have hlength : ∀ c, ((enter draws s).tab c).length = c + 1 := length_column draws
  refine ⟨⟨fun f => ⟨Nat.zero_le _, rfl⟩, fun c => .inr ?_, fun c => ?_⟩, gathered_enter draws s,
    fun c h => by simp [enter, resetState] at h⟩
  · rw [hlength]
    exact Nat.lt_succ_self _
  · rw [faceUp, hlength, show c.val + 1 - (enter draws s).fd c = 1 from Nat.add_sub_cancel_left _ _]
    rcases (enter draws s).tab c with _ | ⟨card, rest⟩ <;> simp

lemma Kept.holds (h : Kept s) : Holds s where
  cards := h.cards
  piles p := by
    rw [← h.card]
    exact length_le_gathered (contents s) p
  founds := h.founds
  faceDown c hne := (h.faceDown c).resolve_left fun hempty => hne hempty.1
  columns := h.columns
  drawing c := by
    rcases h.faceDown c with ⟨hempty, -⟩ | hlt
    · rw [hempty]
      exact fun i hi => absurd hi not_mem_nil
    · exact drawn_spec hlt
  turning := exists_turned h.room

lemma onSelected_sameColumn (hsel : onSelected src s = false)
    (hdst : dstAtCursor s = some dst) : sameColumn src (some dst) = false := by
  rcases src with c | _
  · unfold dstAtCursor at hdst
    unfold onSelected at hsel
    rcases hcur : s.cur with i | c' <;> rw [hcur] at hdst hsel <;> simp only at hdst hsel
    · split_ifs at hdst
      rw [← some.inj hdst]
      rfl
    rw [← some.inj hdst]
    simp only [decide_eq_false_iff_not, Cursor.table.injEq] at hsel
    simpa [sameColumn, eq_comm] using hsel
  · rfl

lemma onKey_of_uses (h : Uses s e src) :
    onKey s e = (move src (dstAtCursor s) s).map fun moved =>
      if moved.2 then { moved.1 with sel := none }
      else
        { moved.1 with
          sel := match srcAtCursor moved.1 with
            | .pile src => some src
            | _ => none } := by
  obtain ⟨hover, hrep, hkey, hsel, hon⟩ := h
  have hcursor : cursorMove e.ev s = s := by
    simp [cursorMove, isLetter, hkey]
  rw [onKey, hrep, hover, hcursor, press, hkey]
  simp only [Bool.false_eq_true, if_false]
  rw [doOk, hsel]
  simp only
  rw [hon]
  rfl

lemma tab_of_srcAtCursor (h : srcAtCursor s = .pile (.column c)) : s.tab c ≠ [] := by
  unfold srcAtCursor at h
  split at h <;> split_ifs at h with hcol
  · exact absurd (Under.pile.inj h) Src.noConfusion
  · exact Src.column.inj (Under.pile.inj h) ▸ hcol.1

lemma rests_of_quiet (h : Quiet s s') : Rests s s' := by
  rw [h]
  exact .inl ⟨rfl, rfl, rfl, rfl⟩

lemma rests_of_flipped (h : Flipped s s') : Rests s s' := by
  refine .inl ⟨?_, ?_, ?_, h.2⟩ <;> rw [h.1]

/-- **OK that moves no card** selects a pile or gives the selection up, or flips a card. -/
lemma Kept.doOk (h : Kept s) (hon : ∀ src, s.sel = some src → onSelected src s = true) :
    ∃ s', doOk s = some s' ∧ Rests s s' ∧ Kept s' := by
  unfold Klondike.doOk
  rcases hsel : s.sel with _ | src
  · rcases hunder : srcAtCursor s with _ | _ | src <;> simp only
    · exact ⟨s, rfl, rests_of_quiet rfl, h⟩
    · obtain ⟨s', hflip, hs'⟩ := exists_flipped h.room
      exact ⟨s', hflip, rests_of_flipped hs', h.flipped hs'⟩
    refine ⟨_, rfl, rests_of_quiet rfl, h.quiet rfl fun c hc => ?_⟩
    rw [some.injEq] at hc
    exact tab_of_srcAtCursor (hc ▸ hunder)
  · simp only
    rw [if_pos (hon src hsel)]
    exact ⟨_, rfl, rests_of_quiet rfl, h.quiet rfl fun c hc => absurd hc (by simp)⟩

lemma cursorMove_eq (ev : KeyEvent) (s : State) :
    cursorMove ev s = { s with cur := (cursorMove ev s).cur } := by
  unfold cursorMove
  split_ifs <;> rfl

/-- **A key that moves no card** leaves the foundations and the columns, or starts a new game. -/
lemma Kept.rest (h : Kept s) (hno : ∀ src, ¬ Uses s e src) :
    ∃ s', onKey s e = some s' ∧ Rests s s' ∧ Kept s' := by
  have hmove := cursorMove_eq e.ev s
  have hquiet : Quiet s (cursorMove e.ev s) := by
    rw [hmove]
    rfl
  have hcursor : Kept (cursorMove e.ev s) := h.quiet hquiet fun c hc => by
    rw [hmove] at hc
    exact h.source c hc
  have hstill : e.ev.key ≠ .left → e.ev.key ≠ .right → e.ev.key ≠ .up → e.ev.key ≠ .down →
      e.ev.key ≠ .char → cursorMove e.ev s = s := by
    intro hl hr hu hd hc
    simp [cursorMove, isLetter, hl, hr, hu, hd, hc]
  unfold onKey
  split_ifs with hrep hover hagain hquit
  · exact ⟨_, rfl, rests_of_quiet hquiet, hcursor⟩
  · exact ⟨_, rfl, .inr ⟨_, rfl⟩, kept_enter _ _⟩
  · exact ⟨_, rfl, rests_of_quiet rfl, h.quiet rfl h.source⟩
  · exact ⟨s, rfl, rests_of_quiet rfl, h⟩
  rw [Bool.not_eq_true] at hrep hover
  unfold press
  rcases hkey : e.ev.key
  case ok =>
    rw [hstill] <;> try simp [hkey]
    refine h.doOk fun src hs => ?_
    by_contra hon
    exact hno src ⟨hover, hrep, hkey, hs, Bool.not_eq_true _ ▸ hon⟩
  case back =>
    rw [hstill] <;> try simp [hkey]
    obtain ⟨s', hflip, hs'⟩ := exists_flipped h.room
    exact ⟨s', hflip, rests_of_flipped hs', h.flipped hs'⟩
  case char =>
    refine ⟨_, rfl, ?_⟩
    split_ifs
    · rw [hmove]
      exact ⟨.inr ⟨_, rfl⟩, kept_enter _ _⟩
    · exact ⟨rests_of_quiet hquiet, hcursor⟩
  case pause =>
    rw [hstill] <;> try simp [hkey]
    unfold onPause
    rcases e.pause
    · exact ⟨rests_of_quiet rfl, h⟩
    · exact ⟨.inr ⟨_, rfl⟩, kept_enter _ _⟩
    · exact ⟨rests_of_quiet rfl, h.quiet rfl h.source⟩
  case quit =>
    rw [hstill] <;> try simp [hkey]
    exact ⟨rests_of_quiet rfl, h.quiet rfl h.source⟩
  all_goals exact ⟨_, rfl, rests_of_quiet hquiet, hcursor⟩

/-- **A key that finds a card on the selected pile** moves it by the rules, or no card. -/
theorem Kept.step (h : Kept s) (hspare : Uses s e .waste → s.waste ≠ []) :
    ∃ s', onKey s e = some s' ∧ Follows s e s' ∧ Kept s' := by
  by_cases huses : ∃ src, Uses s e src
  swap
  · have hno : ∀ src, ¬ Uses s e src := fun src hsrc => huses ⟨src, hsrc⟩
    obtain ⟨s', hkey, hrests, hkept⟩ := h.rest hno
    exact ⟨s', hkey, ⟨fun src hsrc => absurd hsrc (hno src),
      fun src _ _ hacc => absurd hacc.1 (hno src), fun _ => hrests⟩, hkept⟩
  obtain ⟨src, hsrc⟩ := huses
  have honly : ∀ src', Uses s e src' → src' = src := fun src' hsrc' =>
    some.inj (hsrc'.2.2.2.1.symm.trans hsrc.2.2.2.1)
  have hpile : contents s src.place ≠ [] := by
    rcases src with c | _
    · exact h.source c hsrc.2.2.2.1
    · exact hspare hsrc
  obtain ⟨card, rest, hrest⟩ := exists_cons_of_ne_nil hpile
  have htop : topCard src s = some card := by
    rw [head?_topCard, hrest]
    rfl
  -- a move that is refused selects what lies under the cursor
  have hrefused : (∀ dst, dstAtCursor s = some dst → canGive card (some dst) s = false) →
      ∃ s', onKey s e = some s' ∧ Follows s e s' ∧ Kept s' := by
    intro hno
    have hmove : Klondike.move src (dstAtCursor s) s = some (s, false) := by
      rw [Klondike.move, htop]
      rcases hdst : dstAtCursor s with _ | dst
      · simp [sameColumn]
      · rw [onSelected_sameColumn hsrc.2.2.2.2 hdst]
        simp [hno dst hdst]
    have hkey := onKey_of_uses hsrc
    rw [hmove, map_some] at hkey
    refine ⟨_, hkey, ⟨fun src' hsrc' => ?_, fun src' dst card' hacc => ?_,
      fun _ => rests_of_quiet rfl⟩, h.quiet rfl fun c hc => ?_⟩
    · exact honly src' hsrc' ▸ hpile
    · obtain ⟨hsrc', hdst, htop', hgive⟩ := hacc
      rw [honly src' hsrc', htop, some.injEq] at htop'
      rw [← htop', hno dst hdst] at hgive
      exact absurd hgive Bool.false_ne_true
    · rcases hunder : srcAtCursor s with _ | _ | src' <;> simp [hunder] at hc
      exact tab_of_srcAtCursor (hc ▸ hunder)
  by_cases hgive : ∃ dst, dstAtCursor s = some dst ∧ canGive card (some dst) s = true
  · obtain ⟨dst, hdst, hgive⟩ := hgive
    obtain ⟨t, hmove, hshaped, htransfer⟩ :=
      h.move (onSelected_sameColumn hsrc.2.2.2.2 hdst) htop hgive
    have hkey := onKey_of_uses hsrc
    rw [hdst, hmove, map_some] at hkey
    have hmine : Accepts s e src dst card := ⟨hsrc, hdst, htop, hgive⟩
    refine ⟨_, hkey, ⟨fun src' hsrc' => ?_, fun src' dst' card' hacc => ?_,
      fun hno => absurd hmine (hno src dst card)⟩, ⟨{ hshaped with }, htransfer.gathered_eq.trans
        h.cards, fun c hc => ?_⟩⟩
    · exact honly src' hsrc' ▸ hpile
    · obtain ⟨hsrc', hdst', htop', -⟩ := hacc
      obtain rfl := honly src' hsrc'
      obtain rfl : dst' = dst := some.inj (hdst'.symm.trans hdst)
      obtain rfl : card' = card := some.inj (htop'.symm.trans htop)
      refine ⟨htransfer, ?_⟩
      rintro c rfl top hhead
      obtain ⟨rest', hcol⟩ := List.head?_eq_some_iff.mp hhead
      obtain ⟨below, hup⟩ := h.toShaped.descends hcol
      exact ⟨hup ▸ mem_cons_self, descends_of_canGive hgive hhead⟩
    · simp at hc
  · exact hrefused fun dst hdst => Bool.not_eq_true _ ▸ fun hg => hgive ⟨dst, hdst, hg⟩

/-- **All states of a game of klondike are as they should be exactly when no key of the game moves
a card from a selected waste that has become empty.** -/
theorem klondike (draws : ℕ → UInt32) (events : List Event) :
    Plays (start draws) events ↔ Meets (start draws) events := by
  have hkept : Kept (start draws) := kept_enter _ _
  revert hkept
  generalize start draws = s
  intro h
  induction events generalizing s with
  | nil => exact iff_of_true h.holds trivial
  | cons e events ih =>
    constructor
    · rintro ⟨-, s', hkey, hfollows, hrest⟩
      have hspare : Uses s e .waste → s.waste ≠ [] := hfollows.selected .waste
      obtain ⟨t, ht, -, hkept⟩ := h.step hspare
      rw [hkey, some.injEq] at ht
      subst ht
      refine ⟨hspare, fun t ht => ?_⟩
      rw [hkey, mem_some_iff] at ht
      exact ht ▸ (ih s' hkept).mp hrest
    · rintro ⟨hspare, hrest⟩
      obtain ⟨s', hkey, hfollows, hkept⟩ := h.step hspare
      exact ⟨h.holds, s', hkey, hfollows, (ih s' hkept).mpr (hrest s' hkey)⟩

/-! ### A game that reads below the waste -/

def pressing (k : Key) : Event := ⟨⟨k, 0, false⟩, .resume, fun _ => 0⟩

/-- The whole stock is flipped, the waste is selected, and BACK turns it over again. -/
def turningOver : List Event :=
  (List.replicate 24 Key.back ++ [Key.up, .right, .ok, .back, .right]).map pressing

/-- A game in which the selected waste is empty when its card is moved. -/
theorem klondike_fails : ∃ s, run (start fun _ => 0) turningOver = some s ∧
    Uses s (pressing .ok) .waste ∧ s.waste = [] ∧ onKey s (pressing .ok) = none := by
  have hgame : (run (start fun _ => 0) turningOver).any fun s =>
      !s.isOver && s.sel == some .waste && !onSelected .waste s && s.waste.isEmpty := by
    decide +kernel
  obtain ⟨s, hrun, h⟩ := (Option.any_eq_true _ _).mp hgame
  simp only [Bool.and_eq_true, Bool.not_eq_true', beq_iff_eq, List.isEmpty_iff] at h
  obtain ⟨⟨⟨hover, hsel⟩, hon⟩, hwaste⟩ := h
  have huses : Uses s (pressing .ok) .waste := ⟨hover, rfl, rfl, hsel, hon⟩
  refine ⟨s, hrun, huses, hwaste, ?_⟩
  rw [onKey_of_uses huses, Klondike.move, topCard, hwaste]
  rfl

end C1auncher.Games.Klondike
