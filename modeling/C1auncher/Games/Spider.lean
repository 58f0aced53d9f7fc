import C1auncher.Games.Cards
import C1auncher.Piles

/-!
Spider solitaire with one suit: ten columns of cards, a stock dealt ten cards at a time, single
cards moved between columns, and complete runs of king to ace taken out of the game. An access
outside an array has no result.
-/

namespace C1auncher.Games.Spider

open Input Cards List Option

structure State where
  /-- The columns, each with its top card first. -/
  col : List (List UInt8)
  /-- The stock, the card dealt next first. -/
  stock : List UInt8
  cur : ℕ
  sel : Option ℕ
  moves : UInt32
  runs : UInt8
  deals : UInt8
  isOver : Bool
  stuck : Bool
  exitRequest : Bool
  /-- The cards taken out of the game, which the code does not keep. -/
  collected : List UInt8

/-- Ace is `1`, king `13`. -/
def rank (c : UInt8) : UInt8 := c % 13 + 1

def reset (draws : ℕ → UInt32) (s : State) : State :=
  let cards := shuffle 104 draws
  { s with
    col := dealColumns cards [6, 6, 6, 6, 5, 5, 5, 5, 5, 5]
    stock := (cards.drop 54).reverse
    cur := 0
    sel := none
    moves := 0
    runs := 0
    deals := 0
    isOver := false
    stuck := false
    collected := [] }

/-- A column ends with a complete run: ace to king, read from its top. -/
def endsRun (col : List UInt8) : Bool :=
  (col.take 13).map rank = [1, 2, 3, 4, 5, 6, 7, 8, 9, 10, 11, 12, 13]

/-- The complete runs at the end of a column are taken off: what is left of it, how many runs, and
their cards. -/
def collectColumn (col : List UInt8) : List UInt8 × ℕ × List UInt8 :=
  if 13 ≤ col.length ∧ endsRun col then
    let rest := collectColumn (col.drop 13)
    (rest.1, rest.2.1 + 1, col.take 13 ++ rest.2.2)
  else (col, 0, [])
termination_by col.length
decreasing_by rw [List.length_drop]; omega

def collectRuns (s : State) : State :=
  { s with
    col := s.col.map fun col => (collectColumn col).1
    runs := s.runs + ((s.col.map fun col => (collectColumn col).2.1).sum).toUInt8
    collected := (s.col.flatMap fun col => (collectColumn col).2.2) ++ s.collected }

def allEmpty (s : State) : Bool := s.col.all List.isEmpty

/-- A card goes onto an empty column, or onto a card that is larger by one. -/
def fits (card : UInt8) : List UInt8 → Bool
  | [] => true
  | top :: _ => rank card == rank top - 1

/-- Some card can be moved to another column. -/
def movable (s : State) : Bool :=
  (List.range 10).any fun src =>
    match s.col.getD src [] with
    | [] => false
    | card :: _ => (List.range 10).any fun dst => src != dst && fits card (s.col.getD dst [])

def checkStuck (s : State) : State :=
  if movable s then s else { s with isOver := true, stuck := true }

/-- After a move or a deal: runs are taken off, then the end of the game is looked for. -/
def settle (s : State) : State :=
  let s := collectRuns s
  if allEmpty s then { s with isOver := true, stuck := false }
  else if s.stock = [] then checkStuck s
  else s

def tryMove (src dst : ℕ) (s : State) : Option State :=
  if src = dst then some s
  else
    match s.col[src]?, s.col[dst]? with
    | some (card :: rest), some top =>
      if fits card top then
        (push 104 card top).map fun top =>
          settle { s with col := (s.col.set src rest).set dst top, moves := s.moves + 1 }
      else some s
    | some [], _ => some s
    | _, _ => none

/-- One card of the stock onto each column. -/
def dealTo : List (List UInt8) → List UInt8 → Option (List (List UInt8) × List UInt8)
  | [], stock => some ([], stock)
  | _ :: _, [] => none
  | col :: cols, card :: stock =>
    (push 104 card col).bind fun col =>
      (dealTo cols stock).map fun rest => (col :: rest.1, rest.2)

def deal (s : State) : Option State :=
  if s.isOver ∨ s.stock.length < 10 then some s
  else
    (dealTo s.col s.stock).map fun dealt =>
      settle { s with
        col := dealt.1
        stock := dealt.2
        deals := s.deals + 1
        moves := s.moves + 1 }

def doOk (s : State) : Option State :=
  match s.sel with
  | none =>
    (s.col[s.cur]?).map fun col => if col.isEmpty then s else { s with sel := some s.cur }
  | some sel =>
    if sel = s.cur then some { s with sel := none }
    else (tryMove sel s.cur s).map fun s => { s with sel := none }

def onPause (e : Event) (s : State) : State :=
  match e.pause with
  | .resume => s
  | .restart => reset e.draws s
  | .quit => { s with exitRequest := true }

def isLeft (ev : KeyEvent) : Bool := ev.key = .left ∨ ev.key = .char ∧ ev.ch = code 'a'

def isRight (ev : KeyEvent) : Bool := ev.key = .right ∨ ev.key = .char ∧ ev.ch = code 'd'

/-- A key pressed while the game goes on that does not move the cursor. -/
def press (e : Event) (s : State) : Option State :=
  match e.ev.key with
  | .ok => doOk s
  | .back => deal s
  | .char => some (if e.ev.ch = code 'n' then reset e.draws s else s)
  | .pause => some (onPause e s)
  | .quit => some { s with exitRequest := true }
  | _ => some s

def onKey (s : State) (e : Event) : Option State :=
  if s.isOver then
    if e.ev.isRepeat then some s
    else if e.ev.key = .ok ∨ e.ev.key = .char ∧ e.ev.ch = code 'n' then some (reset e.draws s)
    else if e.ev.key = .back ∨ e.ev.key = .quit then some { s with exitRequest := true }
    else some s
  else if isLeft e.ev ∧ 0 < s.cur then some { s with cur := s.cur - 1 }
  else if isRight e.ev ∧ s.cur < 10 - 1 then some { s with cur := s.cur + 1 }
  else if e.ev.isRepeat then some s
  else press e s

def run (s : State) (events : List Event) : Option State := events.foldlM onKey s

/-- A game just entered. -/
def start (draws : ℕ → UInt32) : State :=
  reset draws ⟨[], [], 0, none, 0, 0, 0, false, false, false, []⟩

/-- What the drawing of a finished game says. -/
def announced (s : State) : Option String :=
  if s.isOver then some (if s.stuck then "STUCK! NO MOVES" else "WIN! ALL CLEARED") else none

/-!
Whole games of spider: the cards are conserved, no array is left, and the end of the game is
announced when it has come.
-/

open Input Cards Piles

/-! ### Taking runs off -/

lemma endsRun_length {col : List UInt8} (h : endsRun col = true) : 13 ≤ col.length := by
  have := congrArg List.length (of_decide_eq_true h)
  simp at this
  omega

lemma collectColumn_spec (col : List UInt8) :
    (collectColumn col).2.2 ++ (collectColumn col).1 = col ∧
      (collectColumn col).2.2.length = 13 * (collectColumn col).2.1 ∧
      endsRun (collectColumn col).1 = false := by
  induction col using collectColumn.induct with
  | case1 col h ih =>
    obtain ⟨happend, hlength, hends⟩ := ih
    rw [collectColumn, if_pos h]
    refine ⟨by rw [append_assoc, happend, take_append_drop], ?_, hends⟩
    simp only [length_append, hlength, length_take]
    omega
  | case2 col h =>
    rw [collectColumn, if_neg h]
    refine ⟨rfl, rfl, ?_⟩
    by_contra hends
    rw [Bool.not_eq_false] at hends
    exact h ⟨endsRun_length hends, hends⟩

/-- How often a card lies on the columns, in the stock, and among the cards taken out. -/
def places (s : State) (a : UInt8) : ℕ :=
  s.col.flatten.count a + s.stock.count a + s.collected.count a

lemma collectRuns_places (s : State) (a : UInt8) : places (collectRuns s) a = places s a := by
  have hcols : ∀ cols : List (List UInt8),
      (cols.map fun col => (collectColumn col).1).flatten.count a +
        (cols.flatMap fun col => (collectColumn col).2.2).count a = cols.flatten.count a := by
    intro cols
    induction cols with
    | nil => rfl
    | cons col cols ih =>
      have hcol := congrArg (List.count a) (collectColumn_spec col).1
      rw [count_append] at hcol
      rw [map_cons, List.flatten_cons, flatMap_cons, List.flatten_cons,
        count_append, count_append, count_append]
      omega
  have := hcols s.col
  simp only [places, collectRuns, count_append]
  omega

lemma collectRuns_length (s : State) : (collectRuns s).collected.length =
    13 * (s.col.map fun col => (collectColumn col).2.1).sum + s.collected.length := by
  have hcols : ∀ cols : List (List UInt8),
      (cols.flatMap fun col => (collectColumn col).2.2).length =
        13 * (cols.map fun col => (collectColumn col).2.1).sum := by
    intro cols
    induction cols with
    | nil => rfl
    | cons col cols ih =>
      rw [flatMap_cons, length_append, ih, (collectColumn_spec col).2.1, map_cons, sum_cons]
      omega
  simp only [collectRuns, length_append, hcols]

/-! ### The invariant -/

variable {s : State}

/-- A single card can be moved from one column to another. -/
def Movable (s : State) : Prop :=
  ∃ src < 10, ∃ dst < 10, src ≠ dst ∧ ∃ card rest, s.col.getD src [] = card :: rest ∧
    fits card (s.col.getD dst []) = true

lemma movable_iff : movable s = true ↔ Movable s := by
  simp only [movable, Movable, List.any_eq_true, mem_range]
  refine exists_congr fun src => and_congr_right fun _ => ?_
  rcases hsrc : s.col.getD src [] with _ | ⟨card, rest⟩
  · simp
  simp only [List.any_eq_true, mem_range, Bool.and_eq_true, bne_iff_ne, cons.injEq]
  refine exists_congr fun dst => and_congr_right fun _ => and_congr_right fun _ => ?_
  exact ⟨fun h => ⟨card, rest, ⟨rfl, rfl⟩, h⟩, fun ⟨_, _, ⟨hcard, _⟩, h⟩ => hcard ▸ h⟩

lemma perm_of_places (h : ∀ a, places s a = (deck 104).count a) :
    (s.col.flatten ++ s.stock ++ s.collected).Perm (deck 104) :=
  List.perm_iff_count.mpr fun a => by
    rw [count_append, count_append]
    exact h a

/-- What every operation keeps, the end of the game aside. -/
structure Conserves (s : State) : Prop where
  ten : s.col.length = 10
  cards : ∀ a, places s a = (deck 104).count a
  runs : s.collected.length = 13 * s.runs.toNat
  stock : s.stock.length % 10 = 0 ∧ s.stock.length ≤ 50
  cur : s.cur < 10
  sel : ∀ c ∈ s.sel, c < 10

structure Kept (s : State) : Prop extends Conserves s where
  clean : ∀ col ∈ s.col, endsRun col = false
  ends : s.isOver = true ↔ allEmpty s = true ∨ s.stock = [] ∧ movable s = false
  stuckEnd : s.stuck = true ↔ s.stock = [] ∧ movable s = false ∧ allEmpty s = false

lemma Conserves.total (h : Conserves s) :
    s.col.flatten.length + s.stock.length + 13 * s.runs.toNat = 104 := by
  have := (perm_of_places h.cards).length_eq
  rw [length_append, length_append, h.runs] at this
  simpa [deck] using this

lemma allEmpty_iff : allEmpty s = true ↔ s.col.flatten.length = 0 := by
  rw [length_eq_zero_iff, flatten_eq_nil_iff]
  simp [allEmpty, List.isEmpty_iff]

/-- **Empty columns mean eight runs**: no other number of runs leaves a stock of whole deals. -/
lemma Conserves.allEmpty_iff (h : Conserves s) : allEmpty s = true ↔ s.runs = 8 := by
  have htotal := h.total
  have hstock := h.stock
  rw [Spider.allEmpty_iff, ← UInt8.toNat_inj]
  change _ ↔ s.runs.toNat = 8
  omega

lemma Conserves.collectRuns (h : Conserves s) :
    Conserves (collectRuns s) ∧ ∀ col ∈ (collectRuns s).col, endsRun col = false := by
  have hcards : ∀ a, places (Spider.collectRuns s) a = (deck 104).count a := fun a =>
    (collectRuns_places s a).trans (h.cards a)
  have hlength := collectRuns_length s
  have hbound :
      13 * (s.col.map fun col => (collectColumn col).2.1).sum + 13 * s.runs.toNat ≤ 104 := by
    have := (perm_of_places hcards).length_eq
    rw [length_append, length_append, hlength, h.runs] at this
    simp only [deck, length_map, length_range] at this
    omega
  refine ⟨⟨?_, hcards, ?_, h.stock, h.cur, h.sel⟩, fun col hcol => ?_⟩
  · exact (length_map _).trans h.ten
  · rw [hlength, h.runs]
    change _ = 13 * (s.runs + Nat.toUInt8 _).toNat
    rw [UInt8.toNat_add, Nat.toUInt8_eq, UInt8.toNat_ofNat',
      Nat.mod_eq_of_lt (b := 2 ^ 8) (by omega), Nat.mod_eq_of_lt (by omega)]
    omega
  · obtain ⟨col, -, rfl⟩ := List.mem_map.mp hcol
    exact (collectColumn_spec col).2.2

/-- **An operation on a running game that keeps the cards ends with its runs taken off and the end
of the game announced.** -/
theorem Conserves.settle (h : Conserves s) (hover : s.isOver = false) (hstuck : s.stuck = false) :
    Kept (settle s) := by
  obtain ⟨hkeeps, hclean⟩ := h.collectRuns
  have hover' : (Spider.collectRuns s).isOver = false := hover
  have hstuck' : (Spider.collectRuns s).stuck = false := hstuck
  unfold Spider.settle
  generalize Spider.collectRuns s = t at hkeeps hclean hover' hstuck'
  simp only
  split_ifs with hempty hstock
  · have ht : ∀ t' : State, t' = { t with isOver := true, stuck := false } →
        allEmpty t' = allEmpty t ∧ movable t' = movable t := by
      rintro _ rfl
      exact ⟨rfl, rfl⟩
    refine ⟨{ hkeeps with }, hclean,
      ?_, ?_⟩
    · exact iff_of_true rfl (.inl hempty)
    refine iff_of_false Bool.false_ne_true fun hno => ?_
    rw [(ht _ rfl).1, hempty] at hno
    exact Bool.false_ne_true hno.2.2.symm
  · rw [Bool.not_eq_true] at hempty
    unfold checkStuck
    split_ifs with hmove
    · refine ⟨hkeeps, hclean, ?_, ?_⟩
      · rw [hover', hempty, hmove]
        simp
      · rw [hstuck', hmove]
        simp
    · rw [Bool.not_eq_true] at hmove
      refine ⟨{ hkeeps with }, hclean,
        iff_of_true rfl (.inr ⟨hstock, hmove⟩), iff_of_true rfl ⟨hstock, hmove, hempty⟩⟩
  · rw [Bool.not_eq_true] at hempty
    refine ⟨hkeeps, hclean, ?_, ?_⟩
    · rw [hover', hempty]
      simp [hstock]
    · rw [hstuck']
      simp [hstock]

/-! ### The operations -/

lemma Kept.running (h : Kept s) (hover : s.isOver = false) : s.stuck = false := by
  by_contra hstuck
  rw [Bool.not_eq_false] at hstuck
  obtain ⟨hstock, hmove, -⟩ := h.stuckEnd.mp hstuck
  rw [h.ends.mpr (.inr ⟨hstock, hmove⟩)] at hover
  exact Bool.false_ne_true hover.symm

lemma kept_reset (draws : ℕ → UInt32) (s : State) : Kept (reset draws s) := by
  have hlen : (shuffle 104 draws).length = 104 := by
    rw [(shuffle_perm (by omega) draws).length_eq]
    simp [deck]
  have hcols : ∀ col ∈ (reset draws s).col, col.length = 6 ∨ col.length = 5 := by
    simp [reset, dealColumns, hlen]
  have hstock : (reset draws s).stock.length = 50 := by simp [reset, hlen]
  have hfull : allEmpty (reset draws s) = false := by
    simp [reset, allEmpty, dealColumns, ← length_eq_zero_iff, hlen]
  have hne : (reset draws s).stock ≠ [] := fun h => by simp [h] at hstock
  refine ⟨⟨rfl, fun a => ?_, rfl, by omega, by simp [reset], by simp [reset]⟩, fun col hcol => ?_,
    ?_, ?_⟩
  · have hdeal := dealColumns_count (shuffle 104 draws) [6, 6, 6, 6, 5, 5, 5, 5, 5, 5] a
    have hsum : [6, 6, 6, 6, 5, 5, 5, 5, 5, 5].sum = 54 := rfl
    rw [hsum, (shuffle_perm (by omega) draws).count_eq] at hdeal
    rw [← hdeal]
    unfold places reset
    simp only [count_reverse, count_nil, Nat.add_zero]
  · by_contra hends
    rw [Bool.not_eq_false] at hends
    have := endsRun_length hends
    have := hcols col hcol
    omega
  · rw [hfull]
    simp [hne]
    rfl
  · rw [hfull]
    simp [hne]
    rfl

lemma Conserves.two_columns (h : Conserves s) {src dst : ℕ} (hsrc : src < s.col.length)
    (hdst : dst < s.col.length) (hne : src ≠ dst) :
    s.col[src].length + s.col[dst].length ≤ 104 := by
  have hset := length_set s.col hsrc []
  have hmem : s.col[dst] ∈ s.col.set src [] := by
    have := getElem_mem (l := s.col.set src []) (n := dst) (by simpa using hdst)
    rwa [getElem_set_of_ne hne] at this
  have := length_le_flatten hmem
  have := h.total
  simp only [length_nil] at hset
  omega

/-- **A move is made, or leaves everything; no array is left.** -/
theorem Kept.tryMove (h : Kept s) (hover : s.isOver = false) {src dst : ℕ} (hsrc : src < 10)
    (hdst : dst < 10) : ∃ s', tryMove src dst s = some s' ∧ Kept s' := by
  have hsrc' : src < s.col.length := by rw [h.ten]; exact hsrc
  have hdst' : dst < s.col.length := by rw [h.ten]; exact hdst
  unfold Spider.tryMove
  split_ifs with heq
  · exact ⟨s, rfl, h⟩
  rw [getElem?_eq_getElem hsrc', getElem?_eq_getElem hdst']
  rcases hcol : s.col[src] with _ | ⟨card, rest⟩
  · exact ⟨s, rfl, h⟩
  simp only
  split_ifs with hfits
  · have htwo := h.two_columns hsrc' hdst' heq
    rw [hcol, length_cons] at htwo
    rw [push, if_pos (by omega), map_some]
    refine ⟨_, rfl, Conserves.settle { h with ten := ?_, cards := fun a => ?_ } hover
      (h.running hover)⟩
    · simp [h.ten]
    have hout := count_set s.col hsrc' rest a
    have hin := count_set (s.col.set src rest) (i := dst) (by simpa using hdst')
      (card :: s.col[dst]) a
    rw [getElem_set_of_ne heq] at hin
    rw [hcol] at hout
    have := h.cards a
    simp only [places, count_cons] at hout hin this ⊢
    omega
  · exact ⟨s, rfl, h⟩

lemma dealTo_spec (cols : List (List UInt8)) (stock : List UInt8)
    (hstock : cols.length ≤ stock.length) (hcols : ∀ col ∈ cols, col.length < 104) :
    ∃ cols' stock', dealTo cols stock = some (cols', stock') ∧ cols'.length = cols.length ∧
      stock'.length + cols.length = stock.length ∧
      ∀ a, cols'.flatten.count a + stock'.count a = cols.flatten.count a + stock.count a := by
  induction cols generalizing stock with
  | nil => exact ⟨[], stock, rfl, rfl, rfl, fun _ => rfl⟩
  | cons col cols ih =>
    rcases stock with _ | ⟨card, stock⟩
    · simp at hstock
    obtain ⟨cols', stock', hdeal, hlen, hstock', hcount⟩ := ih stock (by simpa using hstock)
      fun c hc => hcols c (mem_cons_of_mem _ hc)
    refine ⟨(card :: col) :: cols', stock', ?_, by simp [hlen], by simp; omega, fun a => ?_⟩
    · rw [dealTo, push, if_pos (hcols col mem_cons_self), bind_some, hdeal]
      rfl
    have := hcount a
    simp only [List.flatten_cons, count_append, count_cons] at this ⊢
    omega

/-- **A deal puts ten cards of the stock on the columns, or leaves everything.** -/
theorem Kept.deal (h : Kept s) : ∃ s', deal s = some s' ∧ Kept s' := by
  unfold Spider.deal
  split_ifs with hno
  · exact ⟨s, rfl, h⟩
  rw [not_or, Bool.not_eq_true, Nat.not_lt] at hno
  have htotal := h.total
  obtain ⟨cols', stock', hdeal, hlen, hstock', hcount⟩ := dealTo_spec s.col s.stock
    (by rw [h.ten]; exact hno.2) fun col hcol => by
      have := length_le_flatten hcol
      omega
  have hmod := h.stock
  rw [hdeal, map_some]
  rw [h.ten] at hlen hstock'
  refine ⟨_, rfl, Conserves.settle ⟨hlen, fun a => ?_, h.runs, ?_, h.cur, h.sel⟩ hno.1
    (h.running hno.1)⟩
  · have := hcount a
    have := h.cards a
    simp only [places] at this ⊢
    omega
  · change stock'.length % 10 = 0 ∧ stock'.length ≤ 50
    omega

lemma Kept.of_eq (h : Kept s) {s' : State}
    (hs : s' = { s with cur := s'.cur, sel := s'.sel, exitRequest := s'.exitRequest })
    (hcur : s'.cur < 10) (hsel : ∀ c ∈ s'.sel, c < 10) : Kept s' := by
  rw [hs]
  exact { h with toConserves := { h with cur := hcur, sel := hsel } }

lemma Kept.doOk (h : Kept s) (hover : s.isOver = false) : ∃ s', doOk s = some s' ∧ Kept s' := by
  unfold Spider.doOk
  rcases hsel : s.sel with _ | sel
  · simp only
    rw [getElem?_eq_getElem (by rw [h.ten]; exact h.cur), map_some]
    refine ⟨_, rfl, ?_⟩
    split_ifs
    · exact h
    · exact h.of_eq rfl h.cur fun c hc => some.inj hc ▸ h.cur
  · simp only
    split_ifs with heq
    · exact ⟨_, rfl, h.of_eq rfl h.cur (by simp)⟩
    obtain ⟨s', hmove, hs'⟩ := h.tryMove hover (h.sel sel hsel) h.cur
    refine ⟨{ s' with sel := none }, ?_, hs'.of_eq rfl hs'.cur (by simp)⟩
    rw [hmove, map_some]

lemma Kept.onPause (h : Kept s) (e : Event) : Kept (onPause e s) := by
  unfold Spider.onPause
  cases e.pause
  exacts [h, kept_reset _ _, h.of_eq rfl h.cur h.sel]

lemma Kept.press (h : Kept s) (hover : s.isOver = false) (e : Event) :
    ∃ s', press e s = some s' ∧ Kept s' := by
  unfold Spider.press
  rcases e.ev.key
  case ok => exact h.doOk hover
  case back => exact h.deal
  case char =>
    refine ⟨_, rfl, ?_⟩
    split_ifs
    exacts [kept_reset _ _, h]
  case pause => exact ⟨_, rfl, h.onPause e⟩
  case quit => exact ⟨_, rfl, h.of_eq rfl h.cur h.sel⟩
  all_goals exact ⟨s, rfl, h⟩

/-- **Every key keeps the cards and leaves no array.** -/
theorem Kept.onKey (h : Kept s) (e : Event) : ∃ s', onKey s e = some s' ∧ Kept s' := by
  have hcur := h.cur
  unfold Spider.onKey
  split_ifs with hover hrep hagain hquit hleft hright hrep
  · exact ⟨s, rfl, h⟩
  · exact ⟨_, rfl, kept_reset _ _⟩
  · exact ⟨_, rfl, h.of_eq rfl h.cur h.sel⟩
  · exact ⟨s, rfl, h⟩
  · exact ⟨_, rfl, h.of_eq rfl (by simp only; omega) h.sel⟩
  · exact ⟨_, rfl, h.of_eq rfl (by simp only; omega) h.sel⟩
  · exact ⟨s, rfl, h⟩
  · exact h.press (Bool.not_eq_true _ ▸ hover) e

lemma Kept.run (h : Kept s) (events : List Event) : ∃ s', run s events = some s' ∧ Kept s' := by
  induction events generalizing s with
  | nil => exact ⟨s, rfl, h⟩
  | cons e events ih =>
    obtain ⟨s₁, hkey, hs₁⟩ := h.onKey e
    obtain ⟨s', hrun, hs'⟩ := ih hs₁
    refine ⟨s', ?_, hs'⟩
    rw [Spider.run, foldlM_cons, hkey, bind_eq_bind, bind_some]
    exact hrun

structure Holds (s : State) : Prop where
  cards : (s.col.flatten ++ s.stock ++ s.collected).Perm (deck 104)
  total : (s.col.map List.length).sum + s.stock.length + 13 * s.runs.toNat = 104
  clean : ∀ col ∈ s.col, endsRun col = false
  win : announced s = some "WIN! ALL CLEARED" ↔ s.runs = 8
  stuckEnd : announced s = some "STUCK! NO MOVES" ↔
    s.stock = [] ∧ ¬ Movable s ∧ ∃ col ∈ s.col, col ≠ []

/-- **What a finished game says**: that it is stuck, or that it is won. -/
lemma announced_iff : (announced s = some "WIN! ALL CLEARED" ↔ s.isOver = true ∧ s.stuck = false) ∧
    (announced s = some "STUCK! NO MOVES" ↔ s.isOver = true ∧ s.stuck = true) := by
  unfold announced
  cases s.isOver <;> cases s.stuck <;> decide

lemma Kept.holds (h : Kept s) : Holds s := by
  have hcols : allEmpty s = false ↔ ∃ col ∈ s.col, col ≠ [] := by
    simp [allEmpty]
  have hover : s.stuck = true → s.isOver = true := fun hst =>
    h.ends.mpr (.inr ⟨(h.stuckEnd.mp hst).1, (h.stuckEnd.mp hst).2.1⟩)
  refine ⟨perm_of_places h.cards, ?_, h.clean, ?_, ?_⟩
  · rw [← length_flatten]
    exact h.total
  · rw [announced_iff.1, ← h.allEmpty_iff, ← Bool.not_eq_true s.stuck, h.stuckEnd, h.ends]
    constructor
    · rintro ⟨hempty | ⟨hstock, hmove⟩, hno⟩
      · exact hempty
      · by_contra hempty
        exact hno ⟨hstock, hmove, Bool.not_eq_true _ ▸ hempty⟩
    · exact fun hempty => ⟨.inl hempty, fun hno => by simp [hempty] at hno⟩
  · rw [announced_iff.2, and_iff_right_of_imp hover, h.stuckEnd, hcols, ← movable_iff,
      Bool.not_eq_true]

/-- **Every game of spider**, whatever the shuffles and the keys: no array is left, the cards are
conserved, no column ends with a complete run, and the end is announced when it has come. -/
theorem spider (draws : ℕ → UInt32) (events : List Event) :
    ∃ s, run (start draws) events = some s ∧ Holds s := by
  obtain ⟨s, hrun, h⟩ := (kept_reset draws _).run events
  exact ⟨s, hrun, h.holds⟩

/-! ### A game that is won -/

/-- The draws of a shuffle whose last deal leaves nothing but cards to be moved once. -/
def wonDraws (i : ℕ) : UInt32 :=
  [0, 0, 2, 2, 1, 1, 5, 1, 5, 5, 8, 10, 12, 6, 10, 9, 15, 15, 18, 11, 18, 21, 21, 20, 1, 2, 0, 14,
    13, 26, 27, 15, 32, 31, 25, 30, 23, 35, 32, 38, 31, 36, 41, 34, 44, 37, 45, 45, 43, 49, 50, 49,
    52, 47, 3, 16, 29, 42, 52, 53, 28, 41, 54, 56, 4, 17, 30, 43, 67, 65, 55, 59, 68, 69, 5, 18, 31,
    44, 66, 79, 56, 69, 72, 82, 6, 19, 32, 45, 70, 78, 57, 70, 83, 85, 59, 72, 85, 93, 93, 92, 58,
    71, 84, 97].getD i 0

def pressing (k : Key) : Event := ⟨⟨k, 0, false⟩, .resume, wonDraws⟩

/-- The cursor goes from one column to another. -/
def walk (i j : ℕ) : List Event :=
  List.replicate (j - i) (pressing .right) ++ List.replicate (i - j) (pressing .left)

/-- From the column of the cursor on, cards are moved one after another. -/
def carry : ℕ → List (ℕ × ℕ) → List Event
  | _, [] => []
  | cur, (src, dst) :: moves =>
    walk cur src ++ pressing .ok :: walk src dst ++ pressing .ok :: carry dst moves

def wonGame : List Event :=
  List.replicate 5 (pressing .back) ++ carry 0 [(4, 0), (4, 0), (4, 1), (4, 1), (4, 2), (4, 2),
    (4, 3), (4, 3), (4, 6), (4, 6), (5, 6), (5, 7), (5, 7), (5, 7), (5, 8), (5, 8), (5, 8), (5, 9),
    (5, 9), (5, 9)]

/-- At a won game the stock is empty and no card can be moved, and the game is not stuck. -/
theorem spider_won : ∃ s, run (start wonDraws) wonGame = some s ∧ s.stock = [] ∧ ¬ Movable s ∧
    announced s ≠ some "STUCK! NO MOVES" := by
  have hwon : ((run (start wonDraws) wonGame).any fun s =>
      s.stock.isEmpty && !movable s && s.isOver && !s.stuck) = true := by
    decide +kernel
  obtain ⟨s, hrun, h⟩ := (Option.any_eq_true _ _).mp hwon
  simp only [Bool.and_eq_true, Bool.not_eq_true', List.isEmpty_iff] at h
  obtain ⟨⟨⟨hstock, hmove⟩, -⟩, hstuck⟩ := h
  refine ⟨s, hrun, hstock, fun hm => ?_, fun hsays => ?_⟩
  · rw [← movable_iff, hmove] at hm
    exact Bool.false_ne_true hm
  · rw [(announced_iff.2.mp hsays).2] at hstuck
    exact Bool.false_ne_true hstuck.symm

end C1auncher.Games.Spider
