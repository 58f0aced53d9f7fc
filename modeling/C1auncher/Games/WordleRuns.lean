import C1auncher.Games.Wordle

/-!
Whole games of wordle: when a game is over and won, and which words the keys can type.
-/

namespace C1auncher.Games.Wordle

open Input List Function

def Hit (s : State) : Prop := ∃ i < s.row, word (s.g i) = word s.ans

/-- **The result and the colours are what the game asks.** -/
structure Right (s : State) : Prop where
  isOver : s.isOver = true ↔ Hit s ∨ s.row = 6
  won : s.won = true ↔ Hit s
  marks : ∀ i < s.row, Marks s.ans (s.g i) (s.col i)

/-- Every state of a game, from `s` on, has the right result. -/
def Plays (s : State) : List Event → Prop
  | [] => Right s
  | e :: events => Right s ∧ Plays (next s e) events

def Sixth (s : State) : Event → Prop
  | .tick => False
  | .key ev _ _ =>
    (ev.isRepeat = false ∧ ev.key = .ok) ∧ s.isOver = false ∧ s.row = 5 ∧ s.curLen = 5 ∧
      inWords s.cur 5 = true ∧ word s.cur = word s.ans

/-- No event of the game submits a sixth row that is the answer. -/
def Meets (s : State) : List Event → Prop
  | [] => True
  | e :: events => ¬ Sixth s e ∧ Meets (next s e) events

/-! ### The result -/

/-- The sixth row is the answer, and the game does not count it. -/
def Missed (s : State) : Prop := s.row = 6 ∧ word (s.g 5) = word s.ans

/-- **What holds in every state of a game.** -/
structure Kept (s : State) : Prop where
  row : s.row ≤ 6
  curLen : s.curLen ≤ 5
  isOver : s.isOver = true ↔ Hit s ∨ s.row = 6
  won : s.won = true ↔ Hit s ∧ ¬ Missed s
  first : ∀ i < s.row, word (s.g i) = word s.ans → i + 1 = s.row
  fresh : ∀ i, s.row ≤ i → s.col i = fun _ => 0
  marks : ∀ i < s.row, Marks s.ans (s.g i) (s.col i)

variable {s s' : State} {ch : UInt8}

lemma Kept.right_iff (h : Kept s) : Right s ↔ ¬ Missed s := by
  constructor
  · intro hr hm
    have hhit : Hit s := ⟨5, by have := hm.1; omega, hm.2⟩
    exact (h.won.mp (hr.won.mpr hhit)).2 hm
  · intro hm
    exact ⟨h.isOver, h.won.trans ⟨fun hw => hw.1, fun hh => ⟨hh, hm⟩⟩, h.marks⟩

lemma kept_enter (draw : UInt32) (s : State) : Kept (enter draw s) where
  row := Nat.zero_le _
  curLen := Nat.zero_le _
  isOver := by simp [enter, Hit]
  won := by simp [enter, Hit]
  first i hi := absurd hi (Nat.not_lt_zero i)
  fresh _ _ := rfl
  marks i hi := absurd hi (Nat.not_lt_zero i)

lemma not_missed_enter (draw : UInt32) (s : State) : ¬ Missed (enter draw s) :=
  fun h => absurd h.1 (by simp [enter])

/-- The fields that a key changes when it neither submits a row nor begins a game. -/
def Types (s s' : State) : Prop :=
  ∃ cur curLen msgTicks exitRequest,
    s' = { s with cur, curLen, msgTicks, exitRequest } ∧ curLen ≤ 5

lemma Kept.types (h : Kept s) (ht : Types s s') : Kept s' := by
  obtain ⟨cur, curLen, msgTicks, exitRequest, rfl, hlen⟩ := ht
  exact { h with curLen := hlen }

lemma missed_types (ht : Types s s') : Missed s' ↔ Missed s := by
  obtain ⟨cur, curLen, msgTicks, exitRequest, rfl, -⟩ := ht
  exact Iff.rfl

lemma Types.same (h : Kept s) (msgTicks : ℕ) (exitRequest : Bool) :
    Types s { s with msgTicks, exitRequest } := ⟨s.cur, s.curLen, msgTicks, exitRequest, rfl, h.curLen⟩

/-- A row that is accepted: kept and marked; the game ends with a hit, and after six rows. -/
structure Submits (s s' : State) : Prop where
  row : s'.row = s.row + 1
  curLen : s'.curLen = 0
  ans : s'.ans = s.ans
  g : s'.g = Function.update s.g s.row s.cur
  col : s'.col = Function.update s.col s.row (scoreRow s.ans s.cur (s.col s.row))
  isOver : s'.isOver = true ↔ word s.cur = word s.ans ∨ s.row = 5
  won : s'.won = true ↔ word s.cur = word s.ans ∧ s.row ≠ 5

def Accepts (s : State) : Prop := s.curLen = 5 ∧ inWords s.cur 5 = true

lemma submit_accepts (h : Kept s) (hover : s.isOver = false) (ha : Accepts s) :
    Submits s (submit s) := by
  have hrow : s.row ≤ 5 := by
    have := h.row
    have : s.row ≠ 6 := fun h6 => by
      have := h.isOver.mpr (Or.inr h6)
      rw [hover] at this
      exact absurd this Bool.false_ne_true
    omega
  have hwon : s.won = false := by
    by_contra hw
    have := h.isOver.mpr (Or.inl (h.won.mp (by simpa using hw)).1)
    rw [hover] at this
    exact absurd this Bool.false_ne_true
  have hwords : inWords s.cur s.curLen = true := by rw [ha.1]; exact ha.2
  rw [submit, if_neg (by rw [ha.1]; exact lt_irrefl 5), if_neg (by simp [hwords])]
  unfold submitted
  by_cases hhit : word s.cur = word s.ans <;> by_cases h5 : s.row = 5
  all_goals
    have hle : 6 ≤ s.row + 1 ↔ s.row = 5 := by omega
    constructor <;> simp [hhit, h5, hle, hover, hwon]

lemma submit_rejects (h : Kept s) (ha : ¬ Accepts s) : submit s = invalid s := by
  unfold submit
  by_cases hlen : s.curLen < 5
  · rw [if_pos hlen]
  have h5 : s.curLen = 5 := le_antisymm h.curLen (not_lt.mp hlen)
  have hwords : inWords s.cur s.curLen = false := by
    rw [h5]
    exact Bool.not_eq_true _ ▸ fun hw => ha ⟨h5, hw⟩
  rw [if_neg hlen, if_pos (by simp [hwords])]

lemma Submits.kept (hs : Submits s s') (h : Kept s) (hover : s.isOver = false) :
    Kept s' ∧ (Missed s' ↔ s.row = 5 ∧ word s.cur = word s.ans) := by
  have hnot : ¬ (Hit s ∨ s.row = 6) := fun ho => by
    rw [← h.isOver, hover] at ho
    exact absurd ho Bool.false_ne_true
  have hrow : s.row ≤ 5 := by
    have := h.row
    have : s.row ≠ 6 := fun h6 => hnot (Or.inr h6)
    omega
  have hlast : s'.g s.row = s.cur := by rw [hs.g, update_self]
  have hold : ∀ i, i ≠ s.row → s'.g i = s.g i := fun i hi => by rw [hs.g, update_of_ne hi]
  -- no row before this one is the answer
  have hhit : ∀ i < s'.row, word (s'.g i) = word s'.ans ↔ i = s.row ∧ word s.cur = word s.ans := by
    intro i hi
    rw [hs.row] at hi
    rw [hs.ans]
    rcases Nat.lt_or_eq_of_le (Nat.le_of_lt_succ hi) with hlt | rfl
    · rw [hold i hlt.ne]
      exact ⟨fun hw => absurd (Or.inl ⟨i, hlt, hw⟩) hnot, fun hi' => absurd hi'.1 hlt.ne⟩
    · rw [hlast]
      exact ⟨fun hw => ⟨rfl, hw⟩, fun hw => hw.2⟩
  have hiff : Hit s' ↔ word s.cur = word s.ans :=
    ⟨fun ⟨i, hi, hw⟩ => ((hhit i hi).mp hw).2,
      fun hw => ⟨s.row, by rw [hs.row]; omega, (hhit _ (by rw [hs.row]; omega)).mpr ⟨rfl, hw⟩⟩⟩
  have hmissed : Missed s' ↔ s.row = 5 ∧ word s.cur = word s.ans := by
    unfold Missed
    constructor
    · rintro ⟨h6, hw⟩
      have h5 := (hhit 5 (by omega)).mp hw
      exact ⟨h5.1.symm, h5.2⟩
    rintro ⟨h5, hw⟩
    have h6 : s'.row = 6 := by rw [hs.row, h5]
    exact ⟨h6, (hhit 5 (by omega)).mpr ⟨h5.symm, hw⟩⟩
  refine ⟨⟨by rw [hs.row]; omega, by rw [hs.curLen]; omega, ?_, ?_, ?_, ?_, ?_⟩, hmissed⟩
  · rw [hs.isOver, hiff, hs.row, show s.row + 1 = 6 ↔ s.row = 5 by omega]
  · rw [hs.won, hiff, hmissed]
    tauto
  · intro i hi hw
    rw [((hhit i hi).mp hw).1, hs.row]
  · intro i hi
    rw [hs.row] at hi
    rw [hs.col, update_of_ne (by omega), h.fresh i (by omega)]
  intro i hi
  rw [hs.row] at hi
  rw [hs.ans, hs.col]
  rcases Nat.lt_or_eq_of_le (Nat.le_of_lt_succ hi) with hlt | rfl
  · rw [hold i hlt.ne, update_of_ne hlt.ne]
    exact h.marks i hlt
  · rw [hlast, update_self, h.fresh _ le_rfl]
    exact marks_scoreRow s.ans s.cur

/-! ### The keys -/

/-- What an event may do: begin a game, change the row being typed, or submit it. -/
inductive Follows (s : State) (e : Event) (s' : State) : Prop
  | enter (draw : UInt32) (heq : s' = enter draw s) (hnot : ¬ Sixth s e)
  | types (ht : Types s s') (hnot : ¬ Sixth s e)
  | submits (hs : Submits s s') (hover : s.isOver = false)
      (hsixth : Sixth s e ↔ s.row = 5 ∧ word s.cur = word s.ans)

lemma not_sixth_of_key {ev : KeyEvent} {pause : PauseSel} {draw : UInt32}
    (h : ev.key ≠ .ok) : ¬ Sixth s (.key ev pause draw) := fun hs => h hs.1.2

lemma types_typed (h : Kept s) (ch : UInt8) : Types s (typed ch { s with msgTicks := 0 }) := by
  unfold typed
  split_ifs with hc
  · exact ⟨_, s.curLen + 1, 0, s.exitRequest, rfl, hc.2⟩
  · exact Types.same h 0 s.exitRequest

lemma types_deleted (h : Kept s) : Types s (deleted { s with msgTicks := 0 }) := by
  have := h.curLen
  unfold deleted
  split_ifs
  · exact ⟨_, s.curLen - 1, 0, s.exitRequest, rfl, by omega⟩
  · exact Types.same h 0 s.exitRequest

lemma follows_onPause {e : Event} (h : Kept s) (pause : PauseSel) (draw : UInt32)
    (hnot : ¬ Sixth s e) : Follows s e (onPause pause draw { s with msgTicks := 0 }) := by
  cases pause with
  | resume => exact .types (Types.same h 0 s.exitRequest) hnot
  | restart => exact .enter draw rfl hnot
  | quit => exact .types (Types.same h 0 true) hnot

lemma follows_submit (h : Kept s) {ev : KeyEvent} (pause : PauseSel) (draw : UInt32)
    (hkey : ev.key = .ok) (hrep : ev.isRepeat = false) (hover : s.isOver = false) :
    Follows s (.key ev pause draw) (submit { s with msgTicks := 0 }) := by
  have h0 : Kept { s with msgTicks := 0 } := h.types (Types.same h 0 s.exitRequest)
  by_cases ha : Accepts s
  · have hs := submit_accepts h0 hover ha
    refine .submits { hs with } hover ?_
    exact ⟨fun hx => ⟨hx.2.2.1, hx.2.2.2.2.2⟩,
      fun hx => ⟨⟨hrep, hkey⟩, hover, hx.1, ha.1, ha.2, hx.2⟩⟩
  · rw [submit_rejects h0 ha]
    exact .types (Types.same h 2 s.exitRequest) fun hx => ha ⟨hx.2.2.2.1, hx.2.2.2.2.1⟩

lemma Kept.press (h : Kept s) (ev : KeyEvent) (pause : PauseSel) (draw : UInt32)
    (hrep : ev.isRepeat = false ∨ ev.key = .del) (hover : s.isOver = false) :
    Follows s (.key ev pause draw) (Wordle.press ev pause draw s) := by
  unfold Wordle.press
  cases hkey : ev.key with
  | char => exact .types (types_typed h ev.ch) (not_sixth_of_key (by simp [hkey]))
  | del => exact .types (types_deleted h) (not_sixth_of_key (by simp [hkey]))
  | ok => exact follows_submit h pause draw hkey (hrep.resolve_right (by simp [hkey])) hover
  | pause => exact follows_onPause h pause draw (not_sixth_of_key (by simp [hkey]))
  | back => exact follows_onPause h pause draw (not_sixth_of_key (by simp [hkey]))
  | quit => exact .types (Types.same h 0 true) (not_sixth_of_key (by simp [hkey]))
  | _ => exact .types (Types.same h 0 s.exitRequest) (not_sixth_of_key (by simp [hkey]))

lemma Kept.follows (h : Kept s) (e : Event) : Follows s e (next s e) := by
  cases e with
  | tick => exact .types (Types.same h (s.msgTicks - 1) s.exitRequest) id
  | key ev pause draw =>
    have hsame : Types s s := Types.same h s.msgTicks s.exitRequest
    show Follows s _ (onKey ev pause draw s)
    unfold onKey
    split_ifs with hrep hover hagain hquit
    · refine .types hsame fun hx => ?_
      rw [hx.1.1] at hrep
      exact absurd hrep (by simp)
    · exact .enter draw rfl fun hx => absurd (hover.symm.trans hx.2.1) (by decide)
    · exact .types (Types.same h s.msgTicks true)
        fun hx => absurd (hover.symm.trans hx.2.1) (by decide)
    · exact .types hsame fun hx => absurd (hover.symm.trans hx.2.1) (by decide)
    refine h.press ev pause draw ?_ (by simpa using hover)
    by_contra hno
    rw [not_or] at hno
    exact hrep (by simpa using hno)

lemma Kept.next (h : Kept s) (hmiss : ¬ Missed s) (e : Event) :
    Kept (Wordle.next s e) ∧ (Missed (Wordle.next s e) ↔ Sixth s e) := by
  rcases h.follows e with ⟨draw, heq, hnot⟩ | ⟨ht, hnot⟩ | ⟨hs, hover, hsixth⟩
  · rw [heq]
    exact ⟨kept_enter draw s, iff_of_false (not_missed_enter draw s) hnot⟩
  · exact ⟨h.types ht, iff_of_false (fun hm => hmiss ((missed_types ht).mp hm)) hnot⟩
  · obtain ⟨hk, hm⟩ := hs.kept h hover
    exact ⟨hk, hm.trans hsixth.symm⟩

lemma plays_of_kept (h : Kept s) (hmiss : ¬ Missed s) (events : List Event) :
    Plays s events ↔ Meets s events := by
  induction events generalizing s with
  | nil => exact iff_of_true (h.right_iff.mpr hmiss) trivial
  | cons e events ih =>
    obtain ⟨hkept, hiff⟩ := h.next hmiss e
    rw [Plays, Meets, ← hiff]
    by_cases hm : Missed (Wordle.next s e)
    · -- the row just submitted is not counted, so the state after it is wrong
      refine iff_of_false (fun hp => ?_) fun hx => hx.1 hm
      have hright : Right (Wordle.next s e) := by
        cases events with
        | nil => exact hp.2
        | cons _ _ => exact hp.2.1
      exact hkept.right_iff.mp hright hm
    · rw [ih hkept hm]
      exact ⟨fun hp => ⟨hm, hp.2⟩, fun hp => ⟨h.right_iff.mpr hmiss, hp.2⟩⟩

/-! ### What can be typed -/

/-- The event is a key as the input layer delivers it, or a tick. -/
def Delivered : Event → Prop
  | .tick => True
  | .key ev _ _ => ∃ c, (ev.key, ev.ch) = mapKey c

/-- Keys that the input layer delivers bring the word into the row, in the same game. -/
def Typeable (s : State) (w : String) : Prop :=
  ∃ keys, (∀ e ∈ keys, Delivered e) ∧ (run s keys).isOver = false ∧ (run s keys).row = s.row ∧
    (run s keys).curLen = 5 ∧ word (run s keys).cur = letters w

/-- The letters typed so far. -/
def content (s : State) : List UInt8 := (List.range s.curLen).map s.cur

/-- The two letters that the input layer keeps for itself. -/
def Reserved (c : UInt8) : Prop := c = code 'p' ∨ c = code 'q'

lemma special_of_lt {c : ℕ} (h : 353 ≤ c) : special c = none := by
  unfold special
  split <;> first | omega | rfl

lemma not_reserved {c : ℕ} (h : (mapKey c).1 = .char) : ¬ Reserved (lower (mapKey c).2) := by
  have hsmall : ∀ c < 353, (mapKey c).1 = .char →
      lower (mapKey c).2 ≠ code 'p' ∧ lower (mapKey c).2 ≠ code 'q' := by decide +kernel
  rcases Nat.lt_or_ge c 353 with hlt | hge
  · exact not_or.mpr (hsmall c hlt h)
  refine absurd h ?_
  rw [mapKey, special_of_lt hge, if_neg (by omega), if_neg (by omega), if_neg (by omega),
    if_neg (by omega)]
  decide

lemma exists_key (hlow : code 'a' ≤ ch) (hhigh : ch ≤ code 'z') (h : ¬ Reserved ch) :
    ∃ c, mapKey c = (.char, ch) := by
  have hall : ∀ i < 26, code 'a' + UInt8.ofNat i ≠ code 'p' → code 'a' + UInt8.ofNat i ≠ code 'q' →
      ∃ c < 51, mapKey c = (.char, code 'a' + UInt8.ofNat i) := by decide +kernel
  have h1 : 97 ≤ ch.toNat := UInt8.le_iff_toNat_le.mp hlow
  have h2 : ch.toNat ≤ 122 := UInt8.le_iff_toNat_le.mp hhigh
  have heq : code 'a' + UInt8.ofNat (ch.toNat - 97) = ch := by
    refine UInt8.toNat_inj.mp ?_
    rw [UInt8.toNat_add, UInt8.toNat_ofNat']
    show (97 + (ch.toNat - 97) % 2 ^ 8) % 2 ^ 8 = ch.toNat
    omega
  rw [Reserved, not_or] at h
  obtain ⟨c, -, hc⟩ := hall (ch.toNat - 97) (by omega) (by rw [heq]; exact h.1) (by rw [heq]; exact h.2)
  exact ⟨c, by rw [hc, heq]⟩

lemma content_typed (hc : code 'a' ≤ lower ch ∧ lower ch ≤ code 'z')
    (hlen : s.curLen < 5) : content (typed ch s) = content s ++ [lower ch] := by
  rw [typed, if_pos ⟨hc, hlen⟩, content, range_succ, map_append, content]
  congr 1
  · refine map_congr_left fun i hi => ?_
    exact update_of_ne (mem_range.mp hi).ne _ _
  · simp

lemma content_deleted (s : State) : content (deleted s) = (content s).dropLast := by
  unfold deleted
  by_cases h : 0 < s.curLen
  · obtain ⟨n, hn⟩ : ∃ n, s.curLen = n + 1 := ⟨s.curLen - 1, by omega⟩
    rw [if_pos h]
    simp only [content, hn, Nat.add_sub_cancel, range_succ, map_append, map_cons,
      map_nil, dropLast_concat]
    refine map_congr_left fun i hi => ?_
    rw [update_of_ne (mem_range.mp hi).ne]
  · have h0 : s.curLen = 0 := by omega
    rw [if_neg h]
    simp [content, h0]

/-- No letter of the row is one of the two. -/
def Plain (s : State) : Prop := ∀ c ∈ content s, ¬ Reserved c

lemma plain_empty (h : s.curLen = 0) : Plain s := by simp [Plain, content, h]

lemma Plain.typed (h : Plain s) (hch : ¬ Reserved (lower ch)) :
    Plain (typed ch s) := by
  by_cases hc : (code 'a' ≤ lower ch ∧ lower ch ≤ code 'z') ∧ s.curLen < 5
  · rw [Plain, content_typed hc.1 hc.2]
    intro c hmem
    rcases mem_append.mp hmem with hold | hnew
    · exact h c hold
    · rw [mem_singleton.mp hnew]
      exact hch
  · rw [Wordle.typed, if_neg hc]
    exact h

lemma Plain.deleted (h : Plain s) : Plain (deleted s) := by
  rw [Plain, content_deleted]
  exact fun c hc => h c (mem_of_mem_dropLast hc)

lemma Plain.submit (h : Plain s) : Plain (submit s) := by
  unfold Wordle.submit
  split_ifs
  · exact h
  · exact h
  refine plain_empty ?_
  dsimp only
  split <;> rfl

lemma Plain.next (h : Plain s) {e : Event} (hd : Delivered e) : Plain (next s e) := by
  cases e with
  | tick => exact h
  | key ev pause draw =>
    obtain ⟨c, hc⟩ := hd
    have h0 : Plain { s with msgTicks := 0 } := h
    have hpause : Plain (onPause pause draw { s with msgTicks := 0 }) := by
      cases pause with
      | resume => exact h
      | restart => exact plain_empty rfl
      | quit => exact h
    show Plain (onKey ev pause draw s)
    unfold onKey
    split_ifs
    · exact h
    · exact plain_empty rfl
    · exact h
    · exact h
    unfold press
    cases hkey : ev.key with
    | char =>
      obtain ⟨hk, hch⟩ := Prod.mk.inj hc
      refine h0.typed ?_
      rw [hch]
      exact not_reserved (hk.symm.trans hkey)
    | del => exact h0.deleted
    | ok => exact h0.submit
    | pause => exact hpause
    | back => exact hpause
    | quit => exact h
    | _ => exact h

lemma Plain.run (h : Plain s) {events : List Event} (hd : ∀ e ∈ events, Delivered e) :
    Plain (run s events) := by
  induction events generalizing s with
  | nil => exact h
  | cons e events ih =>
    exact ih (h.next (hd e (by simp))) fun e he => hd e (mem_cons_of_mem _ he)

/-! ### Typing a word -/

def delKey : Event := .key ⟨.del, 0, false⟩ .resume 0

def letterKey (ch : UInt8) : Event := .key ⟨.char, ch, false⟩ .resume 0

/-- The row in a game that goes on, with `l` typed into it. -/
structure Typing (s s' : State) (l : List UInt8) : Prop where
  isOver : s'.isOver = false
  row : s'.row = s.row
  content : content s' = l

lemma length_content (s : State) : (content s).length = s.curLen := by simp [content]

lemma next_delKey (hover : s.isOver = false) :
    next s delKey = deleted { s with msgTicks := 0 } := by
  simp [next, delKey, onKey, press, hover]

lemma next_letterKey (hover : s.isOver = false) (ch : UInt8) :
    next s (letterKey ch) = typed ch { s with msgTicks := 0 } := by
  simp [next, letterKey, onKey, press, hover]

lemma isOver_deleted (s : State) : (deleted s).isOver = s.isOver ∧ (deleted s).row = s.row := by
  unfold deleted
  split <;> exact ⟨rfl, rfl⟩

lemma isOver_typed (ch : UInt8) (s : State) :
    (typed ch s).isOver = s.isOver ∧ (typed ch s).row = s.row := by
  unfold typed
  split <;> exact ⟨rfl, rfl⟩

lemma typing_deletes (hover : s.isOver = false) (n : ℕ) :
    Typing s (run s (List.replicate n delKey)) ((content s).take (s.curLen - n)) := by
  induction n generalizing s with
  | zero =>
    exact ⟨hover, rfl, by rw [Nat.sub_zero, ← length_content, take_length]; rfl⟩
  | succ n ih =>
    have hd := isOver_deleted { s with msgTicks := 0 }
    have hlen : (deleted { s with msgTicks := 0 }).curLen = s.curLen - 1 := by
      rw [← length_content, content_deleted, length_dropLast, length_content]
    have := ih (s := deleted { s with msgTicks := 0 }) (hd.1.trans hover)
    show Typing s (run (next s delKey) _) _
    rw [next_delKey hover]
    refine ⟨this.isOver, this.row.trans hd.2, this.content.trans ?_⟩
    rw [content_deleted, hlen, dropLast_eq_take, take_take]
    congr 1
    have : (content { s with msgTicks := 0 }).length = s.curLen := length_content _
    omega

def Small (c : UInt8) : Prop := code 'a' ≤ c ∧ c ≤ code 'z'

lemma lower_small {c : UInt8} (h : Small c) : lower c = c := by
  refine if_neg fun hc => ?_
  have h1 : code 'a' ≤ code 'Z' := UInt8.le_trans h.1 hc.2
  exact absurd h1 (by decide)

lemma typing_letters (hover : s.isOver = false) {l : List UInt8}
    (hl : ∀ c ∈ l, Small c) (hroom : s.curLen + l.length ≤ 5) :
    Typing s (run s (l.map letterKey)) (content s ++ l) := by
  induction l generalizing s with
  | nil => exact ⟨hover, rfl, by simp [run]⟩
  | cons c l ih =>
    have hc := hl c (by simp)
    have ht := isOver_typed c { s with msgTicks := 0 }
    have hlow := lower_small hc
    rw [length_cons] at hroom
    have hcontent : content (typed c { s with msgTicks := 0 }) = content s ++ [c] := by
      rw [content_typed (by rw [hlow]; exact hc) (by show s.curLen < 5; omega), hlow]
      rfl
    have hlen : (typed c { s with msgTicks := 0 }).curLen = s.curLen + 1 := by
      rw [← length_content, hcontent, length_append, length_content, length_singleton]
    have := ih (s := typed c { s with msgTicks := 0 }) (ht.1.trans hover)
      (fun d hd => hl d (mem_cons_of_mem _ hd)) (by omega)
    show Typing s (run (next s (letterKey c)) _) _
    rw [next_letterKey hover]
    refine ⟨this.isOver, this.row.trans ht.2, this.content.trans ?_⟩
    rw [hcontent, append_assoc, singleton_append]

lemma letters_spec {w : String} (hw : w ∈ words) :
    (letters w).length = 5 ∧ ∀ c ∈ letters w, Small c := by
  have hall : words.all (fun w => (letters w).length == 5 &&
      (letters w).all fun c => decide (code 'a' ≤ c) && decide (c ≤ code 'z')) = true := by
    decide +kernel
  simpa [Small] using all_eq_true.mp hall w hw

/-- The word has one of the two letters that the input layer keeps for itself. -/
def HasReserved (w : String) : Prop := ∃ c ∈ letters w, Reserved c

lemma word_of_content (h : s.curLen = 5) : word s.cur = content s := by
  rw [word, content, h]

lemma typeable_iff (h : Kept s) (hplain : Plain s) (hover : s.isOver = false)
    {w : String} (hw : w ∈ words) : Typeable s w ↔ ¬ HasReserved w := by
  obtain ⟨hlen, hsmall⟩ := letters_spec hw
  constructor
  · rintro ⟨keys, hkeys, -, -, h5, hword⟩ ⟨c, hc, hres⟩
    rw [word_of_content h5] at hword
    exact hplain.run hkeys c (hword ▸ hc) hres
  intro hno
  -- five deletions, then the letters
  refine ⟨replicate 5 delKey ++ (letters w).map letterKey, ?_, ?_⟩
  · intro e he
    rcases mem_append.mp he with hdel | hletter
    · rw [eq_of_mem_replicate hdel]
      exact ⟨111, rfl⟩
    obtain ⟨c, hc, rfl⟩ := mem_map.mp hletter
    have hs := hsmall c hc
    obtain ⟨k, hk⟩ := exists_key hs.1 hs.2 fun hres => hno ⟨c, hc, hres⟩
    exact ⟨k, hk.symm⟩
  · have hdel := typing_deletes hover 5
    have hempty : content (run s (replicate 5 delKey)) = [] := by
      rw [hdel.content, Nat.sub_eq_zero_of_le h.curLen, take_zero]
    have hzero : (run s (replicate 5 delKey)).curLen = 0 := by
      rw [← length_content, hempty, length_nil]
    have htype := typing_letters hdel.isOver hsmall (by rw [hzero, hlen])
    rw [hempty, nil_append] at htype
    have hrun : run s (replicate 5 delKey ++ (letters w).map letterKey) =
        run (run s (replicate 5 delKey)) ((letters w).map letterKey) := foldl_append
    have h5 : (run s (replicate 5 delKey ++ (letters w).map letterKey)).curLen = 5 := by
      rw [hrun, ← length_content, htype.content, hlen]
    refine ⟨by rw [hrun]; exact htype.isOver, by rw [hrun, htype.row, hdel.row], h5, ?_⟩
    rw [word_of_content h5, hrun, htype.content]

lemma kept_run (h : Kept s) (events : List Event) : Kept (run s events) := by
  induction events generalizing s with
  | nil => exact h
  | cons e events ih =>
    refine ih ?_
    rcases h.follows e with ⟨draw, heq, -⟩ | ⟨ht, -⟩ | ⟨hs, hover, -⟩
    · show Kept (next s e)
      rw [heq]
      exact kept_enter draw s
    · exact h.types ht
    · exact (hs.kept h hover).1

/-- **Wordle.** Every guess is marked as the game asks. The result is right in every state of a game
if and only if no sixth row submitted is the answer. In every state that delivered keys reach and
that is not over, a word of the list can be typed if and only if it has neither a `p` nor a `q`. -/
theorem wordle (memory : State) (draw : UInt32) (events : List Event) :
    (∀ ans guess : Row, (∀ i < 5, Small (ans i) ∧ Small (guess i)) →
      Marks ans guess (scoreRow ans guess fun _ => 0)) ∧
    (Plays (enter draw memory) events ↔ Meets (enter draw memory) events) ∧
    ((∀ e ∈ events, Delivered e) → (run (enter draw memory) events).isOver = false →
      ∀ w ∈ words, Typeable (run (enter draw memory) events) w ↔ ¬ HasReserved w) := by
  have h := kept_enter draw memory
  refine ⟨fun ans guess _ => marks_scoreRow ans guess,
    plays_of_kept h (not_missed_enter draw memory) events, fun hd hover w hw => ?_⟩
  exact typeable_iff (kept_run h events) ((plain_empty rfl).run hd) hover hw

lemma plays_last {events : List Event} (h : Plays s events) :
    Right (run s events) := by
  induction events generalizing s with
  | nil => exact h
  | cons e events ih => exact ih h.2

/-- Five wrong rows, then the answer. -/
def sixRows : List Event :=
  (["above", "above", "above", "above", "above", "about"].flatMap fun w : String =>
    (letters w).map letterKey ++ [.key ⟨.ok, 0, false⟩ .resume 0])

/-- A memory in which no game has been played. -/
def blank : State :=
  ⟨fun _ _ => 0, fun _ _ => 0, fun _ => 0, 0, 0, fun _ => 0, false, false, 0, false⟩

/-- **A sixth row that is the answer is not won**, and a word with a `p` cannot be typed. -/
theorem wordle_fails :
    ¬ Plays (enter 0 blank) sixRows ∧ ¬ Typeable (enter 0 blank) "apple" := by
  constructor
  · intro hplays
    have hright := plays_last hplays
    have hend : (run (enter 0 blank) sixRows).won = false ∧
        (run (enter 0 blank) sixRows).row = 6 ∧
        word ((run (enter 0 blank) sixRows).g 5) = word (run (enter 0 blank) sixRows).ans := by
      decide +kernel
    obtain ⟨hwon, hrow, hword⟩ := hend
    have := hright.won.mpr ⟨5, by omega, hword⟩
    rw [hwon] at this
    exact absurd this Bool.false_ne_true
  · rw [typeable_iff (kept_enter 0 blank) (plain_empty rfl) rfl (by decide +kernel)]
    exact not_not.mpr ⟨code 'p', by decide, Or.inl rfl⟩

end C1auncher.Games.Wordle
