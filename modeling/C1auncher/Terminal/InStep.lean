import C1auncher.Terminal.Parser

/-!
The framer and the parser read the same control grammar.

While the framer collects a sequence, the parser would stand at the matching place of its own
machine after the bytes collected so far. A finished token therefore brings the parser back
to where it started, but for two bytes on which the two machines differ.
-/

namespace C1auncher.Terminal.InStep

open Terminal.Utf8 Terminal.Framer Terminal.Parser List OutputStream

variable (width : Char32 → ℤ)

/-! ### The framer, byte by byte -/

/-- A run of ASCII is framed as one token. -/
def plain (b : UInt8) : Bool := decide (b < 0x80) && b != 0x1b

/-- The framer after one byte. -/
def next (s : OutputStream) (c : UInt8) : OutputStream := (s.feed [c]).2

lemma feed_nil (s : OutputStream) : s.feed [] = ([], s) := by rw [feed]

lemma feed_cons (s : OutputStream) (c : UInt8) (rest : Bytes) :
    s.feed (c :: rest) = ((s.turn c rest).1 ++ ((s.turn c rest).2.1.feed (s.turn c rest).2.2).1,
      ((s.turn c rest).2.1.feed (s.turn c rest).2.2).2) := by
  rw [feed]

variable {s : OutputStream}

lemma turn_plain (hs : s.state = .ground) {c : UInt8} (hc : plain c = true)
    (rest : Bytes) :
    s.turn c rest = ([c :: rest.takeWhile plain], s, rest.dropWhile plain) := by
  have h : c < 0x80 ∧ c ≠ 0x1b := by simpa [plain] using hc
  simp only [turn, hs, ground, h.1, h.2, if_true, if_false]
  rfl

lemma feed_dropWhile (hs : s.state = .ground) (data : Bytes) :
    (s.feed (data.dropWhile plain)).2 = (s.feed data).2 := by
  cases data with
  | nil => rfl
  | cons b bs =>
    by_cases hb : plain b = true
    · rw [dropWhile_cons_of_pos hb, feed_cons s b, turn_plain hs hb]
    · rw [dropWhile_cons_of_neg hb]

lemma turn_single (s : OutputStream) (hs : s.state ≠ .ground) (c : UInt8) (rest : Bytes) :
    (s.turn c rest).2 = (s.reset, c :: rest) ∧ s.state = .utf8 ∧ (s.turn c []).2 = (s.reset, [c]) ∨
      (s.turn c rest).2 = ((s.turn c []).2.1, rest) ∧ (s.turn c []).2.2 = [] := by
  unfold turn
  split
  · contradiction
  · rename_i h
    unfold continueUtf8
    simp only
    split_ifs
    · exact .inl ⟨rfl, h, rfl⟩
    · exact .inr ⟨rfl, rfl⟩
    · exact .inr ⟨rfl, rfl⟩
  · exact .inr ⟨rfl, rfl⟩

lemma feed_ground (hs : s.state = .ground) (c : UInt8) (rest : Bytes) :
    (s.feed (c :: rest)).2 = ((next s c).feed rest).2 := by
  unfold next
  rw [feed_cons, feed_cons]
  by_cases hc : plain c = true
  · simp only [turn_plain hs hc, dropWhile_nil, feed_nil, feed_dropWhile hs]
  have h : ¬(c < 0x80 ∧ c ≠ 0x1b) := by simpa [plain] using hc
  simp only [turn, hs, ground]
  split_ifs <;> simp_all [feed_nil]

lemma feed_cons_next (s : OutputStream) (c : UInt8) (rest : Bytes) :
    (s.feed (c :: rest)).2 = ((next s c).feed rest).2 := by
  by_cases hs : s.state = .ground
  · exact feed_ground hs c rest
  rcases turn_single s hs c rest with ⟨h, -, hone⟩ | ⟨h, hone⟩
  · have hnext : next s c = next s.reset c := by
      rw [next, feed_cons, hone, next]
    rw [feed_cons, h, hnext]
    exact feed_ground rfl c rest
  · rw [feed_cons, h, next, feed_cons, hone, feed_nil]

/-! ### Bytes on which the machines differ -/

/-- The framer ends a sequence here and its token leaves the parser inside one: a byte beyond
ASCII right after `ESC`, or `BEL` right after an `ESC` inside an operating system command. A
sequence that is too long produces no token. -/
def Parts (s : OutputStream) (c : UInt8) : Prop :=
  s.dropped = false ∧ s.buffer.length < maxControlBytes ∧
    (s.state = .escape ∧ 0x80 ≤ c ∨ s.state = .stringEsc ∧ s.osc = true ∧ c = 0x07)

instance (s : OutputStream) (c : UInt8) : Decidable (Parts s c) := by
  unfold Parts
  infer_instance

/-- No byte of the data is one on which the machines differ, where the framer meets it. -/
def Agreed (s : OutputStream) (data : Bytes) : Prop :=
  ∀ read c unread, data = read ++ c :: unread → ¬Parts (s.feed read).2 c

lemma agreed_nil (s : OutputStream) : Agreed s [] := by
  intro read c unread h
  cases read <;> cases h

lemma agreed_cons (s : OutputStream) (c : UInt8) (rest : Bytes) :
    Agreed s (c :: rest) ↔ ¬Parts s c ∧ Agreed (next s c) rest := by
  constructor
  · intro h
    refine ⟨?_, ?_⟩
    · have := h [] c rest rfl
      rwa [feed_nil] at this
    intro read b unread hd
    have := h (c :: read) b unread (by rw [hd]; rfl)
    rwa [feed_cons_next] at this
  · rintro ⟨h0, h1⟩ read b unread hd
    cases read with
    | nil =>
      obtain ⟨rfl, -⟩ := cons.inj hd
      rwa [feed_nil]
    | cons a read =>
      obtain ⟨rfl, hrest⟩ := cons.inj hd
      rw [feed_cons_next]
      exact h1 read b unread hrest

lemma agreed_append (s : OutputStream) (a b : Bytes) :
    Agreed s (a ++ b) ↔ Agreed s a ∧ Agreed (s.feed a).2 b := by
  induction a generalizing s with
  | nil => simp [agreed_nil, feed_nil]
  | cons c a ih => simp only [cons_append, agreed_cons, ih, feed_cons_next, and_assoc]

lemma not_parts_ground (hs : s.state = .ground) (c : UInt8) : ¬Parts s c := by
  simp [Parts, hs]

lemma not_parts_utf8 (hs : s.state = .utf8) (c : UInt8) : ¬Parts s c := by
  simp [Parts, hs]

lemma agreed_dropWhile (hs : s.state = .ground) (data : Bytes) :
    Agreed s (data.dropWhile plain) ↔ Agreed s data := by
  induction data with
  | nil => rfl
  | cons b bs ih =>
    by_cases hb : plain b = true
    · have hnext : next s b = s := by
        rw [next, feed_cons, turn_plain hs hb]
        simp [feed_nil]
      rw [dropWhile_cons_of_pos hb, ih, agreed_cons, hnext]
      simp [not_parts_ground hs]
    · rw [dropWhile_cons_of_neg hb]

lemma agreed_turn (s : OutputStream) (c : UInt8) (rest : Bytes) :
    Agreed s (c :: rest) ↔ ¬Parts s c ∧ Agreed (s.turn c rest).2.1 (s.turn c rest).2.2 := by
  by_cases hs : s.state = .ground
  · by_cases hc : plain c = true
    · have h : Agreed s (rest.dropWhile plain) ↔ Agreed s (c :: rest) := by
        rw [← dropWhile_cons_of_pos hc, agreed_dropWhile hs]
      rw [turn_plain hs hc, h]
      simp [not_parts_ground hs]
    have h : ¬(c < 0x80 ∧ c ≠ 0x1b) := by simpa [plain] using hc
    rw [agreed_cons, next, feed_cons]
    simp only [turn, hs, ground]
    split_ifs <;> simp_all [feed_nil]
  · rcases turn_single s hs c rest with ⟨h, hutf8, hone⟩ | ⟨h, hone⟩
    · have hnext : next s c = next s.reset c := by rw [next, feed_cons, hone, next]
      rw [h, agreed_cons, agreed_cons s.reset, hnext]
      simp [not_parts_utf8 hutf8, not_parts_ground (s := s.reset) rfl]
    · rw [h, agreed_cons, next, feed_cons, hone, feed_nil]

/-! ### What the commands leave alone -/

section Handlers

variable (p : Parser)

@[simp] lemma nextRow_frame (row : ℤ) :
    (p.nextRow row).1.state = p.state ∧ (p.nextRow row).1.stream = p.stream := by
  unfold Parser.nextRow
  split_ifs <;> exact ⟨rfl, rfl⟩

@[simp] lemma moveCursor_frame (row col : ℤ) :
    (p.moveCursor row col).state = p.state ∧ (p.moveCursor row col).stream = p.stream :=
  ⟨rfl, rfl⟩

@[simp] lemma place_frame (ch : Char32) (row col : ℤ) :
    (p.place width ch row col).state = p.state ∧
      (p.place width ch row col).stream = p.stream := by
  unfold Parser.place
  simp only
  split_ifs <;> exact ⟨rfl, rfl⟩

@[simp] lemma emitChar_frame (ch : Char32) :
    (p.emitChar width ch).state = p.state ∧ (p.emitChar width ch).stream = p.stream := by
  unfold Parser.emitChar
  simp only
  split_ifs <;> simp

@[simp] lemma saveCursor_frame :
    p.saveCursor.state = p.state ∧ p.saveCursor.stream = p.stream := by
  unfold Parser.saveCursor
  simp only
  split_ifs <;> exact ⟨rfl, rfl⟩

@[simp] lemma restoreCursor_frame :
    p.restoreCursor.state = p.state ∧ p.restoreCursor.stream = p.stream :=
  ⟨rfl, rfl⟩

@[simp] lemma setPrivateMode_frame (mode : ℤ) (enabled : Bool) :
    (p.setPrivateMode mode enabled).state = p.state ∧
      (p.setPrivateMode mode enabled).stream = p.stream := by
  unfold Parser.setPrivateMode
  split_ifs <;> simp [Parser.enterAlternate, Parser.leaveAlternate]

@[simp] lemma onScreen_frame (f : Grid.Screen → Grid.Screen) :
    (p.onScreen f).state = p.state ∧ (p.onScreen f).stream = p.stream :=
  ⟨rfl, rfl⟩

@[simp] lemma setMargins_frame (top bottom : ℤ) :
    (p.setMargins top bottom).state = p.state ∧ (p.setMargins top bottom).stream = p.stream := by
  unfold Parser.setMargins
  split_ifs <;> exact ⟨rfl, rfl⟩

@[simp] lemma lineFeed_frame (col : ℤ) :
    (p.lineFeed col).state = p.state ∧ (p.lineFeed col).stream = p.stream := by
  unfold Parser.lineFeed
  simp

@[simp] lemma reverseIndex_frame :
    p.reverseIndex.state = p.state ∧ p.reverseIndex.stream = p.stream := by
  unfold Parser.reverseIndex
  simp only
  split_ifs <;> exact ⟨rfl, rfl⟩

@[simp] lemma csiCommand_frame (c : Char) (args : List ℤ) :
    (p.csiCommand c args).state = p.state ∧ (p.csiCommand c args).stream = p.stream := by
  unfold Parser.csiCommand
  simp only
  split <;> first | exact ⟨rfl, rfl⟩ | simp | (split_ifs <;> simp)

lemma setPrivateModes_frame (args : List ℤ) (enabled : Bool) :
    (args.foldl (fun p mode => p.setPrivateMode mode enabled) p).state = p.state ∧
      (args.foldl (fun p mode => p.setPrivateMode mode enabled) p).stream = p.stream := by
  induction args generalizing p with
  | nil => exact ⟨rfl, rfl⟩
  | cons mode args ih =>
    obtain ⟨h1, h2⟩ := ih (p.setPrivateMode mode enabled)
    exact ⟨h1.trans (by simp), h2.trans (by simp)⟩

@[simp] lemma csiPrivate_frame (c : Char) (args : List ℤ) :
    (p.csiPrivate c args).state = p.state ∧ (p.csiPrivate c args).stream = p.stream := by
  unfold Parser.csiPrivate
  split_ifs
  · exact setPrivateModes_frame p args _
  · exact ⟨rfl, rfl⟩

@[simp] lemma handleChar_stream (c : UInt8) : (p.handleChar width c).stream = p.stream := by
  unfold Parser.handleChar
  split
  · unfold Parser.handleNormal
    simp only
    split_ifs <;> simp
  · unfold Parser.handleEscape
    simp only
    split_ifs <;> simp [Parser.hardReset]
  · split_ifs <;> rfl
  · unfold Parser.handleCsi
    simp only
    split_ifs <;> simp
  · split_ifs <;> rfl
  · rfl

lemma consume_stream (token : Bytes) : (p.consume width token).stream = p.stream := by
  fun_induction Parser.consume width p token with
  | case1 p => rfl
  | case2 p byte rest hbyte ih => rw [ih, handleChar_stream]
  | case3 p byte rest hbyte hstate ih =>
    refine ih.trans ?_
    split_ifs <;> rfl
  | case4 p byte rest hbyte hstate ih =>
    rw [ih]
    exact (emitChar_frame width p _).2

end Handlers

/-! ### The parser, byte by byte -/

/-- The parser after one byte that it does not read as text. -/
def advance (p : Parser) (b : UInt8) : Parser :=
  if b < 0x80 then p.handleChar width b
  else if p.state = .oscEsc then { p with state := .osc }
  else p

lemma consume_cons (p : Parser) {b : UInt8} (h : b < 0x80 ∨ p.state ≠ .normal) (rest : Bytes) :
    p.consume width (b :: rest) = (advance width p b).consume width rest := by
  rw [Parser.consume, advance]
  split_ifs <;> simp_all

/-- Bytes that take the parser from `p` to `q`, whatever follows them. -/
def Takes (p : Parser) (bytes : Bytes) (q : Parser) : Prop :=
  ∀ rest, p.consume width (bytes ++ rest) = q.consume width rest

variable {width}

variable {q : Parser} {s : OutputStream} {c : UInt8}

lemma takes_snoc {p : Parser} {bytes : Bytes} (h : Takes width p bytes q) {b : UInt8}
    (hb : b < 0x80 ∨ q.state ≠ .normal) : Takes width p (bytes ++ [b]) (advance width q b) := by
  intro rest
  rw [append_assoc, h, singleton_append, consume_cons width q hb]

lemma Takes.consume {p : Parser} {bytes : Bytes} (h : Takes width p bytes q) :
    p.consume width bytes = q := by
  have := h []
  rwa [append_nil, Parser.consume] at this

lemma consume_text (p : Parser) (hp : p.state = .normal) (token : Bytes)
    (h : ∀ b ∈ token, b ≠ 0x1b) : (p.consume width token).state = .normal := by
  fun_induction Parser.consume width p token with
  | case1 p => exact hp
  | case2 p byte rest hbyte ih =>
    refine ih ?_ fun b hb => h b (mem_cons_of_mem _ hb)
    have hne : byte ≠ 0x1b := h byte mem_cons_self
    simp only [Parser.handleChar, hp, Parser.handleNormal, hne, if_false]
    split_ifs <;> simp [hp]
  | case3 p byte rest hbyte hstate ih => contradiction
  | case4 p byte rest hbyte hstate ih =>
    exact ih (by simp [hp]) fun b hb => h b (mem_cons_of_mem _ (mem_of_mem_drop hb))

/-! ### The places that match -/

def place : Framer.State → Parser.State
  | .ground => .normal
  | .escape => .escape
  | .escapeIntermediate => .escapeIntermediate
  | .csi => .csi
  | .string => .osc
  | .stringEsc => .oscEsc
  | .utf8 => .normal

structure Matches (s : OutputStream) (q : Parser) : Prop where
  state : q.state = place s.state
  bel : s.state = .string ∨ s.state = .stringEsc → q.oscBel = s.osc

variable (width) in
/-- What the framer has collected. -/
structure Awaits (s : OutputStream) : Prop where
  text : s.state = .utf8 → ∀ b ∈ s.buffer, b ≠ 0x1b
  control : s.state ≠ .ground → s.state ≠ .utf8 → s.dropped = false →
    ∀ p : Parser, p.state = .normal → ∃ q, Takes width p s.buffer q ∧ Matches s q

variable (width) in
def afterEach (p : Parser) : List Bytes → List Parser
  | [] => []
  | token :: tokens => p.consume width token :: afterEach (p.consume width token) tokens

variable (width) in
/-- Every one of the tokens leaves the parser between two sequences. -/
def Returns (p : Parser) (tokens : List Bytes) : Prop :=
  ∀ q ∈ afterEach width p tokens, q.state = .normal

@[simp] lemma returns_nil (p : Parser) : Returns width p [] := by simp [Returns, afterEach]

@[simp] lemma returns_cons (p : Parser) (token : Bytes) (tokens : List Bytes) :
    Returns width p (token :: tokens) ↔
      (p.consume width token).state = .normal ∧ Returns width (p.consume width token) tokens := by
  simp [Returns, afterEach]

lemma returns_append (p : Parser) (a b : List Bytes) :
    Returns width p (a ++ b) ↔
      Returns width p a ∧ Returns width (a.foldl (Parser.consume width) p) b := by
  induction a generalizing p with
  | nil => simp
  | cons token a ih => simp [ih, and_assoc]

lemma returns_normal {p : Parser} (hp : p.state = .normal) {tokens : List Bytes}
    (h : Returns width p tokens) : (tokens.foldl (Parser.consume width) p).state = .normal := by
  induction tokens generalizing p with
  | nil => exact hp
  | cons token tokens ih =>
    rw [returns_cons] at h
    exact ih h.1 h.2

/-! ### One byte of a control sequence -/

/-- Inside an escape or CSI sequence or a control string. -/
def Control (s : OutputStream) : Prop := s.state ≠ .ground ∧ s.state ≠ .utf8

/-- The sequence is not too long to be framed. -/
def Fits (s : OutputStream) : Prop := s.dropped = false ∧ s.buffer.length < maxControlBytes

lemma append_fits (h : Fits s) (c : UInt8) :
    s.append c = { s with buffer := s.buffer ++ [c] } := by
  have := h.2
  simp only [append, h.1, Bool.false_eq_true, if_false, not_le.mpr this]

lemma append_dropped (h : ¬Fits s) (c : UInt8) :
    (s.append c).dropped = true := by
  unfold append
  by_cases hd : s.dropped = true
  · simp [hd]
  · have : ¬s.buffer.length < maxControlBytes := fun hl => h ⟨by simpa using hd, hl⟩
    simp [hd, not_lt.mp this]

@[simp] lemma append_state (s : OutputStream) (c : UInt8) : (s.append c).state = s.state := by
  unfold append
  split_ifs <;> rfl

@[simp] lemma append_osc (s : OutputStream) (c : UInt8) : (s.append c).osc = s.osc := by
  unfold append
  split_ifs <;> rfl

lemma awaits_ground (h : s.state = .ground) : Awaits width s :=
  ⟨fun hu => by simp [h] at hu, fun hg => absurd h hg⟩

lemma awaits_escape (s : OutputStream) : Awaits width s.escape := by
  refine ⟨fun hu => by simp [escape] at hu, fun _ _ _ p hp => ?_⟩
  refine ⟨p.handleChar width 0x1b, ?_, ?_, ?_⟩
  · intro rest
    have := consume_cons width p (b := 0x1b) (.inl (by decide)) rest
    rwa [advance, if_pos (by decide)] at this
  · simp [Parser.handleChar, hp, Parser.handleNormal, place, escape]
  · intro h
    simp [escape] at h

lemma place_ne_normal (hs : Control s) : place s.state ≠ .normal := by
  obtain ⟨hg, hu⟩ := hs
  cases h : s.state <;> simp_all [place]

lemma Awaits.snoc (ha : Awaits width s) (hs : Control s) (hd : Fits s)
    (c : UInt8) {p : Parser} (hp : p.state = .normal) :
    ∃ q, Takes width p (s.append c).buffer (advance width q c) ∧ Matches s q := by
  obtain ⟨q, hq, hm⟩ := ha.control hs.1 hs.2 hd.1 p hp
  refine ⟨q, ?_, hm⟩
  rw [append_fits hd]
  exact takes_snoc hq (.inr (by rw [hm.state]; exact place_ne_normal hs))

lemma Awaits.append (ha : Awaits width s) (hs : Control s)
    (f : OutputStream → OutputStream)
    (hf : ∀ t, (f t).dropped = t.dropped ∧ (f t).buffer = t.buffer)
    (hu : (f (s.append c)).state ≠ .utf8)
    (h : ∀ q, Matches s q → Matches (f (s.append c)) (advance width q c)) :
    Awaits width (f (s.append c)) := by
  refine ⟨fun h => absurd h hu, fun _ _ hd p hp => ?_⟩
  have hfits : Fits s := by
    by_contra hn
    rw [(hf _).1, append_dropped hn c] at hd
    cases hd
  obtain ⟨q, hq, hm⟩ := ha.snoc hs hfits c hp
  refine ⟨advance width q c, ?_, h q hm⟩
  rw [(hf _).2]
  exact hq

lemma returns_dropped (h : ¬Fits s) (c : UInt8) (p : Parser) :
    Returns width p (s.append c).finish.1 := by
  simp [finish, append_dropped h c]

lemma Awaits.returns_finish (ha : Awaits width s) (hs : Control s)
    {p : Parser} (hp : p.state = .normal)
    (h : ∀ q, Matches s q → (advance width q c).state = .normal) :
    Returns width p (s.append c).finish.1 := by
  by_cases hfits : Fits s
  · obtain ⟨q, hq, hm⟩ := ha.snoc hs hfits c hp
    unfold finish
    split_ifs
    · simp
    · simpa [hq.consume] using h q hm
  · exact returns_dropped hfits c p

lemma Awaits.not_returns_finish (ha : Awaits width s) (hs : Control s)
    (hfits : Fits s) {p : Parser} (hp : p.state = .normal)
    (h : ∀ q, Matches s q → (advance width q c).state ≠ .normal) :
    ¬Returns width p (s.append c).finish.1 := by
  obtain ⟨q, hq, hm⟩ := ha.snoc hs hfits c hp
  have hd : (s.append c).dropped = false := by
    rw [append_fits hfits]
    exact hfits.1
  simpa [finish, hd, hq.consume] using h q hm

/-! ### The two machines, state by state -/

lemma advance_escape (hq : q.state = .escape) (hc : c < 0x80) :
    (advance width q c).state =
      if c = 0x5b then .csi
      else if c = 0x5d ∨ c = 0x50 ∨ c = 0x58 ∨ c = 0x5e ∨ c = 0x5f then .osc
      else if 0x20 ≤ c ∧ c ≤ 0x2f then .escapeIntermediate
      else .normal := by
  simp only [advance, hc, if_true, Parser.handleChar, hq, Parser.handleEscape]
  split_ifs <;> simp [Parser.hardReset]

lemma advance_escape_bel (hq : q.state = .escape)
    (hc : c = 0x5d ∨ c = 0x50 ∨ c = 0x58 ∨ c = 0x5e ∨ c = 0x5f) :
    (advance width q c).oscBel = (c == 0x5d) := by
  rcases hc with rfl | rfl | rfl | rfl | rfl <;>
    simp [advance, Parser.handleChar, hq, Parser.handleEscape]

lemma advance_nonAscii (hq : q.state ≠ .oscEsc) (hc : ¬c < 0x80) :
    advance width q c = q := by
  simp [advance, hc, hq]

lemma advance_intermediate (hq : q.state = .escapeIntermediate) (c : UInt8) :
    (advance width q c).state =
      if 0x30 ≤ c ∧ c ≤ 0x7e then .normal else .escapeIntermediate := by
  unfold advance
  split_ifs <;> simp_all [Parser.handleChar]
  all_goals grind

lemma handleCsi_state (hq : q.state = .csi) (c : UInt8) :
    (q.handleCsi c).state = if 0x40 ≤ c ∧ c ≤ 0x7e then .normal else .csi := by
  unfold Parser.handleCsi
  simp only
  split_ifs <;> simp_all
  all_goals grind

lemma advance_csi (hq : q.state = .csi) (c : UInt8) :
    (advance width q c).state = if 0x40 ≤ c ∧ c ≤ 0x7e then .normal else .csi := by
  by_cases hc : c < 0x80
  · simp only [advance, hc, if_true, Parser.handleChar, hq, handleCsi_state hq]
  · rw [advance_nonAscii (by simp [hq]) hc, if_neg (by grind), hq]

lemma advance_osc (hq : q.state = .osc) (c : UInt8) :
    (advance width q c).state =
      if q.oscBel ∧ c = 0x07 then .normal else if c = 0x1b then .oscEsc else .osc := by
  by_cases hc : c < 0x80
  · simp only [advance, hc, if_true, Parser.handleChar, hq]
    split_ifs <;> simp [hq]
  · rw [advance_nonAscii (by simp [hq]) hc, if_neg (by grind), if_neg (by grind), hq]

lemma advance_oscEsc (hq : q.state = .oscEsc) (c : UInt8) :
    (advance width q c).state =
      if c = 0x5c then .normal else if c = 0x1b then .oscEsc else .osc := by
  by_cases hc : c < 0x80
  · simp only [advance, hc, if_true, Parser.handleChar, hq]
  · simp only [advance, hc, hq, if_true, if_false]
    rw [if_neg (by grind), if_neg (by grind)]

lemma advance_bel (hq : q.state = .osc ∨ q.state = .oscEsc) (c : UInt8) :
    (advance width q c).oscBel = q.oscBel := by
  unfold advance Parser.handleChar
  rcases hq with hq | hq <;> simp only [hq] <;> split_ifs <;> rfl

/-! ### One turn -/

lemma not_parts (he : s.state = .escape → c < 0x80)
    (hb : s.state = .stringEsc → s.osc = true → c ≠ 0x07) : ¬Parts s c := by
  rintro ⟨-, -, ⟨hs, hc⟩ | ⟨hs, ho, hc⟩⟩
  · exact UInt8.not_lt.mpr hc (he hs)
  · exact hb hs ho hc

lemma string_step (ha : Awaits width s)
    (hs : s.state = .string ∨ s.state = .stringEsc) (c : UInt8) {p : Parser}
    (hp : p.state = .normal) :
    (Returns width p (s.continueString c).1 ↔ ¬Parts s c) ∧
      Awaits width (s.continueString c).2 := by
  have hcontrol : Control s := by rcases hs with h | h <;> simp [Control, h]
  have hescape : s.state ≠ .escape := by rcases hs with h | h <;> simp [h]
  unfold continueString
  simp only
  by_cases hdone : ((s.osc && c == 0x07) || (s.state == .stringEsc && c == 0x5c)) = true
  · rw [if_pos hdone]
    refine ⟨?_, awaits_ground rfl⟩
    by_cases hfits : Fits s
    · rcases hs with hs | hs
      · -- the bell ends a command
        have hc : s.osc = true ∧ c = 0x07 := by simpa [hs] using hdone
        refine iff_of_true (ha.returns_finish hcontrol hp fun q hm => ?_)
          (not_parts (fun h => absurd h hescape) fun h => by simp [hs] at h)
        have hq : q.state = .osc := by simpa [hs, place] using hm.state
        rw [advance_osc hq, if_pos ⟨hm.bel (.inl hs) ▸ hc.1, hc.2⟩]
      · by_cases hc : c = 0x5c
        · refine iff_of_true (ha.returns_finish hcontrol hp fun q hm => ?_)
            (not_parts (fun h => absurd h hescape) fun _ _ h => by simp [hc] at h)
          have hq : q.state = .oscEsc := by simpa [hs, place] using hm.state
          rw [advance_oscEsc hq, if_pos hc]
        -- the bell behind an escape: the parser reads on
        have hbell : s.osc = true ∧ c = 0x07 := by simpa [hs, hc] using hdone
        refine iff_of_false (ha.not_returns_finish hcontrol hfits hp fun q hm => ?_)
          (not_not.mpr ⟨hfits.1, hfits.2, .inr ⟨hs, hbell⟩⟩)
        have hq : q.state = .oscEsc := by simpa [hs, place] using hm.state
        rw [advance_oscEsc hq, if_neg hc, if_neg (by simp [hbell.2])]
        simp
    · exact iff_of_true (returns_dropped hfits c p) fun h => hfits ⟨h.1, h.2.1⟩
  · rw [if_neg hdone]
    have hdone' : ¬(s.osc = true ∧ c = 0x07) ∧ ¬(s.state = .stringEsc ∧ c = 0x5c) := by
      simpa [not_or] using hdone
    refine ⟨iff_of_true (returns_nil p) (not_parts (fun h => absurd h hescape)
      fun _ ho hc => hdone'.1 ⟨ho, hc⟩), ?_⟩
    refine ha.append hcontrol (fun t =>
      { t with state := if c = 0x1b then .stringEsc else .string })
      (fun t => ⟨rfl, rfl⟩) (by simp only; split_ifs <;> simp) fun q hm => ?_
    have hbel := hm.bel hs
    have hq : q.state = .osc ∨ q.state = .oscEsc := by
      rcases hs with h | h <;> simp [hm.state, h, place]
    refine ⟨?_, fun _ => ?_⟩
    · rcases hs with hs | hs
      · have hq : q.state = .osc := by simpa [hs, place] using hm.state
        rw [advance_osc hq, if_neg (by rw [hbel]; exact hdone'.1)]
        split_ifs <;> rfl
      have hq : q.state = .oscEsc := by simpa [hs, place] using hm.state
      rw [advance_oscEsc hq, if_neg fun h => hdone'.2 ⟨hs, h⟩]
      split_ifs <;> rfl
    · rw [advance_bel hq, hbel]
      simp

lemma escape_step (ha : Awaits width s) (hs : s.state = .escape) (c : UInt8)
    {p : Parser} (hp : p.state = .normal) :
    (Returns width p (s.startSequence c).1 ↔ ¬Parts s c) ∧
      Awaits width (s.startSequence c).2 := by
  have hcontrol : Control s := by simp [Control, hs]
  have hq : ∀ q : Parser, Matches s q → q.state = .escape := fun q hm => by
    simpa [hs, place] using hm.state
  have hparts : c < 0x80 → ¬Parts s c := fun h =>
    not_parts (fun _ => h) fun h => by simp [hs] at h
  unfold startSequence
  simp only
  by_cases hcsi : c = 0x5b
  · rw [if_pos hcsi]
    refine ⟨iff_of_true (returns_nil p) (hparts (by grind)), ?_⟩
    refine ha.append hcontrol (fun t => { t with state := .csi }) (fun t => ⟨rfl, rfl⟩) (by simp)
      fun q hm => ⟨?_, fun h => by simp at h⟩
    rw [advance_escape (hq q hm) (by grind), if_pos hcsi]
    rfl
  rw [if_neg hcsi]
  by_cases hstring : c = 0x5d ∨ c = 0x50 ∨ c = 0x58 ∨ c = 0x5e ∨ c = 0x5f
  · rw [if_pos hstring]
    refine ⟨iff_of_true (returns_nil p) (hparts (by grind)), ?_⟩
    refine ha.append hcontrol (fun t => { t with osc := c == 0x5d, state := .string })
      (fun t => ⟨rfl, rfl⟩) (by simp) fun q hm => ⟨?_, fun _ => ?_⟩
    · rw [advance_escape (hq q hm) (by grind), if_neg hcsi, if_pos hstring]
      rfl
    · exact advance_escape_bel (hq q hm) hstring
  rw [if_neg hstring]
  by_cases hinter : 0x20 ≤ c ∧ c ≤ 0x2f
  · rw [if_pos hinter]
    refine ⟨iff_of_true (returns_nil p) (hparts (by grind)), ?_⟩
    refine ha.append hcontrol (fun t => { t with state := .escapeIntermediate })
      (fun t => ⟨rfl, rfl⟩) (by simp) fun q hm => ⟨?_, fun h => by simp at h⟩
    rw [advance_escape (hq q hm) (by grind), if_neg hcsi, if_neg hstring, if_pos hinter]
    rfl
  rw [if_neg hinter]
  refine ⟨?_, awaits_ground rfl⟩
  by_cases hc : c < 0x80
  · refine iff_of_true (ha.returns_finish hcontrol hp fun q hm => ?_) (hparts hc)
    rw [advance_escape (hq q hm) hc, if_neg hcsi, if_neg hstring, if_neg hinter]
  by_cases hfits : Fits s
  · -- no byte of the grammar: the parser skips it and goes on waiting
    refine iff_of_false (ha.not_returns_finish hcontrol hfits hp fun q hm => ?_)
      (not_not.mpr ⟨hfits.1, hfits.2, .inl ⟨hs, UInt8.not_lt.mp hc⟩⟩)
    rw [advance_nonAscii (by simp [hq q hm]) hc, hq q hm]
    simp
  · exact iff_of_true (returns_dropped hfits c p) fun h => hfits ⟨h.1, h.2.1⟩

lemma sequence_step (ha : Awaits width s) (hcontrol : Control s)
    (he : s.state ≠ .escape) (hsx : s.state ≠ .stringEsc) (hst : s.state ≠ .string) (c : UInt8)
    {final : Prop} [Decidable final]
    (h : ∀ q : Parser, q.state = place s.state →
      (advance width q c).state = if final then .normal else place s.state)
    {p : Parser} (hp : p.state = .normal) :
    (Returns width p (if final then (s.append c).finish else ([], s.append c)).1 ↔ ¬Parts s c) ∧
      Awaits width (if final then (s.append c).finish else ([], s.append c)).2 := by
  have hparts : ¬Parts s c := not_parts (fun h => absurd h he) fun h => absurd h hsx
  by_cases hf : final
  · simp only [hf, if_true] at h ⊢
    exact ⟨iff_of_true (ha.returns_finish hcontrol hp fun q hm => h q hm.state) hparts,
      awaits_ground rfl⟩
  simp only [hf, if_false] at h ⊢
  refine ⟨iff_of_true (returns_nil p) hparts, ?_⟩
  refine ha.append hcontrol id (fun t => ⟨rfl, rfl⟩) ?_ fun q hm => ⟨?_, fun h => ?_⟩
  · simpa using hcontrol.2
  · simpa using h q hm.state
  · simp [hst, hsx] at h

lemma control_step (ha : Awaits width s) (hs : Control s) (c : UInt8)
    {p : Parser} (hp : p.state = .normal) :
    (Returns width p (s.continueControl c).1 ↔ ¬Parts s c) ∧
      Awaits width (s.continueControl c).2 := by
  unfold continueControl
  by_cases habort : c = 0x18 ∨ c = 0x1a
  · rw [if_pos habort]
    exact ⟨iff_of_true (returns_nil p) (not_parts (fun _ => by grind) fun _ _ => by grind),
      awaits_ground rfl⟩
  rw [if_neg habort]
  by_cases hstring : s.state = .string ∨ s.state = .stringEsc
  · rw [if_pos hstring]
    exact string_step ha hstring c hp
  rw [if_neg hstring]
  have hst : s.state ≠ .string := fun h => hstring (.inl h)
  have hsx : s.state ≠ .stringEsc := fun h => hstring (.inr h)
  have hparts : c < 0x80 → ¬Parts s c := fun h => not_parts (fun _ => h) fun h => absurd h hsx
  by_cases hesc : c = 0x1b
  · rw [if_pos hesc]
    exact ⟨iff_of_true (returns_nil p) (hparts (by grind)), awaits_escape s.reset⟩
  rw [if_neg hesc]
  by_cases hdel : c = 0x7f
  · rw [if_pos hdel]
    exact ⟨iff_of_true (returns_nil p) (hparts (by grind)), ha⟩
  rw [if_neg hdel]
  by_cases hc0 : c < 0x20
  · -- an embedded control comes out between two bytes of the sequence
    rw [if_pos hc0]
    refine ⟨iff_of_true ?_ (hparts (by grind)), ha⟩
    simpa using consume_text p hp [c] (by simpa using hesc)
  rw [if_neg hc0]
  cases h : s.state with
  | ground => exact absurd h hs.1
  | utf8 => exact absurd h hs.2
  | string => exact absurd h hst
  | stringEsc => exact absurd h hsx
  | escape => exact escape_step ha h c hp
  | escapeIntermediate =>
    refine sequence_step ha hs (by simp [h]) hsx hst c (fun q hq => ?_) hp
    rw [h] at hq ⊢
    exact advance_intermediate hq c
  | csi =>
    refine sequence_step ha hs (by simp [h]) hsx hst c (fun q hq => ?_) hp
    rw [h] at hq ⊢
    exact advance_csi hq c

lemma returns_replacement {p : Parser} (hp : p.state = .normal) :
    Returns width p [replacementBytes] := by
  rw [returns_cons]
  exact ⟨consume_text p hp _ (by simp [replacementBytes]), returns_nil _⟩

lemma ground_step (hs : s.state = .ground) (c : UInt8) (rest : Bytes)
    {p : Parser} (hp : p.state = .normal) :
    Returns width p (s.ground c rest).1 ∧ Awaits width (s.ground c rest).2.1 := by
  unfold ground
  by_cases hesc : c = 0x1b
  · rw [if_pos hesc]
    exact ⟨returns_nil p, awaits_escape s⟩
  rw [if_neg hesc]
  by_cases hascii : c < 0x80
  · rw [if_pos hascii]
    refine ⟨?_, awaits_ground hs⟩
    have hrun : ∀ b ∈ c :: rest.takeWhile plain, b ≠ 0x1b := by
      intro b hb
      rcases mem_cons.mp hb with rfl | hb
      · exact hesc
      have := mem_takeWhile_imp hb
      simp only [plain, Bool.and_eq_true, bne_iff_ne] at this
      exact this.2
    rw [returns_cons]
    exact ⟨consume_text p hp _ hrun, returns_nil _⟩
  rw [if_neg hascii]
  split
  · refine ⟨returns_nil p, fun _ b hb => ?_, fun _ h => absurd rfl h⟩
    rw [mem_singleton.mp hb]
    exact hesc
  · exact ⟨returns_replacement hp, awaits_ground hs⟩

lemma utf8_step (ha : Awaits width s) (hs : s.state = .utf8) (c : UInt8)
    (rest : Bytes) {p : Parser} (hp : p.state = .normal) :
    Returns width p (s.continueUtf8 c rest).1 ∧ Awaits width (s.continueUtf8 c rest).2.1 := by
  have htext : c ≠ 0x1b → ∀ b ∈ s.buffer ++ [c], b ≠ 0x1b := by
    intro hc b hb
    rcases List.mem_append.mp hb with hb | hb
    · exact ha.text hs b hb
    · rwa [mem_singleton.mp hb]
  unfold continueUtf8
  simp only
  split_ifs with hinvalid hfull
  · exact ⟨returns_replacement hp, awaits_ground rfl⟩
  all_goals
    have hc : c ≠ 0x1b := by
      rintro rfl
      revert hinvalid
      split <;> simp [isSecond, isTail]
  · refine ⟨?_, awaits_ground rfl⟩
    simp only [finish]
    split_ifs
    · exact returns_nil p
    · rw [returns_cons]
      exact ⟨consume_text p hp _ (htext hc), returns_nil _⟩
  · exact ⟨returns_nil p, fun _ => htext hc, fun _ h => absurd hs h⟩

lemma turn_step (ha : Awaits width s) (c : UInt8) (rest : Bytes) {p : Parser}
    (hp : p.state = .normal) :
    (Returns width p (s.turn c rest).1 ↔ ¬Parts s c) ∧ Awaits width (s.turn c rest).2.1 := by
  unfold turn
  split
  · rename_i hs
    obtain ⟨h, ha'⟩ : Returns width p (s.ground c rest).1 ∧ Awaits width (s.ground c rest).2.1 :=
      ground_step hs c rest hp
    exact ⟨iff_of_true h (not_parts_ground hs c), ha'⟩
  · rename_i hs
    obtain ⟨h, ha'⟩ := utf8_step ha hs c rest hp
    exact ⟨iff_of_true h (not_parts_utf8 hs c), ha'⟩
  · rename_i hg hu
    exact control_step ha ⟨hg, hu⟩ c hp

/-! ### Whole streams -/

lemma feed_step (s : OutputStream) (data : Bytes) (ha : Awaits width s) {p : Parser}
    (hp : p.state = .normal) :
    (Returns width p (s.feed data).1 ↔ Agreed s data) ∧ Awaits width (s.feed data).2 := by
  fun_induction feed s data generalizing p with
  | case1 s => simpa [agreed_nil] using ha
  | case2 s c rest tokens ih =>
    obtain ⟨hiff, ha'⟩ := turn_step ha c rest hp
    refine ⟨?_, (ih ha' hp).2⟩
    rw [returns_append, agreed_turn, hiff]
    refine and_congr_right fun hparts => ?_
    exact (ih ha' (returns_normal hp (hiff.mpr hparts))).1

variable (width) in
/-- The parser after each token of a stream that comes in portions. -/
def afterTokens (p : Parser) : List Bytes → List Parser
  | [] => []
  | data :: portions =>
    let (tokens, stream) := p.stream.feed data
    afterEach width { p with stream := stream } tokens ++ afterTokens (p.feed width data) portions

lemma feed_stream (p : Parser) (data : Bytes) :
    (p.feed width data).stream = (p.stream.feed data).2 := by
  have h : ∀ (tokens : List Bytes) (q : Parser),
      (tokens.foldl (Parser.consume width) q).stream = q.stream := by
    intro tokens
    induction tokens with
    | nil => exact fun _ => rfl
    | cons token tokens ih => exact fun q => (ih _).trans (consume_stream width q token)
  exact h _ _

lemma stream_step (portions : List Bytes) {p : Parser} (ha : Awaits width p.stream)
    (hp : p.state = .normal) :
    (∀ q ∈ afterTokens width p portions, q.state = .normal) ↔ Agreed p.stream portions.flatten := by
  induction portions generalizing p with
  | nil => simp [afterTokens, agreed_nil]
  | cons data portions ih =>
    let p' := { p with stream := (p.stream.feed data).2 }
    obtain ⟨hiff, ha'⟩ := feed_step p.stream data ha (p := p') hp
    have hnext : Agreed p.stream data → (p.feed width data).state = .normal := fun h =>
      returns_normal (p := p') hp (hiff.mpr h)
    rw [List.flatten_cons, agreed_append, ← hiff]
    simp only [afterTokens, mem_append, or_imp, forall_and]
    refine and_congr_right fun h => ?_
    have := ih (p := p.feed width data) (by rwa [feed_stream]) (hnext (hiff.mp h))
    rwa [feed_stream] at this

/-- **In step.** For every stream of the child in every split, each token leaves the parser in
its normal state if and only if the stream has no byte on which the two machines differ. -/
theorem parser_in_step (screen : Grid.Screen) (portions : List Bytes) :
    (∀ q ∈ afterTokens width (Parser.init screen) portions, q.state = .normal) ↔
      Agreed .init portions.flatten :=
  stream_step portions (awaits_ground rfl) rfl

/-- `ESC 0xe4` is a token, and `c` in the next one is read as the end of an escape sequence: it
resets the screen. -/
theorem parser_in_step_fails :
    let p := Parser.init (Grid.Screen.init 2 4)
    let ps := afterTokens (fun _ => 1) p [[0x1b, 0xe4], [0x63]]
    (p.stream.feed [0x1b, 0xe4]).1 = [[0x1b, 0xe4]] ∧ ps.map (·.state) = [.escape, .normal] ∧
      ¬∀ q ∈ ps, q.state = .normal := by
  decide +kernel

end C1auncher.Terminal.InStep
