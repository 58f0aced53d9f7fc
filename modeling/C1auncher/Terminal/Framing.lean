import C1auncher.Terminal.InStep

/-!
What the framer makes of a stream: which tokens there are, and which bytes of the stream are in
them.

The bytes the framer has taken and not answered yet can always be read back off its state. They
begin a character, or they are an unfinished control.
-/

namespace C1auncher.Terminal.Framing

open Terminal.Utf8 Terminal.Utf8Form Terminal.Framer OutputStream
open C1auncher.Terminal.InStep (plain next feed_nil feed_cons feed_cons_next turn_plain turn_single)

/-! ### Controls -/

def intermediate (c : UInt8) : Prop := 0x20 ≤ c ∧ c ≤ 0x2f

/-- What opens a control string. -/
def introducer (c : UInt8) : Prop := c = 0x5d ∨ c = 0x50 ∨ c = 0x58 ∨ c = 0x5e ∨ c = 0x5f

/-- `CAN` and `SUB` -/
def aborts (c : UInt8) : Prop := c = 0x18 ∨ c = 0x1a

instance : DecidablePred intermediate := fun _ => inferInstanceAs (Decidable (_ ∧ _))

instance : DecidablePred introducer := fun _ => inferInstanceAs (Decidable (_ ∨ _))

instance : DecidablePred aborts := fun _ => inferInstanceAs (Decidable (_ ∨ _))

/-- What was kept behind `ESC` is a control string so far. -/
def inString : Bytes → Prop
  | [] => False
  | first :: _ => introducer first

/-- A string ends with `ESC \`, and an operating system command also with `BEL`. -/
def EndsString (first : UInt8) (content : Bytes) (c : UInt8) : Prop :=
  first = 0x5d ∧ c = 0x07 ∨ content.getLast? = some 0x1b ∧ c = 0x5c

/-- The byte that ends a control of which these bytes were kept behind `ESC`. -/
def Finishes : Bytes → UInt8 → Prop
  | [], c => 0x20 ≤ c ∧ c ≠ 0x7f ∧ c ≠ 0x5b ∧ ¬introducer c ∧ ¬intermediate c
  | first :: rest, c =>
    if first = 0x5b then 0x40 ≤ c ∧ c ≤ 0x7e
    else if introducer first then EndsString first rest c
    else 0x30 ≤ c ∧ c ≤ 0x7e

/-- An unfinished control: the bytes of the stream, the C0 controls among them, which are executed
at once, and the bytes that are kept behind `ESC`. -/
inductive Control : Bytes → Bytes → Bytes → Prop
  | start : Control [0x1b] [] []
  | executed {raw controls kept : Bytes} {c : UInt8} (h : Control raw controls kept)
      (hstring : ¬inString kept) (hc : c < 0x20) (habort : ¬aborts c) (hesc : c ≠ 0x1b) :
      Control (raw ++ [c]) (controls ++ [c]) kept
  | ignored {raw controls kept : Bytes} (h : Control raw controls kept)
      (hstring : ¬inString kept) : Control (raw ++ [0x7f]) controls kept
  | taken {raw controls kept : Bytes} {c : UInt8} (h : Control raw controls kept)
      (hc : inString kept ∨ 0x20 ≤ c ∧ c ≠ 0x7f) (habort : ¬aborts c)
      (hfinish : ¬Finishes kept c) : Control (raw ++ [c]) controls (kept ++ [c])

def emitted (kept : Bytes) : Bytes := if kept.length < maxControlBytes then 0x1b :: kept else []

/-- How a stream becomes output, and which bytes at its end are not answered yet. -/
inductive Framed : Bytes → Bytes → Bytes → Prop
  | nothing : Framed [] [] []
  | partOfChar {raw : Bytes} (h : Begins raw) (hnot : ¬IsChar raw) : Framed raw [] raw
  | partOfControl {raw controls kept : Bytes} (h : Control raw controls kept) :
      Framed raw controls raw
  | ascii {c : UInt8} {input output waiting : Bytes} (hc : plain c = true)
      (h : Framed input output waiting) : Framed (c :: input) (c :: output) waiting
  | char {t input output waiting : Bytes} (ht : IsChar t) (h : Framed input output waiting) :
      Framed (t ++ input) (t ++ output) waiting
  /-- A byte that begins no character. -/
  | stray {c : UInt8} {input output waiting : Bytes} (hc : 0x80 ≤ c) (hnot : ¬Begins [c])
      (h : Framed input output waiting) : Framed (c :: input) (replacementBytes ++ output) waiting
  /-- A character that does not go on. -/
  | broken {t input output waiting : Bytes} {c : UInt8} (ht : Begins t) (hnot : ¬IsChar t)
      (hc : ¬Begins (t ++ [c])) (h : Framed (c :: input) output waiting) :
      Framed (t ++ c :: input) (replacementBytes ++ output) waiting
  | finished {raw controls kept input output waiting : Bytes} {c : UInt8}
      (hcontrol : Control raw controls kept) (hc : Finishes kept c)
      (h : Framed input output waiting) :
      Framed (raw ++ c :: input) (controls ++ (emitted (kept ++ [c]) ++ output)) waiting
  | aborted {raw controls kept input output waiting : Bytes} {c : UInt8}
      (hcontrol : Control raw controls kept) (hc : aborts c) (h : Framed input output waiting) :
      Framed (raw ++ c :: input) (controls ++ output) waiting
  /-- A control that is aborted by the next one. -/
  | restarted {raw controls kept input output waiting : Bytes}
      (hcontrol : Control raw controls kept) (hstring : ¬inString kept)
      (h : Framed (0x1b :: input) output waiting) :
      Framed (raw ++ 0x1b :: input) (controls ++ output) waiting

/-! ### Tokens -/

/-- A whole escape, CSI or string sequence. -/
inductive Whole : Bytes → Prop
  | escape {c : UInt8} (hc : 0x30 ≤ c ∧ c ≤ 0x7e) (hcsi : c ≠ 0x5b) (hstring : ¬introducer c) :
      Whole [0x1b, c]
  | intermediates {first c : UInt8} {rest : Bytes} (hfirst : intermediate first)
      (hrest : ∀ b ∈ rest, intermediate b) (hc : 0x30 ≤ c ∧ c ≤ 0x7e) :
      Whole (0x1b :: first :: rest ++ [c])
  | csi {c : UInt8} {parameters : Bytes} (hparameters : ∀ b ∈ parameters, 0x20 ≤ b ∧ b ≤ 0x3f)
      (hc : 0x40 ≤ c ∧ c ≤ 0x7e) : Whole (0x1b :: 0x5b :: parameters ++ [c])
  | string {first c : UInt8} {content : Bytes} (hfirst : introducer first)
      (hearlier : ∀ p b, p ++ [b] <+: content → ¬EndsString first p b)
      (hc : EndsString first content c) : Whole (0x1b :: first :: content ++ [c])

/-- What is emitted. Of a sequence with bytes beyond ASCII only this is said. -/
inductive Token : Bytes → Prop
  | ascii {t : Bytes} (hne : t ≠ []) (h : ∀ b ∈ t, plain b = true) : Token t
  | char {t : Bytes} (h : IsChar t) : Token t
  | replacement : Token replacementBytes
  | control {c : UInt8} (hc : c < 0x20) : Token [c]
  | sequence {t : Bytes} (h : Whole t ∨ ∃ b ∈ t, 0x80 ≤ b) (hsize : t.length ≤ maxControlBytes) :
      Token t

/-! ### What the state holds -/

/-- The state that goes with the bytes kept behind `ESC`. -/
def place : Bytes → State
  | [] => .escape
  | first :: rest =>
    if first = 0x5b then .csi
    else if introducer first then if rest.getLast? = some 0x1b then .stringEsc else .string
    else .escapeIntermediate

structure Buffered (s : OutputStream) (kept : Bytes) : Prop where
  fits : kept.length < maxControlBytes → s.dropped = false ∧ s.buffer = 0x1b :: kept
  long : maxControlBytes ≤ kept.length → s.dropped = true ∧ s.buffer = []

/-- The bytes taken and not answered yet, and the controls among them that were executed. -/
inductive Holds (s : OutputStream) : Bytes → Bytes → Prop
  | ground (hs : s.state = .ground) (hbuffer : s.buffer = []) (hdropped : s.dropped = false) :
      Holds s [] []
  | char {l : UInt8} {rest : Bytes} (hs : s.state = .utf8) (hbuffer : s.buffer = l :: rest)
      (hdropped : s.dropped = false) (hneed : s.utf8Need = need l) (hformed : Formed (l :: rest))
      (hlength : rest.length + 1 < need l) : Holds s (l :: rest) []
  | control {raw controls kept : Bytes} (hs : s.state = place kept)
      (hosc : inString kept → s.osc = (kept.head? == some 0x5d)) (hbuffered : Buffered s kept)
      (h : Control raw controls kept) : Holds s raw controls

variable {s : OutputStream} {raw controls kept : Bytes}

lemma holds_reset (s : OutputStream) : Holds s.reset [] [] := .ground rfl rfl rfl

lemma buffered_append (h : Buffered s kept) (c : UInt8) : Buffered (s.append c) (kept ++ [c]) := by
  rw [append]
  by_cases hfits : kept.length < maxControlBytes
  · obtain ⟨hdropped, hbuffer⟩ := h.fits hfits
    rw [if_neg (by simp [hdropped])]
    by_cases hfull : maxControlBytes ≤ s.buffer.length
    · rw [if_pos hfull]
      rw [hbuffer, List.length_cons] at hfull
      exact ⟨fun hlt => absurd hlt (by simp; omega), fun _ => ⟨rfl, rfl⟩⟩
    rw [if_neg hfull]
    rw [hbuffer, List.length_cons] at hfull
    exact ⟨fun _ => ⟨hdropped, by rw [hbuffer]; rfl⟩, fun hle => absurd hle (by simp; omega)⟩
  · obtain ⟨hdropped, hbuffer⟩ := h.long (by omega)
    rw [if_pos hdropped]
    exact ⟨fun hlt => absurd hlt (by simp; omega), fun _ => ⟨hdropped, hbuffer⟩⟩

lemma finish_flatten (h : Buffered s kept) : s.finish.1.flatten = emitted kept := by
  rw [finish, emitted]
  by_cases hfits : kept.length < maxControlBytes
  · obtain ⟨hdropped, hbuffer⟩ := h.fits hfits
    rw [if_pos hfits, hdropped, if_neg (by simp), hbuffer]
    simp
  · rw [if_neg hfits, (h.long (by omega)).1]
    simp

lemma mem_finish (h : Buffered s kept) {t : Bytes} (ht : t ∈ s.finish.1) :
    t = 0x1b :: kept ∧ t.length ≤ maxControlBytes := by
  rw [finish] at ht
  by_cases hfits : kept.length < maxControlBytes
  · obtain ⟨hdropped, hbuffer⟩ := h.fits hfits
    rw [hdropped, if_neg (by simp), hbuffer, List.mem_singleton] at ht
    subst ht
    exact ⟨rfl, by rw [List.length_cons]; omega⟩
  · rw [(h.long (by omega)).1, if_pos rfl] at ht
    cases ht

/-! ### The shape of a control -/

lemma Control.not_finishes (h : Control raw controls kept) {p : Bytes} {b : UInt8}
    (hp : p ++ [b] <+: kept) : ¬Finishes p b := by
  induction h with
  | start => simp at hp
  | executed h _ _ _ _ ih => exact ih hp
  | ignored h _ ih => exact ih hp
  | @taken raw controls kept c h hc habort hfinish ih =>
    rcases List.prefix_concat_iff.mp hp with heq | hp
    · obtain ⟨rfl, hb⟩ := List.append_inj' heq rfl
      cases hb
      exact hfinish
    · exact ih hp

lemma Control.printable (h : Control raw controls kept) (hstring : ¬inString kept) :
    ∀ b ∈ kept, 0x20 ≤ b ∧ b ≠ 0x7f := by
  induction h with
  | start => simp
  | executed h _ _ _ _ ih => exact ih hstring
  | ignored h _ ih => exact ih hstring
  | @taken raw controls kept c h hc habort hfinish ih =>
    have hbefore : ¬inString kept := by
      intro hin
      cases kept with
      | nil => exact hin
      | cons first rest => exact hstring hin
    intro b hb
    rcases List.mem_append.mp hb with hb | hb
    · exact ih hbefore b hb
    · rw [List.mem_singleton.mp hb]
      exact hc.resolve_left hbefore

lemma Control.first (h : Control raw controls kept) {first : UInt8} {rest : Bytes}
    (hkept : kept = first :: rest) :
    first = 0x5b ∨ introducer first ∨ intermediate first := by
  have hnot : ¬Finishes [] first := h.not_finishes (by rw [hkept]; exact ⟨rest, rfl⟩)
  by_contra hnone
  obtain ⟨hcsi, hstring, hinter⟩ : first ≠ 0x5b ∧ ¬introducer first ∧ ¬intermediate first := by
    simpa only [not_or] using hnone
  have hprint := h.printable (by rw [hkept]; exact hstring) first (by rw [hkept]; simp)
  exact hnot ⟨hprint.1, hprint.2, hcsi, hstring, hinter⟩

lemma Control.mem_not_finishes {first : UInt8} {rest : Bytes}
    (h : Control raw controls (first :: rest)) {b : UInt8} (hb : b ∈ rest) :
    ∃ p, ¬Finishes (first :: p) b := by
  obtain ⟨p, q, rfl⟩ := List.append_of_mem hb
  exact ⟨p, h.not_finishes ⟨q, by simp⟩⟩

lemma Control.whole (h : Control raw controls kept) {c : UInt8} (hc : Finishes kept c) :
    Whole (0x1b :: kept ++ [c]) ∨ ∃ b ∈ 0x1b :: kept ++ [c], 0x80 ≤ b := by
  by_cases hhigh : ∃ b ∈ 0x1b :: kept ++ [c], 0x80 ≤ b
  · exact .inr hhigh
  refine .inl ?_
  have hlow : ∀ b, b ∈ 0x1b :: kept ++ [c] → b < 0x80 := fun b hb =>
    UInt8.not_le.mp fun hle => hhigh ⟨b, hb, hle⟩
  have hlast : c < 0x80 := hlow c (by simp)
  match kept, h, hc, hlow with
  | [], _, ⟨hspace, hdel, hcsi, hstring, hinter⟩, _ =>
    rw [intermediate] at hinter
    exact .escape (by grind) hcsi hstring
  | first :: rest, h, hc, hlow =>
    by_cases hcsi : first = 0x5b
    · subst hcsi
      rw [Finishes, if_pos rfl] at hc
      refine .csi (fun b hb => ?_) hc
      obtain ⟨p, hnot⟩ := h.mem_not_finishes hb
      rw [Finishes, if_pos rfl] at hnot
      have hprint := h.printable (by rw [inString, introducer]; decide) b
        (List.mem_cons_of_mem _ hb)
      have hascii := hlow b (by simp [hb])
      grind
    · rw [Finishes, if_neg hcsi] at hc
      by_cases hstring : introducer first
      · rw [if_pos hstring] at hc
        refine .string hstring (fun p b hp => ?_) hc
        have hnot : ¬Finishes (first :: p) b :=
          h.not_finishes (by simpa using hp)
        rwa [Finishes, if_neg hcsi, if_pos hstring] at hnot
      · rw [if_neg hstring] at hc
        have hinter := ((h.first rfl).resolve_left hcsi).resolve_left hstring
        refine .intermediates hinter (fun b hb => ?_) hc
        obtain ⟨p, hnot⟩ := h.mem_not_finishes hb
        rw [Finishes, if_neg hcsi, if_neg hstring] at hnot
        have hprint := h.printable hstring b (List.mem_cons_of_mem _ hb)
        have hascii := hlow b (by simp [hb])
        rw [intermediate]
        grind

/-! ### One turn -/

/-- What a turn does: it holds some bytes afterwards, and what becomes of them and of the bytes that
are left becomes, behind what the turn emits, of the bytes held before and all the data. -/
structure Turned (raw controls : Bytes) (data : Bytes) (r : List Bytes × OutputStream × Bytes) :
    Prop where
  tokens : ∀ t ∈ r.1, Token t
  framed : ∃ raw' controls', Holds r.2.1 raw' controls' ∧ ∀ output waiting,
    Framed (raw' ++ r.2.2) (controls' ++ output) waiting →
      Framed (raw ++ data) (controls ++ (r.1.flatten ++ output)) waiting

lemma framed_run {run input output waiting : Bytes} (hrun : ∀ b ∈ run, plain b = true)
    (h : Framed input output waiting) : Framed (run ++ input) (run ++ output) waiting := by
  induction run with
  | nil => exact h
  | cons b run ih =>
    exact .ascii (hrun b List.mem_cons_self) (ih fun b' hb' => hrun b' (List.mem_cons_of_mem _ hb'))

lemma turned_ground (hs : s.state = .ground) (hbuffer : s.buffer = [])
    (hdropped : s.dropped = false) (c : UInt8) (rest : Bytes) :
    Turned [] [] (c :: rest) (s.turn c rest) := by
  have hholds : Holds s [] [] := .ground hs hbuffer hdropped
  by_cases hplain : plain c = true
  · rw [turn_plain hs hplain]
    have hrun : ∀ b ∈ c :: rest.takeWhile plain, plain b = true := by
      intro b hb
      rcases List.mem_cons.mp hb with rfl | hb
      · exact hplain
      · exact List.mem_takeWhile_imp hb
    refine ⟨fun t ht => ?_, [], [], hholds, fun output waiting h => ?_⟩
    · rw [List.mem_singleton.mp ht]
      exact .ascii (List.cons_ne_nil _ _) hrun
    have hall := framed_run hrun h
    rw [List.nil_append, List.cons_append, List.takeWhile_append_dropWhile] at hall
    simpa using hall
  · have hnot : ¬(c < 0x80 ∧ c ≠ 0x1b) := by simpa [plain] using hplain
    simp only [turn, hs, ground]
    by_cases hesc : c = 0x1b
    · subst hesc
      rw [if_pos rfl]
      have hbuffered : Buffered s.escape [] :=
        ⟨fun _ => ⟨hdropped, rfl⟩, fun hle => absurd hle (by simp [maxControlBytes])⟩
      exact ⟨by simp, [0x1b], [], .control rfl False.elim hbuffered .start,
        fun output waiting h => h⟩
    · have hhigh : ¬c < 0x80 := fun hlow => hnot ⟨hlow, hesc⟩
      rw [if_neg hesc, if_neg hhigh]
      by_cases hlead : 0xc2 ≤ c ∧ c ≤ 0xf4
      · rw [if_pos hlead]
        refine ⟨by simp, [c], [], .char rfl rfl hdropped rfl hlead ?_, fun output waiting h => h⟩
        rw [need, List.length_nil]
        split_ifs <;> omega
      rw [if_neg hlead]
      refine ⟨?_, [], [], hholds, fun output waiting h => ?_⟩
      · intro t ht
        rw [List.mem_singleton.mp ht]
        exact .replacement
      have hstray : ¬Begins [c] := by
        rw [begins_iff]
        exact hlead
      simpa using Framed.stray (UInt8.not_lt.mp hhigh) hstray h

/-- The test of `continueUtf8` for a byte that belongs to the character. -/
def continues (buffer : Bytes) (c : UInt8) : Bool :=
  match buffer with
  | [lead] => isSecond lead c
  | _ => isTail c

lemma turn_utf8 (hs : s.state = .utf8) (c : UInt8) (rest : Bytes) : s.turn c rest =
    if continues s.buffer c then
      if s.buffer.length + 1 = s.utf8Need then
        (({ s with buffer := s.buffer ++ [c] } : OutputStream).finish.1, s.reset, rest)
      else ([], { s with buffer := s.buffer ++ [c] }, rest)
    else ([replacementBytes], s.reset, c :: rest) := by
  have hturn : s.turn c rest = s.continueUtf8 c rest := by simp only [turn, hs]
  rw [hturn, continueUtf8]
  change (if !continues s.buffer c then _ else _) = _
  cases continues s.buffer c with
  | false => rfl
  | true =>
    simp only [Bool.not_true, Bool.false_eq_true, if_false, if_true, List.length_append,
      List.length_singleton]
    rfl

lemma continues_iff {l : UInt8} {more : Bytes} (hformed : Formed (l :: more))
    (hlength : more.length + 1 < need l) (c : UInt8) :
    continues (l :: more) c = true ↔ Formed (l :: (more ++ [c])) := by
  match more, hformed, hlength with
  | [], hlead, hlength =>
    exact ⟨fun hsecond => ⟨hlead, hsecond, by simp, hlength⟩, fun h => h.2.1⟩
  | b :: more, ⟨hlead, hsecond, htails, _⟩, hlength =>
    rw [List.length_cons] at hlength
    constructor
    · intro htail
      refine ⟨hlead, hsecond, fun b' hb' => ?_, ?_⟩
      · rcases List.mem_append.mp hb' with hb' | hb'
        · exact htails b' hb'
        · rwa [List.mem_singleton.mp hb']
      · rw [List.append_eq, List.length_append, List.length_singleton]
        omega
    · exact fun h => h.2.2.1 c (List.mem_append_right _ List.mem_cons_self)

lemma turned_utf8 {l : UInt8} {more : Bytes} (hs : s.state = .utf8) (hbuffer : s.buffer = l :: more)
    (hdropped : s.dropped = false) (hneed : s.utf8Need = need l) (hformed : Formed (l :: more))
    (hlength : more.length + 1 < need l) (c : UInt8) (rest : Bytes) :
    Turned (l :: more) [] (c :: rest) (s.turn c rest) := by
  have hvalid := continues_iff hformed hlength c
  rw [turn_utf8 hs, hbuffer]
  split_ifs with hcontinues hfull
  · have hchar : IsChar (l :: (more ++ [c])) := by
      rw [isChar_iff (hvalid.mp hcontinues), List.length_append, ← hneed]
      exact hfull
    have hfinish : (finish { s with buffer := l :: more ++ [c] }).1 =
        [l :: (more ++ [c])] := by
      simp [finish, hdropped]
    rw [hfinish]
    refine ⟨fun t ht => ?_, [], [], holds_reset s, fun output waiting h => ?_⟩
    · rw [List.mem_singleton.mp ht]
      exact .char hchar
    · simpa using Framed.char hchar h
  · rw [List.length_cons, hneed] at hfull
    refine ⟨by simp, l :: (more ++ [c]), [], .char hs rfl hdropped hneed (hvalid.mp hcontinues) ?_,
      fun output waiting h => by simpa using h⟩
    rw [List.length_append, List.length_singleton]
    omega
  · -- the byte is looked at once more
    have hnot : ¬IsChar (l :: more) := by
      rw [isChar_iff hformed]
      omega
    have hbroken : ¬Begins (l :: more ++ [c]) := by
      rw [begins_iff]
      exact fun h => hcontinues (hvalid.mpr h)
    refine ⟨fun t ht => ?_, [], [], holds_reset s, fun output waiting h => ?_⟩
    · rw [List.mem_singleton.mp ht]
      exact .replacement
    · simpa using Framed.broken ((begins_iff _).mpr hformed) hnot hbroken h

section
variable {c : UInt8} (rest : Bytes)

lemma turned_taken {t : OutputStream} (h : Control raw controls kept)
    (hc : inString kept ∨ 0x20 ≤ c ∧ c ≠ 0x7f) (habort : ¬aborts c) (hfinish : ¬Finishes kept c)
    (hstate : t.state = place (kept ++ [c]))
    (hosc : inString (kept ++ [c]) → t.osc = ((kept ++ [c]).head? == some 0x5d))
    (hbuffered : Buffered t (kept ++ [c])) : Turned raw controls (c :: rest) ([], t, rest) :=
  ⟨by simp, raw ++ [c], controls, .control hstate hosc hbuffered (h.taken hc habort hfinish),
    fun output waiting h => by simpa using h⟩

lemma turned_finished (h : Control raw controls kept) (hbuffered : Buffered s kept)
    (hc : Finishes kept c) :
    Turned raw controls (c :: rest) ((s.append c).finish.1, (s.append c).finish.2, rest) := by
  have happend := buffered_append hbuffered c
  refine ⟨fun t ht => ?_, [], [], holds_reset _, fun output waiting hrest => ?_⟩
  · obtain ⟨rfl, hsize⟩ := mem_finish happend ht
    exact .sequence (h.whole hc) hsize
  · rw [finish_flatten happend]
    exact .finished h hc hrest

lemma turned_string {first : UInt8} {content : Bytes} (hs : s.state = place (first :: content))
    (hosc : s.osc = (first == 0x5d)) (hbuffered : Buffered s (first :: content))
    (h : Control raw controls (first :: content)) (hcsi : first ≠ 0x5b)
    (hstring : introducer first) (habort : ¬aborts c) :
    Turned raw controls (c :: rest) ((s.continueString c).1, (s.continueString c).2, rest) := by
  rw [place, if_neg hcsi, if_pos hstring] at hs
  have hlast : (s.state == .stringEsc) = true ↔ content.getLast? = some 0x1b := by
    rw [hs]
    split_ifs with hesc
    · simp [hesc]
    · simp [hesc]
  have hdone : ((s.osc && c == 0x07) || (s.state == .stringEsc && c == 0x5c)) = true ↔
      Finishes (first :: content) c := by
    rw [Finishes, if_neg hcsi, if_pos hstring, EndsString, Bool.or_eq_true, Bool.and_eq_true,
      Bool.and_eq_true, hlast, hosc, beq_iff_eq, beq_iff_eq, beq_iff_eq]
  rw [continueString]
  by_cases hfinish : Finishes (first :: content) c
  · simp only [hdone.mpr hfinish, if_true]
    exact turned_finished rest h hbuffered hfinish
  simp only [Bool.not_eq_true, ← hdone] at hfinish
  simp only [hfinish, Bool.false_eq_true, if_false]
  have happend := buffered_append hbuffered c
  refine turned_taken rest h (.inl hstring) habort (by rw [← hdone, hfinish]; simp) ?_ ?_
    ⟨happend.fits, happend.long⟩
  · rw [List.cons_append, place, if_neg hcsi, if_pos hstring]
    by_cases hesc : c = 0x1b
    · simp [hesc]
    · simp [hesc]
  · intro _
    rw [InStep.append_osc]
    simpa using hosc

lemma turned_start (hbuffered : Buffered s [])
    (h : Control raw controls []) (hc : 0x20 ≤ c ∧ c ≠ 0x7f) (habort : ¬aborts c) :
    Turned raw controls (c :: rest) ((s.startSequence c).1, (s.startSequence c).2, rest) := by
  have happend := buffered_append hbuffered c
  rw [startSequence]
  by_cases hcsi : c = 0x5b
  · subst hcsi
    exact turned_taken rest h (.inr hc) habort (fun hf => hf.2.2.1 rfl) rfl
      (fun hin => absurd hin (by change ¬introducer 0x5b; decide)) ⟨happend.fits, happend.long⟩
  simp only [if_neg hcsi]
  by_cases hstring : introducer c
  · have hstring' : c = 0x5d ∨ c = 0x50 ∨ c = 0x58 ∨ c = 0x5e ∨ c = 0x5f := hstring
    simp only [if_pos hstring']
    refine turned_taken rest h (.inr hc) habort (fun hf => hf.2.2.2.1 hstring) ?_ (fun _ => ?_)
      ⟨happend.fits, happend.long⟩
    · simp [place, hcsi, hstring]
    · simp
  · have hstring' : ¬(c = 0x5d ∨ c = 0x50 ∨ c = 0x58 ∨ c = 0x5e ∨ c = 0x5f) := hstring
    simp only [if_neg hstring']
    by_cases hinter : 0x20 ≤ c ∧ c ≤ 0x2f
    · simp only [if_pos hinter]
      refine turned_taken rest h (.inr hc) habort (fun hf => hf.2.2.2.2 hinter) ?_
        (fun hin => absurd hin hstring) ⟨happend.fits, happend.long⟩
      simp [place, hcsi, hstring]
    · simp only [if_neg hinter]
      exact turned_finished rest h hbuffered ⟨hc.1, hc.2, hcsi, hstring, hinter⟩

lemma turned_sequence {first : UInt8} {more : Bytes} {final : Prop} [Decidable final]
    (hs : s.state = place (first :: more)) (hbuffered : Buffered s (first :: more))
    (h : Control raw controls (first :: more)) (hstring : ¬introducer first)
    (hc : 0x20 ≤ c ∧ c ≠ 0x7f) (habort : ¬aborts c) (hfinal : final ↔ Finishes (first :: more) c) :
    Turned raw controls (c :: rest) ((if final then (s.append c).finish else ([], s.append c)).1,
      (if final then (s.append c).finish else ([], s.append c)).2, rest) := by
  have hplace : place (first :: more ++ [c]) = place (first :: more) := by
    rw [List.cons_append, place, place, if_neg hstring, if_neg hstring]
  by_cases hfinish : final
  · rw [if_pos hfinish]
    exact turned_finished rest h hbuffered (hfinal.mp hfinish)
  rw [if_neg hfinish]
  refine turned_taken rest h (.inr hc) habort (fun hf => hfinish (hfinal.mpr hf)) ?_
    (fun hin => absurd hin hstring) (buffered_append hbuffered c)
  rw [hplace, InStep.append_state]
  exact hs

lemma turned_control (hs : s.state = place kept)
    (hosc : inString kept → s.osc = (kept.head? == some 0x5d)) (hbuffered : Buffered s kept)
    (h : Control raw controls kept) (c : UInt8) : Turned raw controls (c :: rest)
      ((s.continueControl c).1, (s.continueControl c).2, rest) := by
  have hin : s.state = .string ∨ s.state = .stringEsc ↔ inString kept := by
    rw [hs]
    match kept with
    | [] => simp [place, inString]
    | first :: more =>
      by_cases hcsi : first = 0x5b
      · subst hcsi
        simp [place, inString, introducer]
      · rw [place, if_neg hcsi, inString]
        split_ifs with hstring <;> simp [hstring]
  rw [continueControl]
  by_cases habort : aborts c
  · rw [if_pos (show c = 0x18 ∨ c = 0x1a from habort)]
    exact ⟨by simp, [], [], holds_reset s, fun output waiting hrest => .aborted h habort hrest⟩
  rw [if_neg (show ¬(c = 0x18 ∨ c = 0x1a) from habort)]
  by_cases hstring : inString kept
  · rw [if_pos (hin.mpr hstring)]
    cases kept with
    | nil => exact False.elim hstring
    | cons first content =>
      have hcsi : first ≠ 0x5b := by
        rintro rfl
        exact absurd hstring (by change ¬introducer 0x5b; decide)
      exact turned_string rest hs (hosc hstring) hbuffered h hcsi hstring habort
  rw [if_neg (mt hin.mp hstring)]
  by_cases hesc : c = 0x1b
  · subst hesc
    rw [if_pos rfl]
    have hescape : Buffered s.reset.escape [] :=
      ⟨fun _ => ⟨rfl, rfl⟩, fun hle => absurd hle (by simp [maxControlBytes])⟩
    exact ⟨by simp, [0x1b], [], .control rfl False.elim hescape .start,
      fun output waiting hrest => .restarted h hstring hrest⟩
  rw [if_neg hesc]
  by_cases hdel : c = 0x7f
  · subst hdel
    rw [if_pos rfl]
    exact ⟨by simp, raw ++ [0x7f], controls, .control hs hosc hbuffered (h.ignored hstring),
      fun output waiting hrest => by simpa using hrest⟩
  rw [if_neg hdel]
  by_cases hcontrol : c < 0x20
  · rw [if_pos hcontrol]
    refine ⟨fun t ht => ?_, raw ++ [c], controls ++ [c],
      .control hs hosc hbuffered (h.executed hstring hcontrol habort hesc),
      fun output waiting hrest => by simpa using hrest⟩
    rw [List.mem_singleton.mp ht]
    exact .control hcontrol
  rw [if_neg hcontrol]
  have hc : 0x20 ≤ c ∧ c ≠ 0x7f := ⟨UInt8.not_lt.mp hcontrol, hdel⟩
  cases kept with
  | nil =>
    rw [hs]
    exact turned_start rest hbuffered h hc habort
  | cons first more =>
    have hstring' : ¬introducer first := hstring
    by_cases hcsi : first = 0x5b
    · have hplace : s.state = .csi := by rw [hs, place, if_pos hcsi]
      rw [hplace]
      exact turned_sequence rest hs hbuffered h hstring hc habort
        (by rw [Finishes, if_pos hcsi])
    have hplace : s.state = .escapeIntermediate := by
      rw [hs, place, if_neg hcsi, if_neg hstring']
    rw [hplace]
    exact turned_sequence rest hs hbuffered h hstring hc habort
      (by rw [Finishes, if_neg hcsi, if_neg hstring'])

end

lemma turned (h : Holds s raw controls) (c : UInt8) (rest : Bytes) :
    Turned raw controls (c :: rest) (s.turn c rest) := by
  cases h with
  | ground hs hbuffer hdropped => exact turned_ground hs hbuffer hdropped c rest
  | char hs hbuffer hdropped hneed hformed hlength =>
    exact turned_utf8 hs hbuffer hdropped hneed hformed hlength c rest
  | control hs hosc hbuffered h =>
    rename_i kept
    have hground : s.state ≠ .ground ∧ s.state ≠ .utf8 := by
      rw [hs]
      match kept with
      | [] => simp [place]
      | first :: more =>
        rw [place]
        split_ifs <;> simp
    have hturn : s.turn c rest = ((s.continueControl c).1, (s.continueControl c).2, rest) := by
      rw [turn]
      split
      · exact absurd ‹_› hground.1
      · exact absurd ‹_› hground.2
      · rfl
    rw [hturn]
    exact turned_control rest hs hosc hbuffered h c

/-! ### Streams -/

lemma turn_tokens (hs : s.state ≠ .ground) (c : UInt8) (rest : Bytes) :
    (s.turn c rest).1 = (s.turn c []).1 := by
  unfold turn
  split
  · contradiction
  · unfold continueUtf8
    simp only
    split_ifs <;> rfl
  · rfl

lemma flatten_run (hs : s.state = .ground) (data : Bytes) : (s.feed data).1.flatten =
    data.takeWhile plain ++ (s.feed (data.dropWhile plain)).1.flatten := by
  cases data with
  | nil => rw [List.takeWhile_nil, List.dropWhile_nil, List.nil_append]
  | cons b data =>
    by_cases hb : plain b = true
    · rw [List.takeWhile_cons_of_pos hb, List.dropWhile_cons_of_pos hb, feed_cons, turn_plain hs hb]
      simp
    · rw [List.takeWhile_cons_of_neg hb, List.dropWhile_cons_of_neg hb, List.nil_append]

lemma flatten_ground (hs : s.state = .ground) (c : UInt8) (rest : Bytes) :
    (s.feed (c :: rest)).1.flatten =
      (s.feed [c]).1.flatten ++ ((next s c).feed rest).1.flatten := by
  by_cases hc : plain c = true
  · have hnext : next s c = s := by
      rw [next, feed_cons, turn_plain hs hc, List.dropWhile_nil, feed_nil]
    rw [hnext, flatten_run hs rest, feed_cons, feed_cons, turn_plain hs hc, turn_plain hs hc]
    simp [feed_nil]
  have hnot : ¬(c < 0x80 ∧ c ≠ 0x1b) := by simpa [plain] using hc
  have hturn : ∀ rest, s.turn c rest = ((s.turn c []).1, (s.turn c []).2.1, rest) := by
    intro rest
    simp only [turn, hs, ground]
    split_ifs with hesc hlow
    · rfl
    · exact absurd ⟨hlow, hesc⟩ hnot
    all_goals rfl
  rw [next, feed_cons, feed_cons, hturn rest, hturn []]
  simp [feed_nil]

lemma flatten_cons (s : OutputStream) (c : UInt8) (rest : Bytes) : (s.feed (c :: rest)).1.flatten =
    (s.feed [c]).1.flatten ++ ((next s c).feed rest).1.flatten := by
  by_cases hs : s.state = .ground
  · exact flatten_ground hs c rest
  have htokens := turn_tokens hs c rest
  rcases turn_single s hs c rest with ⟨h, -, hone⟩ | ⟨h, hone⟩
  · have hnext : next s c = next s.reset c := by rw [next, feed_cons, hone, next]
    have hleft : (s.feed (c :: rest)).1.flatten =
        (s.turn c []).1.flatten ++ (s.reset.feed (c :: rest)).1.flatten := by
      rw [feed_cons, htokens, h, List.flatten_append]
    have hright : (s.feed [c]).1.flatten =
        (s.turn c []).1.flatten ++ (s.reset.feed [c]).1.flatten := by
      rw [feed_cons, hone, List.flatten_append]
    rw [hleft, hright, flatten_ground rfl, hnext, List.append_assoc]
  · have hnext : next s c = (s.turn c []).2.1 := by rw [next, feed_cons, hone, feed_nil]
    have hright : (s.feed [c]).1 = (s.turn c []).1 := by
      rw [feed_cons, hone, feed_nil, List.append_nil]
    rw [hright, hnext, feed_cons, h, List.flatten_append, htokens]

end C1auncher.Terminal.Framing
