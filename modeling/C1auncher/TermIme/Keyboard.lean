import C1auncher.TermIme.InputProcessor

/-!
No byte of the keyboard is lost: every result stands for a piece of what was read, and the pieces
are all that was read.
-/

namespace C1auncher.TermIme.Keyboard

open Utf8Bytes TermIme.InputProcessor List Result Nat

/-- The bytes that have been read and have come to no result yet. -/
def pending (p : Processor) : Bytes :=
  match p.state with
  | .normal => []
  | .escape | .escapeCSI => p.buffer
  | .prefixed => [ctrlA]

/-- What a result says of the piece of the input it stands for. -/
inductive Token : Result → Bytes → Prop
  | pasted (b : UInt8) : Token { Result.forwards [b] with paste := true } [b]
  | start : Token { Result.forwards pasteStart with paste := true, pasteBegin := true } pasteStart
  | toggle : Token { Result.nothing with toggleMode := true } [ctrlA, space]
  | literal : Token (.forwards [ctrlA]) [ctrlA, ctrlA]
  | pair (b : UInt8) (hspace : b ≠ space) (hctrl : b ≠ ctrlA) :
      Token (.forwards [ctrlA, b]) [ctrlA, b]
  | sequence (rest : Bytes) (hstart : esc :: rest ≠ pasteStart) :
      Token (.forwards (esc :: rest)) (esc :: rest)
  | single (b : UInt8) (hctrl : b ≠ ctrlA) (hesc : b ≠ esc) : Token (.forwards [b]) [b]

/-- What a result gives to the terminal: bytes, or a change of the mode. -/
inductive Item
  | byte (b : UInt8)
  | toggle
  deriving DecidableEq

def Result.items (r : Result) : List Item :=
  r.data.map .byte ++ if r.toggleMode then [.toggle] else []

/-- A piece of the input with the pairs of the prefix key replaced. -/
def replaced (piece : Bytes) : List Item :=
  if piece = [ctrlA, space] then [.toggle]
  else if piece = [ctrlA, ctrlA] then [.byte ctrlA]
  else piece.map .byte

variable {r : Result} {piece bytes : Bytes} {b : UInt8}

lemma Token.items (h : Token r piece) :
    Result.items r = replaced piece := by
  cases h with
  | pasted b => simp [Result.items, replaced, forwards, nothing]
  | start => rfl
  | toggle => rfl
  | literal => rfl
  | pair b hspace hctrl => simp [Result.items, replaced, forwards, nothing, *]
  | sequence rest hstart =>
    have hne : esc ≠ ctrlA := by decide
    simp [Result.items, replaced, forwards, nothing, hne]
  | single b hctrl hesc => simp [Result.items, replaced, forwards, nothing]

/-- Between two inputs. -/
structure Sound (p : Processor) : Prop where
  paste : p.inPaste = true → p.state = .normal
  escape : p.state = .escape → p.buffer = [esc]
  sequence : p.state = .escapeCSI → ∃ rest, p.buffer = esc :: rest ∧ p.buffer ≠ pasteStart
  pendingSize : (pending p).length ≤ 256
  bufferSize : p.buffer.length ≤ 257

/-- A step of the processor: the input becomes pending, or all that is pending becomes a result. -/
def Steps (p p' : Processor) (r : Result) (bytes : Bytes) : Prop :=
  (r = .nothing ∧ pending p' = pending p ++ bytes) ∨
    (pending p' = [] ∧ Token r (pending p ++ bytes))

variable {p : Processor}

lemma matchedAfter_le {matched : ℕ} (h : matched < 6) (b : UInt8) : matchedAfter matched b ≤ 6 := by
  unfold matchedAfter
  split_ifs <;> omega

lemma Sound.pasted (h : Sound p) (hpaste : p.inPaste = true) (b : UInt8) :
    Sound (p.pasted b).1 ∧ Steps p (p.pasted b).1 (p.pasted b).2 [b] := by
  have hstate := h.paste hpaste
  have hpending : pending p = [] := by rw [pending, hstate]
  have htoken : Token { forwards [b] with paste := true } (pending p ++ [b]) := by
    rw [hpending]
    exact .pasted b
  unfold Processor.pasted
  dsimp only
  split_ifs
  · refine ⟨{ h with paste := nofun }, .inr ⟨?_, htoken⟩⟩
    exact hpending
  · exact ⟨{ h with }, .inr ⟨hpending, htoken⟩⟩

/-- What a byte does to the machine: it waits, it ends a sequence, or it ends another piece. -/
inductive Moves (p : Processor) (b : UInt8) (state : State) (buffer : Bytes) (r : Result) : Prop
  | waits (hr : r = .nothing) (hstate : state ≠ .normal)
      (hpending : pending { p with state := state, buffer := buffer } = pending p ++ [b])
      (hsize : (pending p ++ [b]).length ≤ 256)
  | ends (rest : Bytes) (hstate : state = .normal) (hr : r = .forwards (esc :: rest))
      (hpiece : pending p ++ [b] = esc :: rest)
  | other (hstate : state = .normal) (hdata : r.data ≠ pasteStart)
      (htoken : Token r (pending p ++ [b]))

structure Keeps (state : State) (buffer : Bytes) : Prop where
  escape : state = .escape → buffer = [esc]
  sequence : state = .escapeCSI → ∃ rest, buffer = esc :: rest ∧ buffer ≠ pasteStart
  size : buffer.length ≤ 257

lemma ne_pasteStart {buffer : Bytes} (h : b ≠ 0x7e) : buffer ++ [b] ≠ pasteStart := by
  intro heq
  have hlast := congrArg getLast? heq
  rw [getLast?_concat] at hlast
  exact h (Option.some.inj hlast)

lemma Sound.transition (h : Sound p) (b : UInt8) :
    ∃ state buffer r, InputProcessor.transition p.state p.buffer b = (state, buffer, r) ∧
      Keeps state buffer ∧ Moves p b state buffer r := by
  have hpending := h.pendingSize
  have hsize := h.bufferSize
  unfold InputProcessor.transition
  cases hstate : p.state with
  | normal =>
    have hnone : pending p = [] := by rw [pending, hstate]
    dsimp only
    split_ifs with hctrl hesc
    · refine ⟨_, _, _, rfl, ⟨nofun, nofun, hsize⟩, .waits rfl nofun ?_ ?_⟩
      · rw [hnone, hctrl]
        rfl
      · rw [hnone]
        exact le_of_ble_eq_true rfl
    · refine ⟨_, _, _, rfl, ⟨fun _ => rfl, nofun, le_of_ble_eq_true rfl⟩,
        .waits rfl nofun ?_ ?_⟩
      · rw [hnone, hesc]
        rfl
      · rw [hnone]
        exact le_of_ble_eq_true rfl
    · refine ⟨_, _, _, rfl, ⟨nofun, nofun, hsize⟩,
        .other rfl (by simp [forwards, pasteStart]) ?_⟩
      rw [hnone]
      exact .single b hctrl hesc
  | escape =>
    have hbuffer := h.escape hstate
    have hwaiting : pending p = [esc] := by rw [pending, hstate, ← hbuffer]
    dsimp only
    rw [hbuffer]
    split_ifs with hcsi
    · have hne : b ≠ 0x7e := by
        rintro rfl
        cases hcsi
      refine ⟨_, _, _, rfl, ⟨nofun, fun _ => ⟨[b], rfl, ne_pasteStart hne⟩,
        le_of_ble_eq_true rfl⟩, .waits rfl nofun ?_ ?_⟩
      · rw [hwaiting]
        rfl
      · rw [hwaiting]
        exact le_of_ble_eq_true rfl
    · refine ⟨_, _, _, rfl, ⟨nofun, nofun, le_of_ble_eq_true rfl⟩, .ends [b] rfl rfl ?_⟩
      rw [hwaiting]
      rfl
  | escapeCSI =>
    obtain ⟨rest, hbuffer, -⟩ := h.sequence hstate
    have hwaiting : pending p = p.buffer := by rw [pending, hstate]
    have hlong : (p.buffer ++ [b]).length ≤ 257 := by
      rw [hwaiting] at hpending
      rw [length_append, length_singleton]
      omega
    have hends : Moves p b .normal (p.buffer ++ [b]) (.forwards (p.buffer ++ [b])) := by
      refine .ends (rest ++ [b]) rfl ?_ ?_
      · rw [hbuffer]
        rfl
      · rw [hwaiting, hbuffer]
        rfl
    dsimp only
    split_ifs with hfinal hparam
    · exact ⟨_, _, _, rfl, ⟨nofun, nofun, hlong⟩, hends⟩
    · simp only [isParam, Bool.and_eq_true, decide_eq_true_eq] at hparam
      have hne : b ≠ 0x7e := by
        rintro rfl
        exact absurd hparam.2 (by decide)
      refine ⟨_, _, _, rfl, ⟨nofun, fun _ => ⟨rest ++ [b], by rw [hbuffer]; rfl, ne_pasteStart hne⟩,
        hlong⟩, .waits rfl nofun ?_ ?_⟩
      · rw [hwaiting]
        rfl
      · rw [hwaiting, length_append, length_singleton]
        omega
    · exact ⟨_, _, _, rfl, ⟨nofun, nofun, hlong⟩, hends⟩
  | prefixed =>
    have hwaiting : pending p = [ctrlA] := by rw [pending, hstate]
    dsimp only
    split_ifs with hspace hctrl
    · refine ⟨_, _, _, rfl, ⟨nofun, nofun, hsize⟩, .other rfl nofun ?_⟩
      rw [hwaiting, hspace]
      exact .toggle
    · refine ⟨_, _, _, rfl, ⟨nofun, nofun, hsize⟩, .other rfl nofun ?_⟩
      rw [hwaiting, hctrl]
      exact .literal
    refine ⟨_, _, _, rfl, ⟨nofun, nofun, hsize⟩,
      .other rfl (by simp [forwards, pasteStart]) ?_⟩
    rw [hwaiting]
    exact .pair b hspace hctrl

lemma Sound.process (h : Sound p) (b : UInt8) :
    Sound (p.process b).1 ∧ Steps p (p.process b).1 (p.process b).2 [b] := by
  unfold Processor.process
  split_ifs with hpaste
  · exact h.pasted hpaste b
  obtain ⟨state, buffer, r, htransition, hkeeps, hmoves⟩ := h.transition b
  rw [htransition]
  dsimp only
  rw [Bool.not_eq_true] at hpaste
  cases hmoves with
  | waits hr hstate hpending hsize =>
    rw [hr, if_neg (by decide)]
    refine ⟨⟨fun htrue => ?_, hkeeps.escape, hkeeps.sequence, ?_, hkeeps.size⟩,
      .inl ⟨rfl, hpending⟩⟩
    · rw [hpaste] at htrue
      cases htrue
    · rw [hpending]
      exact hsize
  | ends rest hstate hr hpiece =>
    rw [hstate, hr]
    by_cases hstart : esc :: rest = pasteStart
    · have htoken : Token { forwards (esc :: rest) with paste := true, pasteBegin := true }
          (pending p ++ [b]) := by
        rw [hpiece, hstart]
        exact .start
      rw [if_pos (by rw [hstart]; rfl)]
      exact ⟨⟨fun _ => rfl, nofun, nofun, Nat.zero_le _, hkeeps.size⟩, .inr ⟨rfl, htoken⟩⟩
    · have htoken : Token (.forwards (esc :: rest)) (pending p ++ [b]) := by
        rw [hpiece]
        exact .sequence rest hstart
      rw [if_neg (by simpa [forwards] using hstart)]
      exact ⟨⟨fun _ => rfl, nofun, nofun, Nat.zero_le _, hkeeps.size⟩, .inr ⟨rfl, htoken⟩⟩
  | other hstate hdata htoken =>
    rw [hstate, if_neg (by simp [hdata])]
    exact ⟨⟨fun _ => rfl, nofun, nofun, Nat.zero_le _, hkeeps.size⟩, .inr ⟨rfl, htoken⟩⟩

lemma sound_init : Sound .init :=
  ⟨fun _ => rfl, nofun, nofun, Nat.zero_le _, Nat.zero_le _⟩

lemma Sound.flushEscape (h : Sound p) :
    Sound p.flushEscape.1 ∧ Steps p p.flushEscape.1 p.flushEscape.2 [] := by
  unfold Processor.flushEscape
  split_ifs with hescape
  · refine ⟨sound_init, .inr ⟨rfl, ?_⟩⟩
    rw [append_nil]
    simp only [Processor.inEscape, Bool.or_eq_true, beq_iff_eq] at hescape
    rcases hescape with hstate | hstate
    · have hpending : pending p = [esc] := by rw [pending, hstate, ← h.escape hstate]
      rw [hpending, h.escape hstate]
      exact .sequence [] (by decide)
    obtain ⟨rest, hbuffer, hne⟩ := h.sequence hstate
    have hpending : pending p = esc :: rest := by rw [pending, hstate, ← hbuffer]
    rw [hpending, hbuffer]
    rw [hbuffer] at hne
    exact .sequence rest hne
  · exact ⟨h, .inl ⟨rfl, (append_nil _).symm⟩⟩

lemma Sound.take (h : Sound p) (input : Input) :
    Sound (p.take input).1 ∧ Steps p (p.take input).1 (p.take input).2 (bytesOf [input]) := by
  cases input with
  | byte b => exact h.process b
  | timeout => exact h.flushEscape

/-! ### Runs -/

lemma run_append (inputs more : List Input) :
    run p (inputs ++ more) = run (run p inputs) more :=
  foldl_append

lemma sound_run (inputs : List Input) : Sound (run .init inputs) := by
  induction inputs using reverseRecOn with
  | nil => exact sound_init
  | append_singleton inputs input ih =>
    rw [run_append]
    exact (ih.take input).1

def told (rs : List Result) : List Result := rs.filter (· ≠ .nothing)

/-- In the middle of a paste of which so much has been read: the longest beginning of its end that
the bytes end in is known. -/
structure Pasting (p : Processor) (bytes : Bytes) : Prop where
  inPaste : p.inPaste = true
  state : p.state = .normal
  goesOn : ¬pasteEnd <:+: bytes
  lt : p.pasteEndMatched < 6
  matched : pasteEnd.take p.pasteEndMatched <:+ bytes
  longest : ∀ j < 6, pasteEnd.take j <:+ bytes → j ≤ p.pasteEndMatched

lemma take_succ_suffix {j : ℕ} (hj : j < 6) (bytes : Bytes) (b : UInt8) :
    pasteEnd.take (j + 1) <:+ bytes ++ [b] ↔
      pasteEnd.take j <:+ bytes ∧ b = pasteEnd.getD j 0 := by
  have htake : pasteEnd.take (j + 1) = pasteEnd.take j ++ [pasteEnd.getD j 0] := by
    have hall : ∀ j < 6, pasteEnd.take (j + 1) = pasteEnd.take j ++ [pasteEnd.getD j 0] := by decide
    exact hall j hj
  rw [htake, suffix_concat_iff]
  constructor
  · rintro (hnil | ⟨t, heq, ht⟩)
    · simp at hnil
    · obtain ⟨rfl, hb⟩ := append_inj' heq rfl
      exact ⟨ht, (List.singleton_inj.mp hb).symm⟩
  · rintro ⟨hsuffix, rfl⟩
    exact .inr ⟨_, rfl, hsuffix⟩

/-- Two beginnings of the end that the same bytes end in have their last byte in common, and all its
bytes are different. -/
lemma beginning_eq {i j : ℕ} (hj : j < 6) (hij : i < j)
    (hi' : pasteEnd.take i <:+ bytes) (hj' : pasteEnd.take j <:+ bytes) : i = 0 := by
  have hshort : (pasteEnd.take i).length ≤ (pasteEnd.take j).length := by
    rw [length_take, length_take]
    omega
  have hsuffix := suffix_of_suffix_length_le hi' hj' hshort
  have hall : ∀ j < 6, ∀ i < j, pasteEnd.take i <:+ pasteEnd.take j → i = 0 := by decide
  exact hall j hj i hij hsuffix

lemma Pasting.ends_iff (h : Pasting p bytes) (b : UInt8) :
    pasteEnd <:+: bytes ++ [b] ↔ matchedAfter p.pasteEndMatched b = 6 := by
  have hlt := h.lt
  have hwhole : pasteEnd <:+: bytes ++ [b] ↔
      pasteEnd.take 5 <:+ bytes ∧ b = pasteEnd.getD 5 0 := by
    rw [infix_concat_iff, or_iff_left h.goesOn]
    exact take_succ_suffix (j := 5) (by omega) bytes b
  rw [hwhole]
  unfold matchedAfter
  constructor
  · rintro ⟨hsuffix, hb⟩
    have hfive : p.pasteEndMatched = 5 := by
      have := h.longest 5 (by omega) hsuffix
      omega
    rw [hfive, if_pos hb]
  · intro hsix
    split_ifs at hsix with hb
    · have hfive : p.pasteEndMatched = 5 := by omega
      rw [← hfive]
      exact ⟨h.matched, hb⟩
    · omega

lemma Pasting.step (h : Pasting p bytes)
    (hgoes : ¬pasteEnd <:+: bytes ++ [b]) : Pasting (p.process b).1 (bytes ++ [b]) := by
  have hne : matchedAfter p.pasteEndMatched b ≠ 6 := mt (h.ends_iff b).mpr hgoes
  have hle := matchedAfter_le h.lt b
  have hprocess :
      (p.process b).1 = { p with pasteEndMatched := matchedAfter p.pasteEndMatched b } := by
    rw [Processor.process, if_pos h.inPaste, Processor.pasted]
    exact congrArg Prod.fst (if_neg hne)
  rw [hprocess]
  refine ⟨h.inPaste, h.state, hgoes, lt_of_le_of_ne hle hne, ?_, fun j hj hsuffix => ?_⟩
  · change pasteEnd.take (matchedAfter p.pasteEndMatched b) <:+ bytes ++ [b]
    unfold matchedAfter
    split_ifs with hb hesc
    · exact (take_succ_suffix h.lt bytes b).mpr ⟨h.matched, hb⟩
    · exact (take_succ_suffix (by omega) bytes b).mpr ⟨nil_suffix, hesc⟩
    · exact nil_suffix
  · rcases j with _ | j
    · exact Nat.zero_le _
    obtain ⟨hsuffix, hb⟩ := (take_succ_suffix (by omega) bytes b).mp hsuffix
    have hlongest := h.longest j (by omega) hsuffix
    change j + 1 ≤ matchedAfter p.pasteEndMatched b
    unfold matchedAfter
    split_ifs with hnext hesc
    · omega
    -- The next byte of the end did not come, so that a shorter beginning goes on: the empty one.
    all_goals
      have hshorter : j < p.pasteEndMatched := by
        refine lt_of_le_of_ne hlongest fun heq => hnext ?_
        rw [← heq]
        exact hb
      have hzero := beginning_eq h.lt hshorter hsuffix h.matched
      rw [hzero] at hb ⊢
    exact absurd hb hesc

lemma take_timeout_pasting (h : Pasting p bytes) :
    p.take .timeout = (p, .nothing) := by
  rw [Processor.take, Processor.flushEscape, if_neg]
  rw [Processor.inEscape, h.state]
  decide

lemma Pasting.run (h : Pasting p bytes) (inputs : List Input)
    (hgoes : ¬pasteEnd <:+: bytes ++ bytesOf inputs) :
    Pasting (run p inputs) (bytes ++ bytesOf inputs) := by
  induction inputs generalizing p bytes with
  | nil => rwa [bytesOf, filterMap_nil, append_nil] at *
  | cons input inputs ih =>
    cases input with
    | timeout =>
      change Pasting (InputProcessor.run (p.take .timeout).1 inputs) _
      rw [take_timeout_pasting h]
      exact ih h hgoes
    | byte b =>
      have hbytes : bytes ++ bytesOf (.byte b :: inputs) = bytes ++ [b] ++ bytesOf inputs := by
        rw [append_assoc]
        rfl
      rw [hbytes] at hgoes ⊢
      refine ih (h.step fun hends => hgoes ?_) hgoes
      exact hends.trans (prefix_append _ _).isInfix

lemma Token.begins (h : Token r piece)
    (hbegin : r.pasteBegin = true) : r.data = pasteStart := by
  cases h <;> first | rfl | cases hbegin

lemma Sound.begins (h : Sound p) (hbegin : (p.process b).2.pasteBegin = true) :
    (p.process b).2.data = pasteStart ∧ Pasting (p.process b).1 [] := by
  have hsound := (h.process b).1
  have hdata : (p.process b).2.data = pasteStart := by
    rcases (h.process b).2 with ⟨hnothing, -⟩ | ⟨-, htoken⟩
    · rw [hnothing] at hbegin
      cases hbegin
    · exact htoken.begins hbegin
  have hpasting : (p.process b).1.inPaste = true ∧ (p.process b).1.pasteEndMatched = 0 := by
    revert hbegin
    unfold Processor.process
    split_ifs with hpaste
    · unfold Processor.pasted
      dsimp only
      split_ifs <;> exact nofun
    obtain ⟨state, buffer, r, htransition, -, hmoves⟩ := h.transition b
    rw [htransition]
    dsimp only
    split_ifs with hstart
    · exact fun _ => ⟨rfl, rfl⟩
    intro hbegin
    cases hmoves with
    | waits hr => rw [hr] at hbegin; cases hbegin
    | ends rest hstate hr => rw [hr] at hbegin; cases hbegin
    | other hstate hne htoken => exact absurd (htoken.begins hbegin) hne
  refine ⟨hdata, ⟨hpasting.1, hsound.paste hpasting.1, by decide, ?_, ?_, fun j hj hsuffix => ?_⟩⟩
  · rw [hpasting.2]
    decide
  · rw [hpasting.2]
    exact nil_suffix
  have hlen := hsuffix.length_le
  rw [length_take, length_nil] at hlen
  have hsix : pasteEnd.length = 6 := rfl
  omega

lemma Token.head (h : Token r piece) (hpaste : r.paste = false)
    (hlong : 1 < r.data.length) : r.data.head? = some esc ∨ r.data.head? = some ctrlA := by
  cases h with
  | pasted b => cases hpaste
  | start => cases hpaste
  | toggle => exact absurd hlong (by decide)
  | literal => exact absurd hlong (by decide)
  | pair b => exact .inr rfl
  | sequence rest => exact .inl rfl
  | single b => exact absurd hlong (Nat.lt_irrefl 1)

end C1auncher.TermIme.Keyboard
