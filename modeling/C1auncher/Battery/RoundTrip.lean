import C1auncher.Battery.HistoryFile
import C1auncher.Battery.FirstReadings

/-!
A history that was observed survives being saved and loaded, and what is known of any run of
observations.
-/

namespace C1auncher.Battery.RoundTrip

open CString Battery.Samples Battery.HistoryInvariant List Nat Option
open Battery.HistoryFile Battery.FirstReadings

/-! ### One line -/

lemma takeWhile_digits {word : Text} (h : ∀ c ∈ word, c.isDigit) {c : Char}
    (hc : c.isDigit = false) (rest : Text) : (word ++ c :: rest).takeWhile Char.isDigit = word ∧
      (word ++ c :: rest).dropWhile Char.isDigit = c :: rest := by
  rw [takeWhile_append_of_pos h, dropWhile_append_of_pos h]
  simp [hc]

lemma readNumber_toDigits {n : ℕ} (h : n < 10 ^ 10) {c : Char} (hc : c.isDigit = false)
    (rest : Text) : readNumber (Nat.toDigits 10 n ++ c :: rest) = some (n, c :: rest) := by
  have hdigits : ∀ c ∈ toDigits 10 n, c.isDigit := fun c hc =>
    isDigit_of_mem_toDigits (by omega) (by omega) hc
  obtain ⟨htake, hdrop⟩ := takeWhile_digits hdigits hc rest
  have hlen : (toDigits 10 n).length ≤ 10 :=
    (length_toDigits_le_iff (by omega) (by omega)).mpr h
  rw [readNumber, htake, hdrop]
  rw [if_neg (by simp [toDigits_ne_nil]; exact hlen), ofDigitChars_ten_toDigits]

def flag (connected : Bool) : ℕ := if connected then 1 else 0

variable {p : Sample} {samples : List Sample}

lemma line_eq (h : InBounds p) :
    line p = Nat.toDigits 10 p.timestamp.toNat ++ ' ' :: (Nat.toDigits 10 p.percent ++
      ' ' :: (Nat.toDigits 10 p.power ++ ' ' ::
        (Nat.toDigits 10 (flag p.connected) ++ ['\n']))) := by
  have hpos : ¬p.timestamp < 0 := by
    have := h.1
    simp only [minTime] at this
    omega
  have habs : p.timestamp.natAbs = p.timestamp.toNat := by omega
  rw [line, if_neg hpos, habs]
  cases p.connected <;> simp [flag, toDigits_of_lt_base]

lemma readLine_line (h : InBounds p) (rest : Text) :
    readLine (line p ++ rest) =
      some ((p.timestamp.toNat, p.percent, p.power, flag p.connected), rest) := by
  obtain ⟨hmin, hmax, hpercent, hpower⟩ := h
  simp only [minTime, maxTime, plugged] at hmin hmax hpower
  have hflag : flag p.connected < 10 ^ 10 := by cases p.connected <;> decide
  rw [line_eq ⟨hmin, hmax, hpercent, hpower⟩, readLine]
  simp only [append_assoc, cons_append, nil_append, bind_eq_bind]
  rw [readNumber_toDigits (by omega) (by decide)]
  simp only [bind_some, readEnd, if_true]
  rw [readNumber_toDigits (by omega) (by decide)]
  simp only [bind_some, if_true]
  rw [readNumber_toDigits (by omega) (by decide)]
  simp only [bind_some, if_true]
  rw [readNumber_toDigits hflag (by decide)]
  rfl

lemma line_length (h : InBounds p) : (line p).length ≤ 24 := by
  obtain ⟨hmin, hmax, hpercent, hpower⟩ := h
  simp only [minTime, maxTime, plugged] at hmin hmax hpower
  have htime : (toDigits 10 p.timestamp.toNat).length ≤ 10 :=
    (length_toDigits_le_iff (by omega) (by omega)).mpr (by omega)
  have hpercent' : (toDigits 10 p.percent).length ≤ 3 :=
    (length_toDigits_le_iff (by omega) (by omega)).mpr (by omega)
  have hpower' : (toDigits 10 p.power).length ≤ 1 :=
    (length_toDigits_le_iff (by omega) (by omega)).mpr (by omega)
  have hflag : (toDigits 10 (flag p.connected)).length = 1 := by cases p.connected <;> rfl
  rw [line_eq ⟨hmin, hmax, hpercent, hpower⟩]
  simp only [length_append, length_cons, length_nil]
  omega

/-! ### All lines -/

lemma lines_eq (h : ∀ p ∈ samples, InBounds p) {bytes : Text}
    (hlen : bytes.length + 24 * samples.length < cacheBytes - 24) :
    lines bytes samples = some (bytes ++ samples.flatMap line) := by
  induction samples generalizing bytes with
  | nil => simp [lines]
  | cons p samples ih =>
    obtain ⟨hp, hrest⟩ := forall_mem_cons.mp h
    have hline := line_length hp
    rw [length_cons] at hlen
    rw [lines, if_neg (by omega), ih hrest (by rw [length_append]; omega),
      flatMap_cons, append_assoc]

lemma line_ne_nil (p : Sample) : line p ≠ [] := by simp [line]

lemma readLines_lines (h : ∀ p ∈ samples, InBounds p) {fuel : ℕ}
    (hfuel : samples.length ≤ fuel) {parsed : List Sample}
    (hlen : parsed.length + samples.length ≤ historyPoints) :
    readLines false fuel parsed (samples.flatMap line) = some (parsed ++ samples) := by
  induction samples generalizing fuel parsed with
  | nil => simp [readLines]
  | cons p samples ih =>
    obtain ⟨hp, hrest⟩ := forall_mem_cons.mp h
    rw [length_cons] at hfuel hlen
    obtain ⟨fuel, rfl⟩ : ∃ n, fuel = n + 1 := ⟨fuel - 1, by omega⟩
    obtain ⟨c, word, hword⟩ := exists_cons_of_ne_nil (line_ne_nil p)
    have hread := readLine_line hp (samples.flatMap line)
    obtain ⟨hmin, hmax, hpercent, hpower⟩ := hp
    simp only [minTime] at hmin
    have hflag : flag p.connected ≤ 1 := by cases p.connected <;> decide
    have hsample : (⟨(p.timestamp.toNat : ℤ), p.percent, p.power,
        !false && decide (flag p.connected ≠ 0)⟩ : Sample) = p := by
      have htime : (p.timestamp.toNat : ℤ) = p.timestamp := by omega
      rw [htime]
      rcases p with ⟨_, _, _, _ | _⟩ <;> rfl
    rw [flatMap_cons]
    rw [hword, cons_append] at hread ⊢
    rw [readLines, hread]
    dsimp only
    rw [if_neg (by omega), if_neg (by simp), hsample,
      ih hrest (by omega) (by rw [length_append, length_singleton]; omega)]
    · simp
    · exact cons_ne_nil _ _

lemma line_getLast (p : Sample) : (line p).getLast? = some '\n' := by
  rw [line, getLast?_append_of_ne_nil _ (cons_ne_nil _ _)]
  rfl

lemma line_zero (h : InBounds p) : '\x00' ∉ line p := by
  have hdigit : ∀ n, '\x00' ∉ toDigits 10 n := fun n hmem => by
    have := isDigit_of_mem_toDigits (by omega) (by omega) hmem
    cases this
  rw [line_eq h]
  simp [hdigit]

lemma lines_getLast (samples : List Sample) :
    (magic ++ samples.flatMap line).getLast? = some '\n' := by
  induction samples using reverseRecOn with
  | nil => rfl
  | append_singleton samples p ih =>
    rw [flatMap_append, flatMap_singleton, ← append_assoc,
      getLast?_append_of_ne_nil _ (line_ne_nil p), line_getLast]

lemma length_le_lines (samples : List Sample) : samples.length ≤ (samples.flatMap line).length := by
  induction samples with
  | nil => simp
  | cons p samples ih =>
    have hpos := length_pos_of_ne_nil (line_ne_nil p)
    rw [flatMap_cons, length_append, length_cons]
    omega

/-- **What is saved is loaded.** -/
theorem parse_lines (h : Valid samples) :
    parse (magic ++ samples.flatMap line) = some { init with samples := samples } := by
  have hzero : '\x00' ∉ magic ++ samples.flatMap line := by
    rw [mem_append, mem_flatMap]
    rintro (hmem | ⟨p, hp, hmem⟩)
    · exact absurd hmem (by decide)
    · exact line_zero (h.bounds p hp) hmem
  have hlen : (magic ++ samples.flatMap line).length =
      magic.length + (samples.flatMap line).length :=
    length_append
  have hcount := length_le_lines samples
  have hvalid : validHistory { init with samples := samples } = true := validHistory_iff.mpr h
  have hread : readLines false (magic ++ samples.flatMap line).length [] (samples.flatMap line) =
      some samples :=
    readLines_lines h.bounds (by omega) (by simpa using h.length)
  have haccepted : ¬((magic ++ samples.flatMap line).length < magic.length ∨
      '\x00' ∈ magic ++ samples.flatMap line ∨
        (magic ++ samples.flatMap line).getLast? ≠ some '\n') := by
    rintro (hshort | hmem | hne)
    · omega
    · exact hzero hmem
    · exact hne (lines_getLast samples)
  rw [parse, if_neg haccepted, take_left, drop_left]
  rw [show decide (magic = legacyMagic) = false from rfl]
  simp only [Bool.not_false, Bool.true_and, ne_eq, not_true_eq_false, decide_false, if_false,
    Bool.false_eq_true, hread, hvalid, if_true]

lemma lines_length (h : ∀ p ∈ samples, InBounds p) :
    (samples.flatMap line).length ≤ 24 * samples.length := by
  induction samples with
  | nil => simp
  | cons p samples ih =>
    obtain ⟨hp, hrest⟩ := forall_mem_cons.mp h
    have hline := line_length hp
    have := ih hrest
    rw [flatMap_cons, length_append, length_cons]
    omega

section File

variable {h : History} {path : Text} {existing : Option File} {written : Bool}

lemma lines_history (hvalid : Valid h.samples) :
    lines magic h.samples = some (magic ++ h.samples.flatMap line) ∧
      (magic ++ h.samples.flatMap line).length < cacheBytes := by
  have hcount := hvalid.length
  have hlength := lines_length hvalid.bounds
  have hmagic : magic.length = 12 := rfl
  simp only [historyPoints] at hcount
  constructor
  · apply lines_eq hvalid.bounds
    rw [cacheBytes, historyPoints]
    omega
  · rw [length_append, cacheBytes, historyPoints]
    omega

/-- A history that is saved is read back with the same samples, and nothing else. -/
theorem load_save (hvalid : Valid h.samples) {file : File}
    (hsave : save path existing h written = some file) :
    load (some file) = (true, { init with samples := h.samples }) := by
  obtain ⟨hlines, hlength⟩ := lines_history hvalid
  obtain ⟨-, hsave⟩ := ite_none_left_eq_some.mp hsave
  obtain ⟨-, hsave⟩ := ite_none_left_eq_some.mp hsave
  rw [hlines] at hsave
  obtain ⟨-, hsave⟩ := ite_none_right_eq_some.mp hsave
  obtain rfl := some_inj.mp hsave
  rw [load]
  dsimp only
  have hpos : 0 < (magic ++ h.samples.flatMap line).length := by
    rw [length_append]
    exact Nat.add_pos_left (by decide) _
  rw [if_pos (by simp only [hpos, hlength, decide_true, Bool.and_self]), parse_lines hvalid]

theorem save_succeeds (hvalid : Valid h.samples) (hpath : path ≠ [])
    (hlen : path.length + 7 < 1024)
    (hexisting : ∀ file ∈ existing, file.regular ∧ file.owned ∧ file.closed) :
    ∃ file, save path existing h true = some file := by
  have hsuffix : ".XXXXXX".length = 7 := rfl
  have hgood : ¬(existing.any fun file => !file.regular || !file.owned || !file.closed) = true := by
    rcases existing with _ | file
    · simp
    · obtain ⟨hregular, howned, hclosed⟩ := hexisting file rfl
      simp [hregular, howned, hclosed]
  rw [save, if_neg, if_neg hgood, (lines_history hvalid).1]
  · exact ⟨_, rfl⟩
  rw [validHistory_iff.mpr hvalid, hsuffix]
  simp only [hpath, Bool.not_true, Bool.false_eq_true, false_or]
  omega

end File

/-! ### Any run of observations -/

/-- **The battery history.** After any calls it is valid; it holds the first available readings
of the minutes that count, and no others; a connected sample continues its predecessor without a
break; the result of the next call tells a change of the samples; and the file keeps them. -/
theorem battery_history (calls : List Observation) :
    validHistory (after calls) = true ∧ (after calls).samples.length ≤ historyPoints ∧
    ((after calls).samples.Pairwise fun p q => p.timestamp / 60 < q.timestamp / 60) ∧
    (∀ x, x ∈ (after calls).samples.map reading ↔ ∃ i r, First calls i r ∧ observed r = x) ∧
    ((∀ p ∈ (after calls).samples.head?, p.connected = false) ∧
      (after calls).samples.IsChain (Linked calls)) ∧
    (∀ o, ((observe (after calls) o).2.samples ≠ (after calls).samples →
        (observe (after calls) o).1 = true) ∧
      (¬Rollback calls o → (observe (after calls) o).1 = true →
        (observe (after calls) o).2.samples ≠ (after calls).samples)) ∧
    (∀ path existing written file, save path existing (after calls) written = some file →
      load (some file) = (true, { init with samples := (after calls).samples })) ∧
    ∀ path existing, path ≠ [] → path.length + 7 < 1024 →
      (∀ file ∈ existing, file.regular ∧ file.owned ∧ file.closed) →
        ∃ file, save path existing (after calls) true = some file := by
  have hvalid := after_valid calls
  refine ⟨validHistory_iff.mpr hvalid, hvalid.length, chain_pairwise hvalid.chain,
    after_explained calls, ⟨hvalid.first, (after_linked calls).1⟩, observe_changed calls, ?_, ?_⟩
  · intro path existing written file hsave
    exact load_save hvalid hsave
  · intro path existing hpath hlen hexisting
    exact save_succeeds hvalid hpath hlen hexisting

/-- A reading of `percent` at a time after the clock could first be set. -/
def reads (time : ℤ) (percent : ℕ) : Observation := ⟨minTime + time, time * 1000, true, percent, 1⟩

/-- A call at this time without a reading -/
def misses (time : ℤ) : Observation := ⟨minTime + time, time * 1000, false, 0, 0⟩

def unset : Observation := ⟨0, 0, false, 0, 0⟩

def threeReadings : List Observation := [reads 0 50, reads 30 50, reads 60 49]

theorem battery_history_day :
    (after threeReadings).samples = [⟨minTime, 50, 1, false⟩, ⟨minTime + 60, 49, 1, true⟩] ∧
      (observe (after threeReadings) (reads 120 49)).2.samples ≠ (after threeReadings).samples ∧
      ∃ file, save ['h'] none (after threeReadings) true = some file ∧
        load (some file) = (true, { init with samples := (after threeReadings).samples }) := by
  obtain ⟨-, -, -, -, -, hchanged, hload, hsave⟩ := battery_history threeReadings
  obtain ⟨file, hfile⟩ := hsave ['h'] none (by decide) (by decide) (by simp)
  have hforward : ¬Rollback threeReadings (reads 120 49) := fun hrollback =>
    absurd ((rolledBack_iff (by decide)).mpr hrollback) (by decide)
  exact ⟨by decide, (hchanged _).2 hforward (by decide), file, hfile, hload _ _ _ _ hfile⟩

/-! ### A rollback behind an unset clock -/

/-- A time before the latest one that was in range. -/
def Backward (calls : List Observation) (o : Observation) : Prop :=
  o.inRange = true ∧ ∃ q ∈ (calls.filter (·.inRange)).getLast?, o.wall < q.wall

/-- The first available reading of its minute since the last rollback, in the latest 1440
minutes. -/
structure Latest (rollback : List Observation → Observation → Prop) (calls : List Observation)
    (i : ℕ) (r : Observation) : Prop where
  call : calls[i]? = some r
  inRange : r.inRange = true
  usable : r.usable = true
  since : ∀ k > i, ∀ o ∈ calls[k]?, ¬rollback (calls.take k) o
  latest : ∀ o ∈ (calls.filter (·.inRange)).getLast?, o.minute < r.minute + historyPoints

def LatestFirst (rollback : List Observation → Observation → Prop) (calls : List Observation)
    (i : ℕ) (r : Observation) : Prop :=
  Latest rollback calls i r ∧ ∀ j r', Latest rollback calls j r' → r'.minute = r.minute → i ≤ j

/-- The reading is lost: the clock was a day ahead when it was last set, and is not any more. -/
def ahead : List Observation := [reads 0 50, misses 200000, unset, reads 600 49]

/-- The reading is kept, although the clock was set back after it. -/
def setBack : List Observation := [reads 0 50, misses 1200, unset, reads 600 49]

lemma ahead_lost : LatestFirst Rollback ahead 0 (reads 0 50) ∧
    observed (reads 0 50) ∉ (after ahead).samples.map reading := by
  refine ⟨⟨⟨rfl, by decide, by decide, ?_, ?_⟩, fun _ _ _ _ => Nat.zero_le _⟩, by decide⟩
  · intro k hk o ho hrollback
    have hrange := hrollback.1
    have hback := (rolledBack_iff hrange).mpr hrollback
    have hlen := (List.getElem?_eq_some_iff.mp ho).1
    rw [ahead, length_cons, length_cons, length_cons, length_singleton] at hlen
    interval_cases k <;> obtain rfl := some_inj.mp ho <;> revert hrange hback <;> decide
  · intro o ho
    obtain rfl := some_inj.mp ho
    decide

lemma setBack_kept : observed (reads 0 50) ∈ (after setBack).samples.map reading ∧
    ¬∃ i r, LatestFirst Backward setBack i r ∧ observed r = observed (reads 0 50) := by
  refine ⟨by decide, ?_⟩
  rintro ⟨i, r, ⟨⟨hcall, hinRange, husable, hsince, hlatest⟩, -⟩, heq⟩
  have hlen := (List.getElem?_eq_some_iff.mp hcall).1
  rw [setBack, length_cons, length_cons, length_cons, length_singleton] at hlen
  have hlast : Backward (setBack.take 3) (reads 600 49) :=
    ⟨by decide, misses 1200, by decide, by decide⟩
  interval_cases i <;> obtain rfl := some_inj.mp hcall
  · exact hsince 3 (by decide) _ rfl hlast
  · cases husable
  · cases hinRange
  · cases heq

/-- **An unset clock hides a rollback**, whichever way a rollback is understood; and a rollback
that brings the same sample back is told as a change. -/
theorem battery_history_fails :
    (¬∀ calls x, x ∈ (after calls).samples.map reading ↔
      ∃ i r, LatestFirst Rollback calls i r ∧ observed r = x) ∧
    (¬∀ calls x, x ∈ (after calls).samples.map reading ↔
      ∃ i r, LatestFirst Backward calls i r ∧ observed r = x) ∧
    ¬∀ calls o, (observe (after calls) o).1 = true ↔
      (observe (after calls) o).2.samples ≠ (after calls).samples := by
  refine ⟨fun h => ?_, fun h => ?_, fun h => ?_⟩
  · exact ahead_lost.2 ((h ahead _).mpr ⟨0, _, ahead_lost.1, rfl⟩)
  · exact setBack_kept.2 ((h setBack _).mp setBack_kept.1)
  · have hresult : (observe (after [reads 0 50, misses 30]) (reads 0 50)).1 = true := by decide
    exact (h _ _).mp hresult (by decide)

end C1auncher.Battery.RoundTrip
