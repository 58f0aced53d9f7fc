import C1auncher.Update.BootRecovery

/-!
The record of pending boots, as `sscanf` reads it and `snprintf` writes it.

What `sscanf` takes for a record is wider than what is written, in white space, in signs and in
the digits of the number; the comparison with the text written anew leaves nothing of that.
-/

namespace C1auncher.Update.PendingRecord

open CString Update.StateStore Update.Boot List
open Update.CommitProgress Update.BootRecovery

/-! ### The scan -/

/-- `[0-9a-f]` -/
def hexDigit (c : Char) : Bool := ('0' ≤ c && c ≤ '9') || ('a' ≤ c && c ≤ 'f')

/-- `isspace` -/
def space (c : Char) : Bool := c == ' ' || ('\t' ≤ c && c ≤ '\r')

/-- `%<n>[...]`: at most `n` characters of a set, and not none. -/
def scanSet (n : ℕ) (set : Char → Bool) (text : Text) : Option (Text × Text) :=
  let run := (text.take n).takeWhile set
  if run = [] then none else some (run, text.drop run.length)

/-- `%u`: blanks, a sign and digits. What is out of range never passes for a record. -/
def scanUnsigned (text : Text) : Option (ℕ × Text) :=
  let text := text.dropWhile space
  let negative := text.head? = some '-'
  let text := if text.head? = some '-' ∨ text.head? = some '+' then text.tail else text
  let digits := text.takeWhile Char.isDigit
  let value := Nat.ofDigitChars 10 digits 0 % 2 ^ 32
  if digits = [] then none
  else some (if negative then (2 ^ 32 - value) % 2 ^ 32 else value, text.drop digits.length)

/-- What `count_pending_boot` accepts of the contents of `pending-boots.v1`. -/
def scanPendingBoots (data : Text) : Option (Text × Text × ℕ) := do
  let text := data.takeWhile (· ≠ '\x00')
  let (digest, rest) ← scanSet 64 hexDigit text
  let (previousBoot, rest) ← scanSet 36 (fun c => hexDigit c || c == '-') (rest.dropWhile space)
  let (attempts, rest) ← scanUnsigned (rest.dropWhile space)
  let consumed := text.length - rest.length
  guard (consumed + 1 = data.length ∧ data[consumed]? = some '\n')
  guard (digest.length = 64 ∧ validBootId previousBoot)
  guard (attempts ≠ 0 ∧ attempts ≤ pendingBootLimit)
  guard (pendingBootsText digest previousBoot attempts = data)
  some (digest, previousBoot, attempts)

/-! ### What is written is read back -/

lemma scanSet_append {n : ℕ} {set : Char → Bool} {run : Text} (rest : Text) (hne : run ≠ [])
    (hset : ∀ c ∈ run, set c = true) (hlen : run.length = n) :
    scanSet n set (run ++ rest) = some (run, rest) := by
  have htake : (run ++ rest).take n = run := by rw [← hlen, take_left]
  have hwhile : run.takeWhile set = run := List.takeWhile_eq_self_iff.mpr hset
  simp [scanSet, htake, hwhile, hne]

lemma scanSet_spec {n : ℕ} {set : Char → Bool} {text run rest : Text}
    (h : scanSet n set text = some (run, rest)) : ∀ c ∈ run, set c = true := by
  unfold scanSet at h
  dsimp only at h
  split_ifs at h
  cases h
  exact fun c hc => mem_takeWhile_imp hc

lemma bootId_chars {id : Text} (h : validBootId id) :
    id.length = 36 ∧ ∀ c ∈ id, (hexDigit c || c == '-') = true := by
  simp only [validBootId, Bool.and_eq_true, beq_iff_eq, all_eq_true] at h
  refine ⟨h.1, fun c hc => ?_⟩
  obtain ⟨i, hi, hget⟩ := List.mem_iff_getElem.mp hc
  have hmem : (c, i) ∈ id.zipIdx := by
    rw [mem_zipIdx_iff_getElem?, getElem?_eq_getElem hi, hget]
  have hchar := h.2 _ hmem
  dsimp only at hchar
  rw [Bool.or_eq_true]
  split_ifs at hchar
  · exact .inr hchar
  · exact .inl hchar

variable {digest bootId : Text} {attempts : ℕ}

lemma parsePendingBoots_text (hdigest : validDigest digest)
    (hboot : validBootId bootId) (hpos : 1 ≤ attempts) (hle : attempts ≤ pendingBootLimit) :
    parsePendingBoots (pendingBootsText digest bootId attempts) =
      some (digest, bootId, attempts) := by
  have hlen := length_of_validDigest hdigest
  have hlen' := (bootId_chars hboot).1
  have hshape : pendingBootsText digest bootId attempts =
      digest ++ '\n' :: (bootId ++ '\n' :: (Nat.toDigits 10 attempts ++ ['\n'])) := by
    simp [pendingBootsText]
  have htake : (pendingBootsText digest bootId attempts).take 64 = digest := by
    rw [hshape, ← hlen, take_left]
  have hdrop : ((pendingBootsText digest bootId attempts).drop 65).take 36 = bootId := by
    rw [hshape, drop_append, hlen, drop_eq_nil_of_le (by omega)]
    simp [← hlen']
  have hfind : [1, 2, 3].find? (fun n => pendingBootsText digest bootId attempts ==
      pendingBootsText digest bootId n) = some attempts := by
    have heq (m n : ℕ) : (pendingBootsText digest bootId m == pendingBootsText digest bootId n) =
        (Nat.toDigits 10 m == Nat.toDigits 10 n) := by
      rw [Bool.eq_iff_iff, beq_iff_eq, beq_iff_eq]
      simp [pendingBootsText]
    unfold pendingBootLimit at hle
    simp only [heq]
    interval_cases attempts <;> decide
  simp [parsePendingBoots, htake, hdrop, hdigest, hboot, hfind]

lemma parsePendingBoots_spec {data : Text}
    (h : parsePendingBoots data = some (digest, bootId, attempts)) :
    validDigest digest ∧ validBootId bootId := by
  simp only [parsePendingBoots, Option.bind_eq_bind, Option.bind_eq_some_iff, Option.some.injEq,
    Prod.mk.injEq] at h
  obtain ⟨_, hguard, n, -, rfl, rfl, -⟩ := h
  simpa using of_guard hguard

lemma scanPendingBoots_text (hdigest : validDigest digest)
    (hboot : validBootId bootId) (hpos : 1 ≤ attempts) (hle : attempts ≤ pendingBootLimit) :
    scanPendingBoots (pendingBootsText digest bootId attempts) =
      some (digest, bootId, attempts) := by
  have hlen := length_of_validDigest hdigest
  obtain ⟨hlen', hchars⟩ := bootId_chars hboot
  have hdigestChars : ∀ c ∈ digest, hexDigit c = true := by
    simp only [validDigest, Bool.and_eq_true, all_eq_true] at hdigest
    exact hdigest.2
  have hshape : pendingBootsText digest bootId attempts =
      digest ++ '\n' :: (bootId ++ '\n' :: (Nat.toDigits 10 attempts ++ ['\n'])) := by
    simp [pendingBootsText]
  obtain ⟨number, hnumber, hdigits⟩ : ∃ number, Nat.toDigits 10 attempts = [number] ∧
      number ≠ '\x00' ∧ (scanUnsigned ([number] ++ ['\n']) = some (attempts, ['\n'])) ∧
      space number = false := by
    unfold pendingBootLimit at hle
    interval_cases attempts
    · exact ⟨'1', by decide⟩
    · exact ⟨'2', by decide⟩
    · exact ⟨'3', by decide⟩
  obtain ⟨hnul, hunsigned, hspace⟩ := hdigits
  have hdigitNul {c : Char} (h : hexDigit c = true ∨ c = '-') : c ≠ '\x00' := by
    rintro rfl
    exact absurd h (by decide)
  have hdigitSpace {c : Char} (h : (hexDigit c || c == '-') = true) : space c = false := by
    have hle : '-' ≤ c := by
      simp only [hexDigit, Bool.or_eq_true, Bool.and_eq_true, decide_eq_true_eq, beq_iff_eq] at h
      rcases h with (⟨h, -⟩ | ⟨h, -⟩) | rfl
      · exact le_trans (by decide) h
      · exact le_trans (by decide) h
      · exact le_rfl
    have hne : c ≠ ' ' := fun hc => absurd (hc ▸ hle) (by decide)
    have hgt : ¬c ≤ '\r' := fun hc => absurd (hle.trans hc) (by decide)
    simp [space, hne, hgt]
  have htext : (pendingBootsText digest bootId attempts).takeWhile (· ≠ '\x00') =
      pendingBootsText digest bootId attempts := by
    refine List.takeWhile_eq_self_iff.mpr fun c hc => ?_
    rw [hshape, hnumber] at hc
    simp only [mem_append, mem_cons, not_mem_nil, or_false] at hc
    rw [decide_eq_true_iff]
    rcases hc with hc | rfl | hc | rfl | rfl | rfl
    · exact hdigitNul (.inl (hdigestChars c hc))
    · decide
    · exact hdigitNul (by simpa using hchars c hc)
    · decide
    · exact hnul
    · decide
  have hdrop : (bootId ++ '\n' :: ([number] ++ ['\n'])).dropWhile space =
      bootId ++ '\n' :: ([number] ++ ['\n']) := by
    rcases bootId with _ | ⟨c, rest⟩
    · simp at hlen'
    · exact dropWhile_cons_of_neg (by simp [hdigitSpace (hchars c mem_cons_self)])
  have hscan := scanSet_append (n := 64) ('\n' :: (bootId ++ '\n' :: ([number] ++ ['\n'])))
    (by rintro rfl; simp at hlen) hdigestChars hlen
  have hscan' := scanSet_append (n := 36) ('\n' :: ([number] ++ ['\n']))
    (by rintro rfl; simp at hlen') hchars hlen'
  have hnewline : space '\n' = true := by decide
  have hnumberSpace : ([number] ++ ['\n']).dropWhile space = [number] ++ ['\n'] := by
    simp [hspace]
  have hdata : pendingBootsText digest bootId attempts =
      (digest ++ '\n' :: (bootId ++ '\n' :: [number])) ++ ['\n'] := by
    rw [hshape, hnumber]
    simp
  have hend : (pendingBootsText digest bootId attempts)[(pendingBootsText digest bootId
      attempts).length - 1]? = some '\n' := by
    rw [hdata]
    simp
  have hlength : 0 < (pendingBootsText digest bootId attempts).length := by
    rw [hdata]
    simp
  rw [hnumber] at hshape
  unfold scanPendingBoots
  rw [htext]
  generalize hgen : pendingBootsText digest bootId attempts = data at *
  rw [← hshape] at hscan
  simp only [hscan, hscan', Option.bind_eq_bind, Option.bind_some, dropWhile_cons, hnewline,
    if_true, hdrop, hnumberSpace, hunsigned, length_singleton, hend, hgen, hlen, hboot]
  simp [guard, Nat.sub_add_cancel hlength, hle, Nat.one_le_iff_ne_zero.mp hpos]

/-- **Only the text that was written is accepted**: the scan and the comparison with the text
written anew take the record for what is written in it, and nothing else for a record. -/
theorem scanPendingBoots_eq (data : Text) : scanPendingBoots data = parsePendingBoots data := by
  refine Option.ext fun ⟨digest, bootId, attempts⟩ => ⟨fun h => ?_, fun h => ?_⟩
  · simp only [scanPendingBoots, Option.bind_eq_bind, Option.bind_eq_some_iff, Option.some.injEq,
      Prod.mk.injEq] at h
    obtain ⟨digest, hscan, boot, -, attempts, -, _, -, _, hguard, _, hguard', _, hguard'', rfl,
      rfl, rfl⟩ := h
    obtain ⟨hlen, hboot⟩ := of_guard hguard
    obtain ⟨hne, hle⟩ := of_guard hguard'
    have hdigest : validDigest digest.1 := by
      rw [validDigest, hlen, beq_self_eq_true, Bool.true_and]
      exact List.all_eq_true.mpr (scanSet_spec hscan)
    rw [← of_guard hguard'']
    exact parsePendingBoots_text hdigest hboot (by omega) hle
  · obtain ⟨hdigest, hboot⟩ := parsePendingBoots_spec h
    obtain ⟨hpos, hle, rfl⟩ := eq_of_parsePendingBoots h
    exact scanPendingBoots_text hdigest hboot hpos hle

end C1auncher.Update.PendingRecord
