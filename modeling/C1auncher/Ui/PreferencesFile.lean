import C1auncher.Ui.Preferences

/-!
The file of the preferences: what was written is read back, and a save that fails leaves a complete
file.
-/

namespace C1auncher.Ui.PreferencesFile

open CString Durable Durable.Prog Utf8Bytes List Option
open Ui.LockText Ui.Preferences
open C1auncher.JsonParser (literal)

/-! ### Numbers -/

lemma toNat_lt_of_isDigit {c : Char} (h : c.isDigit) : 48 ≤ c.toNat ∧ c.toNat ≤ 57 := by
  simp only [Char.isDigit, Bool.and_eq_true, decide_eq_true_eq] at h
  exact h

/-- The bytes of a number without its sign. -/
def digitBytes (n : ℕ) : Bytes := (Nat.toDigits 10 n).map fun c => UInt8.ofNat c.toNat

lemma encode_toDigits (n : ℕ) : encode (Nat.toDigits 10 n) = digitBytes n := by
  refine encode_eq_map fun c hc => ?_
  have := toNat_lt_of_isDigit (Nat.isDigit_of_mem_toDigits (b := 10) (by omega) (by omega) hc)
  omega

variable {n : ℕ} {p : Preferences}

lemma digitBytes_mem {b : UInt8} (h : b ∈ digitBytes n) : 48 ≤ b.toNat ∧ b.toNat ≤ 57 := by
  obtain ⟨c, hc, rfl⟩ := List.mem_map.mp h
  have := toNat_lt_of_isDigit (Nat.isDigit_of_mem_toDigits (b := 10) (by omega) (by omega) hc)
  rw [toNat_byte (by omega)]
  exact this

lemma digitBytes_ne_nil (n : ℕ) : digitBytes n ≠ [] := by
  simp [digitBytes, Nat.toDigits_ne_nil]

lemma isDigit_digitBytes : ∀ b ∈ digitBytes n, isDigit b := by
  intro b hb
  obtain ⟨hlow, hhigh⟩ := digitBytes_mem hb
  simp only [isDigit, Bool.and_eq_true, decide_eq_true_eq, UInt8.le_iff_toNat_le]
  exact ⟨hlow, hhigh⟩

lemma map_digitBytes (n : ℕ) :
    (digitBytes n).map (fun b => Char.ofNat b.toNat) = Nat.toDigits 10 n := by
  rw [digitBytes, List.map_map]
  calc (Nat.toDigits 10 n).map
        ((fun b : UInt8 => Char.ofNat b.toNat) ∘ fun c => UInt8.ofNat c.toNat)
      = (Nat.toDigits 10 n).map id := map_congr_left fun c hc => by
        have := toNat_lt_of_isDigit (Nat.isDigit_of_mem_toDigits (b := 10) (by omega) (by omega) hc)
        simp only [Function.comp, toNat_byte (show c.toNat < 256 by omega), Char.ofNat_toNat, id]
    _ = Nat.toDigits 10 n := List.map_id _

lemma number_digits {negative : Bool} {text : Bytes}
    (h : sign (text.dropWhile isSpace) = (negative, digitBytes n)) {min max : ℤ}
    (hmin : min ≤ if negative then -(n : ℤ) else n)
    (hmax : (if negative then -(n : ℤ) else n) ≤ max) :
    number text min max = some (if negative then -(n : ℤ) else n) := by
  have hall : ∀ b ∈ digitBytes n, isDigit b = true := isDigit_digitBytes
  have htake : (digitBytes n).takeWhile isDigit = digitBytes n :=
    List.takeWhile_eq_self_iff.mpr hall
  have hdrop : (digitBytes n).dropWhile isDigit = [] := List.dropWhile_eq_nil_iff.mpr hall
  unfold number
  simp only [h, htake, hdrop, map_digitBytes, Nat.ofDigitChars_ten_toDigits]
  rw [if_neg (by simp [digitBytes_ne_nil]), if_neg (by omega)]

/-- **A number that is printed is read back**, within its limits. -/
lemma number_integer {n min max : ℤ} (hmin : min ≤ n) (hmax : n ≤ max) :
    number (integer n) min max = some n := by
  by_cases hn : n < 0
  · have hbytes : integer n = 45 :: digitBytes n.natAbs := by
      rw [integer, literal, if_pos hn, encode_cons, encode_toDigits]
      rfl
    have habs : (if true then -(n.natAbs : ℤ) else n.natAbs) = n := by
      rw [if_pos rfl]
      omega
    have hsign : sign ((integer n).dropWhile isSpace) = (true, digitBytes n.natAbs) := by
      rw [hbytes]
      rfl
    calc number (integer n) min max = some (if true then -(n.natAbs : ℤ) else n.natAbs) :=
          number_digits hsign (by rw [habs]; exact hmin) (by rw [habs]; exact hmax)
      _ = some n := by rw [habs]
  · have hbytes : integer n = digitBytes n.natAbs := by
      rw [integer, literal, if_neg hn, encode_toDigits]
    obtain ⟨b, rest, hb⟩ := exists_cons_of_ne_nil (digitBytes_ne_nil n.natAbs)
    have hdigit := digitBytes_mem (show b ∈ digitBytes n.natAbs by simp [hb])
    have hspace : isSpace b = false := by
      simp only [isSpace, Bool.or_eq_false_iff, Bool.and_eq_false_iff, beq_eq_false_iff_ne, ne_eq,
        decide_eq_false_iff_not, UInt8.le_iff_toNat_le, ← UInt8.toNat_inj, UInt8.reduceToNat]
      omega
    have hsign : sign ((integer n).dropWhile isSpace) = (false, digitBytes n.natAbs) := by
      rw [hbytes, hb, dropWhile_cons_of_neg (by simp [hspace]), sign]
      · rintro text ⟨⟩
        exact absurd hdigit (by decide)
      · rintro text ⟨⟩
        exact absurd hdigit (by decide)
    have habs : (if false then -(n.natAbs : ℤ) else n.natAbs) = n := by
      rw [if_neg (by simp)]
      omega
    calc number (integer n) min max = some (if false then -(n.natAbs : ℤ) else n.natAbs) :=
          number_digits hsign (by rw [habs]; exact hmin) (by rw [habs]; exact hmax)
      _ = some n := by rw [habs]

/-! ### Lines -/

/-- No byte of a value is a control character, and a line has room for it. -/
structure Clean (value : Bytes) : Prop where
  high : ∀ b ∈ value, 32 ≤ b.toNat
  length_le : value.length ≤ 192

lemma fgets_line {content : Bytes} (h : 10 ∉ content) (hlen : content.length < 255) (rest : Bytes) :
    fgets (content ++ 10 :: rest) = some (content ++ [10], rest, false) := by
  obtain ⟨n, hn⟩ : ∃ n, 255 - content.length = n + 1 := ⟨254 - content.length, by omega⟩
  have hall : ∀ b ∈ content, decide (b ≠ 10) = true := by
    intro b hb
    simp only [ne_eq, decide_not, Bool.not_eq_true', decide_eq_false_iff_not]
    rintro rfl
    exact h hb
  have hwindow : (content ++ 10 :: rest).take 255 = content ++ 10 :: rest.take n := by
    rw [take_append, take_of_length_le (by omega), hn, take_succ_cons]
  have hbody : (content ++ 10 :: rest.take n).takeWhile (· ≠ 10) = content := by
    rw [takeWhile_append_of_pos hall]
    simp
  have hdrop : (content ++ 10 :: rest).drop (content.length + 1) = rest := by
    rw [drop_append, drop_of_length_le (by omega)]
    simp
  unfold fgets
  simp only [hwindow, hbody, hdrop]
  rw [if_neg (by simp), if_pos (by simp)]

lemma lineText_line {content : Bytes} (h : ∀ b ∈ content, 32 ≤ b.toNat) :
    lineText (content ++ [10]) false = some content := by
  have hne : ∀ {b : UInt8}, 32 ≤ b.toNat → b ≠ 0 ∧ b ≠ 13 := by
    intro b hb
    constructor <;> rintro rfl <;> exact absurd hb (by decide)
  have hall : ∀ b ∈ content ++ [10], decide (b ≠ 0) = true := by
    intro b hb
    rcases List.mem_append.mp hb with hb | hb
    · simpa using (hne (h b hb)).1
    · rw [List.mem_singleton.mp hb]
      decide
  have hstring : cString (content ++ [10]) = content ++ [10] :=
    List.takeWhile_eq_self_iff.mpr hall
  have hlast : ¬ content.getLast? = some 13 := fun hl =>
    (hne (h 13 (mem_of_getLast? hl))).2 rfl
  unfold lineText
  simp only [hstring, getLast?_concat, if_true, dropLast_concat, map_some, if_neg hlast]

lemma high_of_all {value : Bytes} (h : value.all (32 ≤ ·) = true) : ∀ b ∈ value, 32 ≤ b.toNat :=
  fun b hb => UInt8.le_iff_toNat_le.mp (of_decide_eq_true (List.all_eq_true.mp h b hb))

lemma name_spec (key : Key) : key.name ≠ [] ∧ key.name.head? ≠ some 35 ∧ 61 ∉ key.name ∧
    (∀ b ∈ key.name, 32 ≤ b.toNat) ∧ key.name.length ≤ 18 ∧ keyOf key.name = some key := by
  refine ⟨?_, ?_, ?_, high_of_all ?_, ?_, ?_⟩ <;> cases key <;> decide

lemma readLine_field (p : Preferences) (key : Key) {value : Bytes} (h : Clean value) :
    readLine p (key.name ++ 61 :: value ++ [10]) false = setField p key.name value := by
  obtain ⟨hne, hhead, heq, hhigh, -, -⟩ := name_spec key
  have hcontent : ∀ b ∈ key.name ++ 61 :: value, 32 ≤ b.toNat := by
    intro b hb
    rcases List.mem_append.mp hb with hb | hb
    · exact hhigh b hb
    rcases List.mem_cons.mp hb with rfl | hb
    · decide
    · exact h.high b hb
  have hall : ∀ b ∈ key.name, decide (b ≠ 61) = true := by
    intro b hb
    simp only [ne_eq, decide_not, Bool.not_eq_true', decide_eq_false_iff_not]
    rintro rfl
    exact heq hb
  have hstart : ¬((key.name ++ 61 :: value).head? = none ∨
      (key.name ++ 61 :: value).head? = some 35) := by
    obtain ⟨b, name, hname⟩ := exists_cons_of_ne_nil hne
    rw [hname] at hhead ⊢
    simpa using hhead
  have htake : (key.name ++ 61 :: value).takeWhile (· ≠ 61) = key.name := by
    rw [takeWhile_append_of_pos hall]
    simp
  have hdrop : (key.name ++ 61 :: value).dropWhile (· ≠ 61) = 61 :: value := by
    rw [dropWhile_append_of_pos hall]
    simp
  rw [readLine, lineText_line hcontent]
  simp only [bind_eq_bind, bind_some, htake, hdrop]
  rw [if_neg hstart, if_pos (by simp)]
  rfl

lemma readLines_field (p : Preferences) (field : Key × Bytes) (h : Clean field.2) (fuel : ℕ)
    (rest : Bytes) : readLines (fuel + 1) p (fieldLine field ++ rest) =
      (setField p field.1.name field.2).bind fun p => readLines fuel p rest := by
  obtain ⟨hne, hhead, heq, hhigh, hlen, -⟩ := name_spec field.1
  have hnewline : 10 ∉ field.1.name ++ 61 :: field.2 := by
    rw [mem_append, mem_cons]
    rintro (hb | hb | hb)
    · exact absurd (hhigh 10 hb) (by decide)
    · exact absurd hb (by decide)
    · exact absurd (h.high 10 hb) (by decide)
  have hsize : (field.1.name ++ 61 :: field.2).length < 255 := by
    have := h.length_le
    rw [length_append, length_cons]
    omega
  rw [readLines, fieldLine, append_assoc, singleton_append, fgets_line hnewline hsize]
  simp only [readLine_field p field.1 h]

/-- **The lines are read one by one**, each setting its field. -/
lemma readLines_fields : ∀ {fs : List (Key × Bytes)} {p q : Preferences} {fuel : ℕ},
    (∀ field ∈ fs, Clean field.2) → fs.length < fuel →
    fs.foldlM (fun p field => setField p field.1.name field.2) p = some q →
    readLines fuel p (fs.flatMap fieldLine) = some q
  | [], p, q, fuel, _, hfuel, h => by
    obtain rfl : p = q := by simpa using h
    obtain ⟨fuel, rfl⟩ : ∃ n, fuel = n + 1 := ⟨fuel - 1, by omega⟩
    simp [readLines, fgets]
  | field :: fs, p, q, fuel, hclean, hfuel, h => by
    obtain ⟨fuel, rfl⟩ : ∃ n, fuel = n + 1 := ⟨fuel - 1, by omega⟩
    rw [foldlM_cons] at h
    obtain ⟨p', hset, h⟩ := Option.bind_eq_some_iff.mp h
    rw [flatMap_cons, readLines_field p field (hclean field (by simp)), hset, bind_some]
    refine readLines_fields (fun f hf => hclean f (by simp [hf])) ?_ h
    rw [length_cons] at hfuel
    omega

/-! ### Fields -/

lemma keyOf_name (key : Key) : keyOf key.name = some key := (name_spec key).2.2.2.2.2

lemma eq_of_le {n bound : UInt32} (h : n ≤ bound) : n.toNat ≤ bound.toNat :=
  UInt32.le_iff_toNat_le.mp h

lemma setField_language (p : Preferences) {language : UInt32} (h : language ≤ languageEn) :
    setField p Key.language.name (if language = languageEn then ascii "en" else ascii "zh") =
      some { p with language := language } := by
  have hle := eq_of_le h
  simp only [languageEn, UInt32.reduceToNat] at hle
  simp only [setField, keyOf_name]
  by_cases hen : language = languageEn
  · rw [if_pos hen, if_neg (by decide), if_pos rfl, hen]
  have hzh : language = languageZh := by
    rw [← UInt32.toNat_inj] at hen ⊢
    simp only [languageEn, languageZh, UInt32.reduceToNat] at hen ⊢
    omega
  rw [if_neg hen, if_pos rfl, hzh]

lemma setField_powerMode (p : Preferences) {mode : UInt32} (h : mode ≤ powerModePerformance) :
    setField p Key.powerMode.name (modeName mode) = some { p with powerMode := mode } := by
  have hle := eq_of_le h
  have hcases : mode = powerModeSaving ∨ mode = powerModeStandard ∨
      mode = powerModePerformance := by
    simp only [← UInt32.toNat_inj, powerModeSaving, powerModeStandard, powerModePerformance,
      UInt32.reduceToNat] at hle ⊢
    omega
  rcases hcases with rfl | rfl | rfl
  · rw [show modeName powerModeSaving = ascii "saving" from rfl]
    simp only [setField, keyOf_name, if_true]
  · rw [show modeName powerModeStandard = ascii "standard" from rfl]
    simp only [setField, keyOf_name]
    rw [if_neg (by decide), if_pos trivial]
  rw [show modeName powerModePerformance = ascii "performance" from rfl]
  simp only [setField, keyOf_name]
  rw [if_neg (by decide), if_neg (by decide), if_pos trivial]

lemma setField_idleMinutes (p : Preferences) (h : n ≤ 1440) :
    setField p Key.idleMinutes.name (integer n) = some p := by
  have hread : number (integer n) 0 1440 = some (n : ℤ) := number_integer (by omega) (by omega)
  simp only [setField, keyOf_name, hread, map_some]

lemma setField_suspendSeconds (p : Preferences) (b : Bool) :
    setField p Key.suspendSeconds.name (flag b) = some p := by
  have hread : number (flag b) 0 86400 = some (if b then 1 else 0) :=
    number_integer (by split <;> decide) (by split <;> decide)
  simp only [setField, keyOf_name, hread, map_some]

lemma setField_shutdownMinutes (p : Preferences) (h : n ≤ 10080) :
    setField p Key.shutdownMinutes.name (integer n) = some p := by
  have hread : number (integer n) 0 10080 = some (n : ℤ) := number_integer (by omega) (by omega)
  simp only [setField, keyOf_name, hread, map_some]

lemma setField_lockStyle (p : Preferences) {style : UInt32} (h : style ≤ lockCalendar) :
    setField p Key.lockStyle.name (integer style.toNat) = some { p with lockStyle := style } := by
  have hle := eq_of_le h
  simp only [lockCalendar, UInt32.reduceToNat] at hle
  have hread : number (integer style.toNat) 0 3 = some (style.toNat : ℤ) :=
    number_integer (by omega) (by omega)
  simp only [setField, keyOf_name, hread, map_some, Int.toNat_natCast, UInt32.ofNat_toNat]

lemma setField_utcOffsetMinutes (p : Preferences) {n : ℤ} (h : -720 ≤ n) (h' : n ≤ 840)
    (h15 : n.tmod 15 = 0) : setField p Key.utcOffsetMinutes.name (integer n) =
      some { p with utcOffsetMinutes := n } := by
  simp only [setField, keyOf_name, number_integer h h', bind_eq_bind, bind_some]
  rw [if_neg (not_not.mpr h15)]

lemma number_flag (b : Bool) : number (flag b) 0 1 = some (if b then 1 else 0) :=
  number_integer (by split <;> decide) (by split <;> decide)

lemma decide_flag (b : Bool) : decide ((if b then (1 : ℤ) else 0) ≠ 0) = b := by
  cases b <;> rfl

lemma setField_networkTime (p : Preferences) (b : Bool) :
    setField p Key.networkTime.name (flag b) = some { p with networkTime := b } := by
  simp only [setField, keyOf_name, number_flag, map_some, decide_flag]

lemma setField_terminalEnabled (p : Preferences) (b : Bool) :
    setField p Key.terminalEnabled.name (flag b) = some { p with terminalEnabled := b } := by
  simp only [setField, keyOf_name, number_flag, map_some, decide_flag]

lemma setField_backgroundChecks (p : Preferences) (b : Bool) :
    setField p Key.backgroundChecks.name (flag b) = some { p with backgroundChecks := b } := by
  simp only [setField, keyOf_name, number_flag, map_some, decide_flag]

lemma setField_lockText (p : Preferences) {value : Bytes} (h : validText value) :
    setField p Key.lockText.name value = some { p with lockText := p.lockText.write value } := by
  simp only [setField, keyOf_name, h, if_true]

/-- What a reader has of preferences that were written: all the fields, and the string in the
array. -/
def reread (p : Preferences) : Preferences :=
  { p with lockText := default.lockText.write p.lockText.text }

lemma powerSettings_le (mode : UInt32) :
    (powerSettings mode).lockMinutes ≤ 5 ∧ (powerSettings mode).shutdownMinutes ≤ 5 := by
  unfold powerSettings
  split_ifs <;> decide

lemma exists_text (h : accepted p) :
    ∃ text rest, Fits text ∧ p.lockText.bytes = encode text ++ 0 :: rest ∧
      p.lockText.text = encode text := by
  obtain ⟨text, rest, hfits, hbytes⟩ := exists_terminated (le_of_eq p.lockText.length_eq.symm) h.1
  refine ⟨text, rest, hfits, hbytes, ?_⟩
  rw [TextArray.text, hbytes, cString_encode hfits.printable]

lemma validText_text {text : Text} (h : Fits text) : validText (encode text) := by
  refine validText_iff.mpr ⟨text, h, ?_⟩
  rw [take_of_length_le (le_of_lt h.size), cString]
  refine List.takeWhile_eq_self_iff.mpr fun b hb => ?_
  simpa using encode_ne_zero h.printable b hb

lemma foldlM_fields (h : accepted p) :
    (fields p).foldlM (fun q field => setField q field.1.name field.2) default =
      some (reread p) := by
  obtain ⟨text, rest, hfits, -, htext⟩ := exists_text h
  obtain ⟨-, hlanguage, hstyle, hmode, hmin, hmax, h15⟩ := h
  obtain ⟨hlock, hshutdown⟩ := powerSettings_le p.powerMode
  simp only [fields, foldlM_cons, foldlM_nil, setField_language _ hlanguage,
    setField_powerMode _ hmode, setField_idleMinutes _ (le_trans hlock (by decide)),
    setField_suspendSeconds, setField_shutdownMinutes _ (le_trans hshutdown (by decide)),
    setField_lockStyle _ hstyle, setField_utcOffsetMinutes _ hmin hmax h15, setField_networkTime,
    htext, setField_lockText _ (validText_text hfits), setField_terminalEnabled,
    setField_backgroundChecks, bind_eq_bind, bind_some]
  rw [reread, htext]
  rfl

/-! ### The round trip -/

lemma high_of_printable {text : Text} (h : ∀ c ∈ text, Printable c) :
    ∀ b ∈ encode text, 32 ≤ b.toNat := by
  intro b hb
  by_contra hlow
  have hlt : b.toNat < 32 := not_le.mp hlow
  have hmem := (h _ (mem_of_ascii hb (UInt8.lt_iff_toNat_lt.mpr (lt_trans hlt (by decide))))).1
  have hvalid : b.toNat.isValidChar := .inl (by omega)
  rw [Char.ofNat, dif_pos hvalid] at hmem
  exact hlow hmem

lemma clean_integer {n : ℤ} (h : n.natAbs ≤ 1440) : Clean (integer n) := by
  have hdigits : (digitBytes n.natAbs).length ≤ 4 := by
    rw [digitBytes, length_map]
    exact (Nat.length_toDigits_le_iff (by omega) (by omega)).mpr (by omega)
  by_cases hn : n < 0
  · rw [integer, literal, if_pos hn, encode_cons, encode_toDigits]
    refine ⟨?_, ?_⟩
    · intro b hb
      rcases List.mem_append.mp hb with hb | hb
      · rw [List.mem_singleton.mp hb]
        decide
      · exact le_trans (by decide) (digitBytes_mem hb).1
    · rw [length_append, show String.utf8EncodeChar '-' = [45] by decide,
        length_singleton]
      omega
  · rw [integer, literal, if_neg hn, encode_toDigits]
    exact ⟨fun b hb => le_trans (by decide) (digitBytes_mem hb).1, by omega⟩

lemma clean_flag (b : Bool) : Clean (flag b) := clean_integer (by split <;> decide)

lemma clean_fields (h : accepted p) : ∀ field ∈ fields p, Clean field.2 := by
  obtain ⟨text, rest, hfits, -, htext⟩ := exists_text h
  obtain ⟨-, hlanguage, hstyle, hmode, hmin, hmax, h15⟩ := h
  obtain ⟨hlock, hshutdown⟩ := powerSettings_le p.powerMode
  have hstyle' := eq_of_le hstyle
  simp only [lockCalendar, UInt32.reduceToNat] at hstyle'
  have hlanguages : Clean (if p.language = languageEn then ascii "en" else ascii "zh") := by
    split <;> exact ⟨high_of_all (by decide), by decide⟩
  have hmodes : Clean (modeName p.powerMode) := by
    unfold modeName
    split_ifs <;> exact ⟨high_of_all (by decide), by decide⟩
  have htexts : Clean p.lockText.text := by
    have hsize := hfits.size
    rw [htext]
    exact ⟨high_of_printable hfits.printable, by simp only [lockTextBytes] at hsize; omega⟩
  simp only [fields, forall_mem_cons, not_mem_nil, false_imp_iff, implies_true, and_true]
  exact ⟨hlanguages, hmodes, clean_integer (by omega), clean_flag _, clean_integer (by omega),
    clean_integer (by omega), clean_integer (by omega), clean_flag _, htexts, clean_flag _,
    clean_flag _⟩

lemma length_fileText (h : accepted p) :
    11 < (fileText p).length ∧ (fileText p).length ≤ 4096 := by
  have hline : ∀ field ∈ fields p,
      2 ≤ (fieldLine field).length ∧ (fieldLine field).length ≤ 212 := by
    intro field hf
    obtain ⟨-, -, -, -, hname, -⟩ := name_spec field.1
    have hlen := (clean_fields h field hf).length_le
    simp only [fieldLine, length_append, length_cons, length_nil]
    omega
  have hsum : ∀ {fs : List (Key × Bytes)},
      (∀ field ∈ fs, 2 ≤ (fieldLine field).length ∧ (fieldLine field).length ≤ 212) →
      2 * fs.length ≤ (fs.flatMap fieldLine).length ∧
        (fs.flatMap fieldLine).length ≤ 212 * fs.length := by
    intro fs
    induction fs with
    | nil => simp
    | cons field fs ih =>
      intro hall
      have h1 := hall field (by simp)
      have h2 := ih fun f hf => hall f (by simp [hf])
      rw [flatMap_cons, length_append, length_cons]
      omega
  have hboth := hsum hline
  rw [show (fields p).length = 11 from rfl] at hboth
  exact ⟨by rw [fileText]; omega, by rw [fileText]; omega⟩

lemma load_fileText (h : accepted p) :
    load ⟨true, true, true, true, true⟩ (some (fileText p)) = (true, reread p) := by
  obtain ⟨hlow, hhigh⟩ := length_fileText h
  have hread : readLines (fileText p).length default (fileText p) = some (reread p) :=
    readLines_fields (clean_fields h) hlow (foldlM_fields h)
  simp only [load, hread, Bool.not_true, Bool.false_or, Bool.or_false, Bool.and_self, if_true]
  rw [if_neg (by simpa using hhigh)]

/-! ### Saving -/

/-- What is under the name is what was there or what was to be written. -/
def Complete (p : Preferences) (d d' : Disk) : Prop :=
  d'.stored = d.stored ∨ d'.stored = some (fileText p)

lemma wp_unlink {d d' : Disk} (h : Complete p d d') :
    wp (act fun d => { d with temporary := none }) (fun _ => Complete p d) (Complete p d)
      (Complete p d) d' :=
  wp_act h h h

/-- **A save**: the preferences are there when it returns, and otherwise one of the two files. -/
lemma wp_save (p : Preferences) (pathLength cut : ℕ) (d : Disk) :
    wp (save p pathLength cut) (fun _ d' => accepted p ∧ d'.stored = some (fileText p))
      (Complete p d) (Complete p d) d := by
  refine wp_bind (wp_require (fun hp => ?_) fun _ => .inl rfl)
  refine wp_bind (wp_tick ?_ (.inl rfl) (.inl rfl))
  refine wp_bind (wp_act ?_ (.inl rfl) (.inl rfl))
  refine wp_orElse ?_
  -- until the rename nothing happens to the name
  have hold : ∀ {d' : Disk}, d'.stored = d.stored →
      wp (act fun d => { d with temporary := none }) (fun _ => Complete p d) (Complete p d)
        (Complete p d) d' := fun h => wp_unlink (.inl h)
  refine wp_bind (wp_tick ?_ (hold rfl) (.inl rfl))
  have hprinted : wp (attempt (do
        act fun d => { d with temporary := some ((fileText p).take cut) }
        act fun d => { d with temporary := some (fileText p) }))
      (fun (o : Option Unit) d' => d'.stored = d.stored ∧
        (o.isSome → d'.temporary = some (fileText p)))
      (fun d' => d'.stored = d.stored) (fun d' => d'.stored = d.stored)
      ({ d with temporary := some [] } : Disk) := by
    refine wp_attempt (wp_bind (wp_act (wp_act ?_ ?_ rfl) ?_ rfl))
    · exact ⟨rfl, fun _ => rfl⟩
    · exact ⟨rfl, by simp⟩
    · exact ⟨rfl, by simp⟩
  refine wp_bind (wp_mono hprinted ?_ (fun d' h => hold h) fun d' h => .inl h)
  rintro printed d' ⟨hstored, htemporary⟩
  refine wp_bind (wp_attempt (wp_tick ?_ ?_ (.inl hstored)))
  all_goals
    refine wp_bind (wp_attempt (wp_tick ?_ ?_ (.inl hstored)))
  all_goals
    refine wp_bind (wp_require (fun hall => ?_) fun _ => hold hstored)
    refine wp_bind (wp_act ?_ (hold hstored) (.inl hstored))
    have htext := htemporary hall.1
    exact wp_tick ⟨hp.1, htext⟩ (wp_unlink (.inr htext)) (.inr htext)

lemma save_returns (h : accepted p) {pathLength : ℕ} (hp : pathFits pathLength)
    (cut : ℕ) (d : Disk) : (save p pathLength cut [] d).1 = .done () := by
  have hrequire : (require (accepted p ∧ pathFits pathLength) : Prog Disk Unit) = pure () := by
    rw [require, if_pos ⟨h, hp⟩]
  unfold save
  rw [hrequire]
  rfl

/-! ### The caller -/

/-- The caller's preferences and the disk. -/
structure World where
  prefs : Preferences
  disk : Disk
  deriving DecidableEq

/-- A call of `c1_preferences_save` with the caller's preferences. -/
def callSave (w : World) (pathLength cut : ℕ) (replies : List Reply) : Bool × World :=
  match save w.prefs pathLength cut replies w.disk with
  | (.done _, disk, _) => (true, { w with disk := disk })
  | (_, disk, _) => (false, { w with disk := disk })

/-- A call of `c1_preferences_load` into the caller's preferences. -/
def callLoad (w : World) (ops : Loading) : Bool × World :=
  ((load ops w.disk.stored).1, { w with prefs := (load ops w.disk.stored).2 })

/-- The same value in every field; an array is the string in it. -/
structure Same (p q : Preferences) : Prop where
  language : p.language = q.language
  lockStyle : p.lockStyle = q.lockStyle
  powerMode : p.powerMode = q.powerMode
  utcOffsetMinutes : p.utcOffsetMinutes = q.utcOffsetMinutes
  networkTime : p.networkTime = q.networkTime
  lockText : p.lockText.text = q.lockText.text
  terminalEnabled : p.terminalEnabled = q.terminalEnabled
  backgroundChecks : p.backgroundChecks = q.backgroundChecks

inductive Reachable : Preferences → Prop
  | default : Reachable default
  | cycle {p : Preferences} (h : Reachable p) (index : Setting) (direction : ℤ) :
      Reachable (cycle p index direction)
  | lockText {p : Preferences} (h : Reachable p) (text : TextArray) (hv : validText text.bytes) :
      Reachable { p with lockText := text }

lemma same_reread (h : accepted p) : Same p (reread p) := by
  obtain ⟨text, rest, hfits, -, htext⟩ := exists_text h
  refine ⟨rfl, rfl, rfl, rfl, rfl, ?_, rfl, rfl⟩
  rw [reread, htext, TextArray.text, TextArray.write, cString_take hfits]

lemma load_failed {ops : Loading} {found : Option Bytes} (h : (load ops found).1 = false) :
    (load ops found).2 = default := by
  unfold load at h ⊢
  rcases found with _ | content
  · rfl
  simp only at h ⊢
  split
  · rfl
  next hops =>
    rw [if_neg hops] at h
    rcases hread : readLines content.length default content with _ | p
    · rfl
    rw [hread] at h
    simp only at h ⊢
    by_cases hclosed : (ops.read && ops.closed) = true
    · rw [if_pos hclosed] at h
      exact absurd h (by simp)
    · rw [if_neg hclosed]

lemma cycle_unsigned {n bound step : UInt32} (h : n ≤ bound)
    (hb : bound = 2 ∧ (step = 2 ∨ step = 1) ∨
    bound = 3 ∧ (step = 3 ∨ step = 1)) : (n + step) % (bound + 1) ≤ bound := by
  have hle := eq_of_le h
  rw [UInt32.le_iff_toNat_le, UInt32.toNat_mod, UInt32.toNat_add, UInt32.toNat_add]
  rcases hb with ⟨rfl, rfl | rfl⟩ | ⟨rfl, rfl | rfl⟩ <;>
    simp only [UInt32.reduceToNat, Nat.reduceAdd, Nat.reducePow, Nat.reduceMod] at hle ⊢ <;> omega

lemma accepted_cycle (h : accepted p) (index : Setting) (direction : ℤ) :
    accepted (cycle p index direction) := by
  obtain ⟨htext, hlanguage, hstyle, hmode, hmin, hmax, h15⟩ := h
  cases index with
  | language =>
    refine ⟨htext, ?_, hstyle, hmode, hmin, hmax, h15⟩
    simp only [cycle]
    split_ifs <;> decide
  | powerMode =>
    refine ⟨htext, hlanguage, hstyle, ?_, hmin, hmax, h15⟩
    exact cycle_unsigned hmode (.inl ⟨rfl, by split_ifs <;> simp⟩)
  | lockStyle =>
    refine ⟨htext, hlanguage, ?_, hmode, hmin, hmax, h15⟩
    exact cycle_unsigned hstyle (.inr ⟨rfl, by split_ifs <;> simp⟩)
  | timeZone =>
    have hdvd := Int.dvd_of_tmod_eq_zero h15
    have hoffset : -720 ≤ (cycle p .timeZone direction).utcOffsetMinutes ∧
        (cycle p .timeZone direction).utcOffsetMinutes ≤ 840 ∧
        (15 : ℤ) ∣ (cycle p .timeZone direction).utcOffsetMinutes := by
      simp only [cycle]
      split_ifs <;> omega
    exact ⟨htext, hlanguage, hstyle, hmode, hoffset.1, hoffset.2.1,
      Int.tmod_eq_zero_of_dvd hoffset.2.2⟩
  | networkTime => exact ⟨htext, hlanguage, hstyle, hmode, hmin, hmax, h15⟩
  | other => exact ⟨htext, hlanguage, hstyle, hmode, hmin, hmax, h15⟩

lemma Reachable.accepted (h : Reachable p) : accepted p := by
  induction h with
  | default => decide
  | cycle h index direction ih => exact accepted_cycle ih index direction
  | lockText h text hv ih => exact ⟨hv, ih.2⟩

/-- **The file of the preferences.** What was saved is loaded with the same value in every field.
Whatever the settings lead to is saved when the operations succeed. A load that fails leaves the
defaults and the file; a save that fails, wherever it does, leaves the caller's preferences and a
complete file, the old or the new. -/
theorem preferences_file (w : World) :
    (∀ pathLength cut replies, (callSave w pathLength cut replies).1 = true →
      ∀ v : World, v.disk = (callSave w pathLength cut replies).2.disk →
        (callLoad v ⟨true, true, true, true, true⟩).1 = true ∧
        Same w.prefs (callLoad v ⟨true, true, true, true, true⟩).2.prefs) ∧
    (Reachable w.prefs → ∀ pathLength cut, pathFits pathLength →
      (callSave w pathLength cut []).1 = true) ∧
    (∀ ops, (callLoad w ops).1 = false →
      (callLoad w ops).2.prefs = default ∧ (callLoad w ops).2.disk = w.disk) ∧
    (∀ pathLength cut replies, (callSave w pathLength cut replies).1 = false →
      (callSave w pathLength cut replies).2.prefs = w.prefs ∧
      Complete w.prefs w.disk (callSave w pathLength cut replies).2.disk) := by
  refine ⟨fun pathLength cut replies hok v hv => ?_, fun hr pathLength cut hp => ?_,
    fun ops hfail => ⟨load_failed hfail, rfl⟩, fun pathLength cut replies hfail => ?_⟩
  · have hends := wp_save w.prefs pathLength cut w.disk replies
    unfold callSave at hok hv
    rcases hrun : save w.prefs pathLength cut replies w.disk with ⟨_ | _ | _, disk, rest⟩
    · rw [hrun] at hv hends
      obtain ⟨haccepted, hstored⟩ := hends
      have hload : load ⟨true, true, true, true, true⟩ v.disk.stored = (true, reread w.prefs) := by
        rw [hv, hstored]
        exact load_fileText haccepted
      exact ⟨by rw [callLoad, hload], by rw [callLoad, hload]; exact same_reread haccepted⟩
    all_goals
      rw [hrun] at hok
      exact absurd hok (by simp)
  · have hrun := save_returns hr.accepted hp cut w.disk
    unfold callSave
    rcases hsave : save w.prefs pathLength cut [] w.disk with ⟨_ | _ | _, disk, rest⟩
    · rfl
    all_goals
      rw [hsave] at hrun
      exact absurd hrun (by simp)
  · have hends := wp_save w.prefs pathLength cut w.disk replies
    unfold callSave at hfail ⊢
    rcases hrun : save w.prefs pathLength cut replies w.disk with ⟨_ | _ | _, disk, rest⟩
    · rw [hrun] at hfail
      exact absurd hfail (by simp)
    all_goals
      rw [hrun] at hends
      exact ⟨rfl, hends⟩

def english : World := ⟨{ default with language := languageEn }, ⟨none, none⟩⟩

theorem preferences_file_english : (callSave english 26 0 []).1 = true ∧
    (callLoad (callSave english 26 0 []).2 ⟨true, true, true, true, true⟩).1 = true := by
  have hr : Reachable english.prefs := .cycle .default .language 1
  have hsave := (preferences_file english).2.1 hr 26 0 (by decide)
  exact ⟨hsave, ((preferences_file english).1 26 0 [] hsave _ rfl).1⟩

/-- A save that fails does not leave the defaults. -/
theorem preferences_file_kept : ¬ ∀ (w : World) (pathLength cut : ℕ) (replies : List Reply),
    (callSave w pathLength cut replies).1 = false →
      (callSave w pathLength cut replies).2.prefs = default := by
  intro h
  exact absurd (h english 26 0 [.fail] (by decide +kernel)) (by decide +kernel)

end C1auncher.Ui.PreferencesFile
