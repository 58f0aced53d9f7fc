import C1auncher.Desktop.SummaryFields

/-!
The grammar of the summary, and the record that a text of it leads to.
-/

namespace C1auncher.Desktop.SummaryGrammar

open CString Utf8Bytes Lines List Option
open Ui.LockText Package.Label
open Desktop.Summary Desktop.SummaryFields

/-- What a text says: the identifiers are those of all its packages. -/
structure Content where
  date : Bytes
  sequence : UInt64
  zh : Bytes
  en : Bytes
  packages : List Bytes

def external (id : Bytes) : Bool := !internalPackageId id

def Content.ids (s : Content) : List Bytes := s.packages.filter external

def packageLine (id : Bytes) : Bytes := ascii "P\t" ++ id

def Content.lines (s : Content) : List Bytes :=
  (ascii "D\t" ++ s.date) :: (ascii "S\t" ++ encode (decimal s.sequence)) ::
    (ascii "Q\tzh\t" ++ s.zh) :: (ascii "Q\ten\t" ++ s.en) :: s.packages.map packageLine

def Content.text (s : Content) : Bytes := header ++ unlines 10 s.lines

/-- The record without its identifiers. -/
def Content.fields (s : Content) : Data :=
  { Data.zero with
    date := (CharArray.zero 11).strcpy s.date
    sequence := s.sequence
    quoteZh := (CharArray.zero lockTextBytes).strcpy s.zh
    quoteEn := (CharArray.zero lockTextBytes).strcpy s.en }

def addIds (d : Data) (ids : List Bytes) : Data := ids.foldl Data.addId d

/-- The record of a text. -/
def Content.data (s : Content) : Data := addIds s.fields s.ids

def IsQuote (widths : ℕ → UInt8) (quote : Bytes) : Prop :=
  ∃ text, Quote widths text ∧ quote = encode text

/-- What is accepted but for letter case. -/
structure Shape (widths : ℕ → UInt8) (s : Content) : Prop where
  date : IsDate s.date
  sequence : s.sequence ≠ 0
  zh : IsQuote widths s.zh
  en : IsQuote widths s.en
  ascii : s.en = s.zh ∨ ∀ b ∈ s.en, 32 ≤ b ∧ b ≤ 126
  ids : ∀ id ∈ s.packages, validId id
  increasing : s.packages.Pairwise fun a b => strcmp a b = .lt
  count : s.ids.length ≤ desktopPackages
  size : s.text.length ≤ bodyMax

/-- No two identifiers are equal when letter case is ignored. -/
def Distinct (ids : List Bytes) : Prop := ids.Pairwise fun a b => caseEqual a b = false

/-- **The grammar.** -/
structure Grammar (widths : ℕ → UInt8) (s : Content) : Prop extends Shape widths s where
  unique : Distinct s.packages

/-! ### Identifiers -/

variable {id quote : Bytes} {d : Data} {packages : List Bytes}

lemma idByte_of_validId (h : validId id) : ∀ b ∈ id, idByte b := by
  simp only [validId, Bool.and_eq_true, List.all_eq_true] at h
  exact h.2

lemma length_of_validId (h : validId id) : id ≠ [] ∧ id.length ≤ 32 := by
  simp only [validId, Bool.and_eq_true, bne_iff_ne, ne_eq, decide_eq_true_eq] at h
  refine ⟨?_, h.1.1.1.1.1.1.1.2⟩
  rintro rfl
  exact h.1.1.1.1.1.1.1.1 rfl

lemma not_mem_of_validId (h : validId id) {b : UInt8} (hb : idByte b = false) :
    b ∉ id := fun hmem => by
  have := idByte_of_validId h b hmem
  rw [hb] at this
  cases this

def taken (d : Data) : List (CharArray 33) := d.ids.slots.take d.count

lemma taken_addId (id : Bytes) (hcount : d.count < desktopPackages) :
    ∃ a : CharArray 33, taken (d.addId id) = taken d ++ [a.strcpy id] := by
  have hlt : d.count < d.ids.slots.length := by rwa [d.ids.length_eq]
  refine ⟨d.ids.slots.getD d.count (CharArray.zero 33), ?_⟩
  simp only [taken, Data.addId, IdArray.strcpy]
  rw [take_add_one, take_set_of_le le_rfl, getElem?_set_self hlt]
  rfl

lemma count_addId (d : Data) (id : Bytes) : (d.addId id).count = d.count + 1 := rfl

/-- **Identifiers that are added are there**, each with its terminator. -/
lemma addIds_spec {ids : List Bytes} (hvalid : ∀ id ∈ ids, validId id)
    (hcount : d.count + ids.length ≤ desktopPackages) :
    (addIds d ids).count = d.count + ids.length ∧ ∃ arrays : List (CharArray 33),
      taken (addIds d ids) = taken d ++ arrays ∧ arrays.map CharArray.text = ids ∧
        ∀ a ∈ arrays, a.terminated := by
  induction ids generalizing d with
  | nil => exact ⟨rfl, [], by simp [addIds], rfl, by simp⟩
  | cons id ids ih =>
    rw [length_cons] at hcount
    obtain ⟨hnumber, arrays, htaken, htext, hterminated⟩ := ih (d := d.addId id)
      (fun i hi => hvalid i (by simp [hi])) (by rw [count_addId]; omega)
    have hroom : d.count < desktopPackages := by omega
    obtain ⟨a, hone⟩ := taken_addId id hroom
    have hlen : id.length < 33 := Nat.lt_succ_of_le (length_of_validId (hvalid id (by simp))).2
    have hzero : 0 ∉ id := not_mem_of_validId (hvalid id (by simp)) (by decide)
    simp only [addIds, foldl_cons] at hnumber htaken ⊢
    refine ⟨by rw [hnumber, count_addId, length_cons]; omega,
      a.strcpy id :: arrays, ?_, ?_, ?_⟩
    · rw [htaken, hone, append_assoc, singleton_append]
    · rw [map_cons, text_strcpy a hlen hzero, htext]
    · exact List.forall_mem_cons.mpr ⟨terminated_strcpy a hlen, hterminated⟩

/-- What the parser makes sure of. -/
structure Accepted (packages : List Bytes) : Prop where
  valid : ∀ id ∈ packages, validId id
  neighbours : packages.IsChain fun a b => strcmp a b = .lt ∧ caseEqual a b = false
  unique : packages.Pairwise fun a b => external a → caseEqual a b = false
  count : (packages.filter external).length ≤ desktopPackages

def after (d : Data) (packages : List Bytes) : Parsing :=
  ⟨15, packages.getLast?.getD [], addIds d (packages.filter external)⟩

lemma accepted_concat (h : Accepted packages) :
    Accepted (packages ++ [id]) ↔ validId id ∧
      (∀ last, packages.getLast? = some last → strcmp last id = .lt ∧ caseEqual last id = false) ∧
      (∀ other ∈ packages, external other → caseEqual other id = false) ∧
      (external id → (packages.filter external).length < desktopPackages) := by
  have hcount : ((packages ++ [id]).filter external).length =
      (packages.filter external).length + if external id then 1 else 0 := by
    rw [filter_append, length_append, filter_singleton]
    cases external id <;> rfl
  constructor
  · rintro ⟨hvalid, hneighbours, hunique, hlen⟩
    rw [hcount] at hlen
    refine ⟨hvalid id (by simp), fun last hlast => ?_, fun other hother => ?_, fun hid => ?_⟩
    · exact (List.isChain_append.mp hneighbours).2.2 last hlast id rfl
    · exact (List.pairwise_append.mp hunique).2.2 other hother id (by simp)
    · rw [if_pos hid] at hlen
      omega
  · rintro ⟨hvalid, hlast, hother, hlen⟩
    refine ⟨fun i hi => ?_, ?_, ?_, ?_⟩
    · rcases List.mem_append.mp hi with hi | hi
      · exact h.valid i hi
      · rwa [List.mem_singleton.mp hi]
    · refine List.isChain_append.mpr ⟨h.neighbours, isChain_singleton _, ?_⟩
      rintro last hmem i ⟨⟩
      exact hlast last hmem
    · refine List.pairwise_append.mpr ⟨h.unique, pairwise_singleton _ _,
        fun other hmem i hi => ?_⟩
      rw [List.mem_singleton.mp hi]
      exact hother other hmem
    have hle := h.count
    rw [hcount]
    split_ifs with hid
    · exact hlen hid
    · exact hle

/-- A record without identifiers. -/
def Bare (d : Data) : Prop := d.count = 0

lemma taken_after (hd : Bare d) (h : Accepted packages) :
    (after d packages).parsed.count = (packages.filter external).length ∧
      (taken (after d packages).parsed).map CharArray.text = packages.filter external ∧
      ∀ a ∈ taken (after d packages).parsed, a.terminated := by
  have hle := h.count
  have hnil : taken d = [] := by simp [taken, show d.count = 0 from hd]
  obtain ⟨hnumber, arrays, htaken, htext, hterminated⟩ :=
    @addIds_spec d (packages.filter external)
      (fun id hid => h.valid id (mem_of_mem_filter hid))
      (by rw [show d.count = 0 from hd]; omega)
  rw [hnil, nil_append] at htaken
  rw [show d.count = 0 from hd, Nat.zero_add] at hnumber
  exact ⟨hnumber, by rw [after, htaken, htext], by rw [after, htaken]; exact hterminated⟩

lemma after_concat (d : Data) (packages : List Bytes) (id : Bytes) : after d (packages ++ [id]) =
    ⟨15, id, if external id then (after d packages).parsed.addId id
      else (after d packages).parsed⟩ := by
  simp only [after, getLast?_concat, getD_some, filter_append,
    filter_singleton, addIds, foldl_append]
  cases external id <;> rfl

lemma last_iff (h : Accepted packages) :
    ((packages.getLast?.getD [] != []) && (caseEqual (packages.getLast?.getD []) id ||
        (strcmp (packages.getLast?.getD []) id).isGE)) = false ↔
      ∀ last, packages.getLast? = some last → strcmp last id = .lt ∧ caseEqual last id = false := by
  rcases hlast : packages.getLast? with _ | last
  · simp
  have hne : last ≠ [] := (length_of_validId (h.valid last (mem_of_getLast? hlast))).1
  have hge : (strcmp last id).isGE = false ↔ strcmp last id = .lt := by
    cases strcmp last id <;> simp [Ordering.isGE]
  simp only [getD_some, bne_iff_ne.mpr hne, Bool.true_and, Bool.or_eq_false_iff, hge,
    some.injEq, forall_eq']
  exact and_comm

lemma parsePackage_iff (hd : Bare d) (h : Accepted packages) {t : Parsing} : parsePackage (after d packages) id = some t ↔
      Accepted (packages ++ [id]) ∧ t = after d (packages ++ [id]) := by
  obtain ⟨hcount, hids, -⟩ := taken_after hd h
  rw [show (taken (after d packages).parsed).map CharArray.text =
    (after d packages).parsed.idTexts from rfl] at hids
  have hothers : ((after d packages).parsed.idTexts.any fun other => caseEqual other id) = false ↔
      ∀ other ∈ packages, external other → caseEqual other id = false := by
    rw [hids, List.any_eq_false]
    simp only [mem_filter, and_imp, Bool.not_eq_true]
  have hexternal : internalPackageId id = true ↔ external id = false := by
    simp [external]
  rw [accepted_concat h, after_concat, ← last_iff h, ← hothers, ← hcount]
  unfold parsePackage
  rw [show (after d packages).lastId = packages.getLast?.getD [] from rfl]
  generalize ((packages.getLast?.getD [] != []) && (caseEqual (packages.getLast?.getD []) id ||
    (strcmp (packages.getLast?.getD []) id).isGE)) = bad
  generalize ((after d packages).parsed.idTexts.any fun other => caseEqual other id) = taken
  by_cases hstop : validId id = true ∧ bad = false ∧ taken = false
  · obtain ⟨hvalid, rfl, rfl⟩ := hstop
    rw [if_neg (by simp [hvalid]), if_neg (by simp)]
    by_cases hid : external id = true
    · have hnot : ¬ internalPackageId id = true := by
        rw [hexternal, hid]
        simp
      rw [if_neg hnot]
      by_cases hroom : (after d packages).parsed.count < desktopPackages
      · rw [if_neg (not_le.mpr hroom), if_pos hid, some_inj, eq_comm]
        exact ⟨fun ht => ⟨⟨hvalid, rfl, rfl, fun _ => hroom⟩, ht⟩, fun h => h.2⟩
      · rw [if_pos (not_lt.mp hroom)]
        simp [hid, hroom]
    · have hfalse : external id = false := by simpa using hid
      rw [if_pos (hexternal.mpr hfalse), if_neg hid, some_inj, eq_comm]
      exact ⟨fun ht => ⟨⟨hvalid, rfl, rfl, fun h => absurd h hid⟩, ht⟩, fun h => h.2⟩
  · constructor
    · intro hsome
      split_ifs at hsome with h1 h2
      all_goals
        have hfirst : validId id = true ∧ bad = false := by simpa using h1
        exact absurd ⟨hfirst.1, hfirst.2, by simpa using h2⟩ hstop
    · rintro ⟨⟨hvalid, hbad, htaken, -⟩, -⟩
      exact absurd ⟨hvalid, hbad, htaken⟩ hstop

/-! ### Lines -/

variable {widths : ℕ → UInt8}

lemma tagged_iff {tag line : Bytes} {f : Bytes → Option Parsing} {t : Parsing} {n : ℕ}
    (h : tag.length = n) : (if 256 ≤ line.length then none
      else if tag.isPrefixOf line then f (line.drop n) else none) = some t ↔
      ∃ rest, line = tag ++ rest ∧ n + rest.length < 256 ∧ f rest = some t := by
  constructor
  · intro hsome
    split_ifs at hsome with hlen hprefix
    obtain ⟨rest, rfl⟩ := List.isPrefixOf_iff_prefix.mp hprefix
    rw [drop_left' h] at hsome
    refine ⟨rest, rfl, ?_, hsome⟩
    rw [length_append, h] at hlen
    omega
  · rintro ⟨rest, rfl, hlen, hsome⟩
    rw [if_neg (by rw [length_append, h]; omega),
      if_pos (List.isPrefixOf_iff_prefix.mpr (prefix_append tag rest)), drop_left' h,
        hsome]

lemma length_of_isDate {date : Bytes} (h : IsDate date) : date.length = 10 := by
  obtain ⟨year, month, day, -, -, -, -, -, rfl⟩ := h.exists_day
  rfl

lemma length_of_isQuote (h : IsQuote widths quote) :
    quote.length < lockTextBytes := by
  obtain ⟨text, htext, rfl⟩ := h
  exact htext.size

lemma zero_of_isQuote (h : IsQuote widths quote) : 0 ∉ quote := by
  obtain ⟨text, htext, rfl⟩ := h
  intro hmem
  exact absurd (htext.shown _ (mem_of_ascii hmem (by decide))).allowed (by decide)

lemma isQuote_iff (h : 0 ∉ quote) :
    quoteValid widths (quote ++ [0]) ↔ IsQuote widths quote := by
  rw [quoteValid_iff, cString_terminated h]
  rfl

lemma decimalNonzero_iff {s : Bytes} {n : UInt64} :
    decimalNonzero s = some n ↔ s = encode (decimal n) ∧ n ≠ 0 := by
  rw [decimalNonzero, parseU64_chars]
  simp

section Tags

variable {s t : Parsing} {line : Bytes}

lemma parseLine_date (hs : s.fields = 0) : parseLine widths s line = some t ↔
    ∃ date, line = ascii "D\t" ++ date ∧ IsDate date ∧ t = { s with
      parsed := { s.parsed with date := s.parsed.date.strcpy date }, fields := 1 } := by
  have hline : parseLine widths s line = if 256 ≤ line.length then none
      else if (ascii "D\t").isPrefixOf line then parseDate s (line.drop 2) else none := by
    simp [parseLine, hs]
  have hdate : ∀ date, parseDate s date = some t ↔ IsDate date ∧ t = { s with
      parsed := { s.parsed with date := s.parsed.date.strcpy date }, fields := 1 } := by
    intro date
    unfold parseDate
    rw [← validDate_iff, hs]
    by_cases h : validDate date <;> simp [h, eq_comm]
  rw [hline, tagged_iff (by decide)]
  refine exists_congr fun date => and_congr_right fun _ => ?_
  rw [hdate]
  exact and_iff_right_of_imp fun h => by
    rw [length_of_isDate h.1]
    decide

lemma parseLine_sequence (hs : s.fields = 1) : parseLine widths s line = some t ↔
    ∃ n, line = ascii "S\t" ++ encode (decimal n) ∧ n ≠ 0 ∧ t = { s with
      parsed := { s.parsed with sequence := n }, fields := 3 } := by
  have hline : parseLine widths s line = if 256 ≤ line.length then none
      else if (ascii "S\t").isPrefixOf line then parseSequence s (line.drop 2) else none := by
    simp [parseLine, hs]
  have hsequence : ∀ text, parseSequence s text = some t ↔ ∃ n, text = encode (decimal n) ∧
      n ≠ 0 ∧ t = { s with parsed := { s.parsed with sequence := n }, fields := 3 } := by
    intro text
    rw [parseSequence, hs, map_eq_some_iff]
    refine exists_congr fun n => ?_
    rw [decimalNonzero_iff, and_assoc, eq_comm (b := t)]
    rfl
  rw [hline, tagged_iff (by decide)]
  constructor
  · rintro ⟨text, rfl, -, h⟩
    obtain ⟨n, rfl, hn, ht⟩ := (hsequence text).mp h
    exact ⟨n, rfl, hn, ht⟩
  rintro ⟨n, rfl, hn, ht⟩
  have hlen := length_decimal n
  exact ⟨_, rfl, by omega, (hsequence _).mpr ⟨n, rfl, hn, ht⟩⟩

lemma parseLine_zh (hs : s.fields = 3) (h0 : 0 ∉ line) : parseLine widths s line = some t ↔
    ∃ quote, line = ascii "Q\tzh\t" ++ quote ∧ IsQuote widths quote ∧ t = { s with
      parsed := { s.parsed with quoteZh := s.parsed.quoteZh.strcpy quote }, fields := 7 } := by
  have hline : parseLine widths s line = if 256 ≤ line.length then none
      else if (ascii "Q\tzh\t").isPrefixOf line then parseZh widths s (line.drop 5) else none := by
    simp [parseLine, hs]
  rw [hline, tagged_iff (by decide)]
  refine exists_congr fun quote => and_congr_right fun hquote => ?_
  have hzero : 0 ∉ quote := fun h => h0 (by rw [hquote]; simp [h])
  unfold parseZh
  rw [hs]
  constructor
  · rintro ⟨-, h⟩
    split_ifs at h with hvalid
    exact ⟨(isQuote_iff hzero).mp (by simpa using hvalid), (some.inj h).symm⟩
  rintro ⟨hvalid, rfl⟩
  have hlen := length_of_isQuote hvalid
  simp only [lockTextBytes] at hlen
  refine ⟨by omega, ?_⟩
  rw [if_neg (by simp [(isQuote_iff hzero).mpr hvalid])]
  rfl

lemma parseLine_en (hs : s.fields = 7) (h0 : 0 ∉ line) : parseLine widths s line = some t ↔
    ∃ quote, line = ascii "Q\ten\t" ++ quote ∧ IsQuote widths quote ∧
      (quote = s.parsed.quoteZh.text ∨ ∀ b ∈ quote, 32 ≤ b ∧ b ≤ 126) ∧ t = { s with
      parsed := { s.parsed with quoteEn := s.parsed.quoteEn.strcpy quote }, fields := 15 } := by
  have hline : parseLine widths s line = if 256 ≤ line.length then none
      else if (ascii "Q\ten\t").isPrefixOf line then parseEn widths s (line.drop 5) else none := by
    simp [parseLine, hs]
  rw [hline, tagged_iff (by decide)]
  refine exists_congr fun quote => and_congr_right fun hquote => ?_
  have hzero : 0 ∉ quote := fun h => h0 (by rw [hquote]; simp [h])
  have hascii : ¬(quote ≠ s.parsed.quoteZh.text ∧ (quote.any fun b => b < 32 || 126 < b) = true) ↔
      quote = s.parsed.quoteZh.text ∨ ∀ b ∈ quote, 32 ≤ b ∧ b ≤ 126 := by
    rw [not_and_or, not_not, Bool.not_eq_true, List.any_eq_false]
    simp
  unfold parseEn
  rw [hs]
  constructor
  · rintro ⟨-, h⟩
    split_ifs at h with hvalid hother
    exact ⟨(isQuote_iff hzero).mp (by simpa using hvalid), hascii.mp hother,
      (some.inj h).symm⟩
  rintro ⟨hvalid, hother, rfl⟩
  have hlen := length_of_isQuote hvalid
  simp only [lockTextBytes] at hlen
  refine ⟨by omega, ?_⟩
  rw [if_neg (by simp [(isQuote_iff hzero).mpr hvalid]), if_neg (hascii.mpr hother)]
  rfl

lemma parseLine_package {d : Data} {packages : List Bytes} (hd : Bare d) (h : Accepted packages) :
    parseLine widths (after d packages) line = some t ↔ ∃ id, line = packageLine id ∧
      Accepted (packages ++ [id]) ∧ t = after d (packages ++ [id]) := by
  have hline : parseLine widths (after d packages) line = if 256 ≤ line.length then none
      else if (ascii "P\t").isPrefixOf line then parsePackage (after d packages) (line.drop 2)
      else none := by
    simp [parseLine, after]
  rw [hline, tagged_iff (by decide)]
  refine exists_congr fun id => and_congr_right fun _ => ?_
  rw [parsePackage_iff hd h]
  exact and_iff_right_of_imp fun haccepted => by
    have hle := (length_of_validId (haccepted.1.valid id (by simp))).2
    omega

end Tags

/-! ### The whole text -/

lemma Accepted.nil : Accepted [] := ⟨by simp, isChain_nil, Pairwise.nil, by simp⟩

variable {packages lines : List Bytes} {b : UInt8}

lemma Accepted.left {rest : List Bytes} (h : Accepted (packages ++ rest)) :
    Accepted packages := by
  refine ⟨fun id hid => h.valid id (by simp [hid]), h.neighbours.left_of_append,
    (List.pairwise_append.mp h.unique).1, ?_⟩
  have hle := h.count
  rw [filter_append, length_append] at hle
  omega

lemma foldlM_packages {d : Data} (hd : Bare d) {t : Parsing} : ∀ {lines packages : List Bytes},
    Accepted packages → (lines.foldlM (parseLine widths) (after d packages) = some t ↔
      ∃ more, lines = more.map packageLine ∧ Accepted (packages ++ more) ∧
        t = after d (packages ++ more))
  | [], packages, h => by
    rw [foldlM_nil]
    constructor
    · intro hsome
      obtain rfl : after d packages = t := some.inj hsome
      exact ⟨[], rfl, by simpa using h, by simp⟩
    rintro ⟨more, hlines, -, rfl⟩
    obtain rfl : more = [] := List.map_eq_nil_iff.mp hlines.symm
    simp
  | line :: lines, packages, h => by
    rw [foldlM_cons, bind_eq_bind, bind_eq_some_iff]
    constructor
    · rintro ⟨r, hr, hsome⟩
      obtain ⟨id, rfl, haccepted, rfl⟩ := (parseLine_package hd h).mp hr
      obtain ⟨more, rfl, hall, rfl⟩ := (foldlM_packages hd haccepted).mp hsome
      exact ⟨id :: more, rfl, by simpa using hall, by simp⟩
    rintro ⟨more, hlines, hall, rfl⟩
    obtain ⟨id, more, rfl⟩ : ∃ id rest, more = id :: rest := by
      rcases more with _ | ⟨id, rest⟩
      · simp at hlines
      · exact ⟨id, rest, rfl⟩
    rw [map_cons, cons.injEq] at hlines
    have hsplit : packages ++ id :: more = packages ++ [id] ++ more := by simp
    rw [hsplit] at hall ⊢
    exact ⟨_, (parseLine_package hd h).mpr ⟨id, hlines.1, hall.left, rfl⟩,
      (foldlM_packages hd hall.left).mpr ⟨more, hlines.2, hall, rfl⟩⟩

structure Accepts (widths : ℕ → UInt8) (s : Content) : Prop where
  date : IsDate s.date
  sequence : s.sequence ≠ 0
  zh : IsQuote widths s.zh
  en : IsQuote widths s.en
  ascii : s.en = s.zh ∨ ∀ b ∈ s.en, 32 ≤ b ∧ b ≤ 126
  packages : Accepted s.packages

lemma exists_line {s t : Parsing}
    (h : lines.foldlM (parseLine widths) s = some t) (hs : s.fields ≠ 15) (ht : t.fields = 15) :
    ∃ line rest r, lines = line :: rest ∧ parseLine widths s line = some r ∧
      rest.foldlM (parseLine widths) r = some t := by
  rcases lines with _ | ⟨line, rest⟩
  · obtain rfl : s = t := some.inj h
    exact absurd ht hs
  rw [foldlM_cons, bind_eq_bind, bind_eq_some_iff] at h
  obtain ⟨r, hr, h⟩ := h
  exact ⟨line, rest, r, rfl, hr, h⟩

lemma text_quote {quote : Bytes} (h : IsQuote widths quote) :
    ((CharArray.zero lockTextBytes).strcpy quote).text = quote :=
  text_strcpy _ (length_of_isQuote h) (zero_of_isQuote h)

/-- The state before the first line. -/
def start : Parsing := ⟨0, [], Data.zero⟩

lemma foldlM_lines {t : Parsing} (h0 : ∀ line ∈ lines, 0 ∉ line) :
    lines.foldlM (parseLine widths) start = some t ∧ t.fields = 15 ↔
      ∃ s : Content, Accepts widths s ∧ lines = s.lines ∧ t = after s.fields s.packages := by
  constructor
  · rintro ⟨h, ht⟩
    obtain ⟨line, lines, s, rfl, hline, h⟩ := exists_line h (by decide) ht
    obtain ⟨date, rfl, hdate, rfl⟩ := (parseLine_date rfl).mp hline
    obtain ⟨line, lines, s, rfl, hline, h⟩ := exists_line h (by simp) ht
    obtain ⟨n, rfl, hn, rfl⟩ := (parseLine_sequence rfl).mp hline
    obtain ⟨line, lines, s, rfl, hline, h⟩ := exists_line h (by simp) ht
    obtain ⟨zh, rfl, hzh, rfl⟩ := (parseLine_zh rfl (h0 _ (by simp))).mp hline
    obtain ⟨line, lines, s, rfl, hline, h⟩ := exists_line h (by simp) ht
    obtain ⟨en, rfl, hen, hascii, rfl⟩ := (parseLine_en rfl (h0 _ (by simp))).mp hline
    have hzhText : ((CharArray.zero lockTextBytes).strcpy zh).text = zh := text_quote hzh
    obtain ⟨packages, rfl, hpackages, rfl⟩ :=
      (foldlM_packages (d := (⟨date, n, zh, en, []⟩ : Content).fields) rfl Accepted.nil).mp h
    refine ⟨⟨date, n, zh, en, packages⟩, ⟨hdate, hn, hzh, hen, ?_, hpackages⟩, rfl, rfl⟩
    simpa [start, Data.zero, hzhText] using hascii
  · rintro ⟨s, ⟨hdate, hn, hzh, hen, hascii, hpackages⟩, rfl, rfl⟩
    refine ⟨?_, rfl⟩
    have hzhText := text_quote hzh
    simp only [Content.lines] at h0 ⊢
    rw [foldlM_cons, (parseLine_date (s := start) rfl).mpr ⟨s.date, rfl, hdate, rfl⟩,
      bind_eq_bind, bind_some, foldlM_cons,
      (parseLine_sequence rfl).mpr ⟨s.sequence, rfl, hn, rfl⟩, bind_eq_bind,
      bind_some, foldlM_cons,
      (parseLine_zh rfl (h0 _ (by simp))).mpr ⟨s.zh, rfl, hzh, rfl⟩, bind_eq_bind,
      bind_some, foldlM_cons,
      (parseLine_en rfl (h0 _ (by simp))).mpr ⟨s.en, rfl, hen, ?_, rfl⟩, bind_eq_bind,
      bind_some]
    · exact (foldlM_packages (d := s.fields) rfl Accepted.nil).mpr
        ⟨s.packages, rfl, hpackages, rfl⟩
    · simpa [start, Data.zero, hzhText] using hascii

/-- A byte that no line has. -/
def Control (b : UInt8) : Prop := b = 0 ∨ b = 10 ∨ b = 13

lemma control_of_isDate {date : Bytes} (h : IsDate date) (hb : Control b) :
    b ∉ date := by
  obtain ⟨year, month, day, -, -, -, -, -, rfl⟩ := h.exists_day
  have hdigit : ∀ n, digitByte n ≠ b := by
    rintro n rfl
    have hlow : 48 ≤ (digitByte n).toNat := by
      rw [digitByte, toNat_byte (by omega)]
      omega
    rcases hb with hb | hb | hb <;> rw [hb] at hlow <;> exact absurd hlow (by decide)
  have hdash : (45 : UInt8) ≠ b := by
    rintro rfl
    exact absurd hb (by unfold Control; decide)
  intro hmem
  simp only [dateBytes, mem_cons, not_mem_nil, or_false] at hmem
  rcases hmem with h | h | h | h | h | h | h | h | h | h
  all_goals first
    | exact hdigit _ h.symm
    | exact hdash h.symm

lemma control_of_decimal (n : UInt64) (hb : Control b) : b ∉ encode (decimal n) := by
  intro hmem
  rcases hb with rfl | rfl | rfl <;>
    exact absurd (decimal_isDigit (mem_of_ascii hmem (by decide))) (by decide)

lemma control_of_isQuote {quote : Bytes} (h : IsQuote widths quote) (hb : Control b) :
    b ∉ quote := by
  obtain ⟨text, htext, rfl⟩ := h
  intro hmem
  rcases hb with rfl | rfl | rfl <;>
    exact absurd (htext.shown _ (mem_of_ascii hmem (by decide))).allowed (by decide)

lemma control_of_validId {id : Bytes} (h : validId id) (hb : Control b) : b ∉ id := by
  rcases hb with rfl | rfl | rfl <;> exact not_mem_of_validId h (by decide)

lemma control_of_tag {tag rest : Bytes} (htag : 0 ∉ tag ∧ 10 ∉ tag ∧ 13 ∉ tag)
    (hb : Control b) (hrest : b ∉ rest) : b ∉ tag ++ rest := by
  rw [mem_append, not_or]
  refine ⟨?_, hrest⟩
  rcases hb with rfl | rfl | rfl
  · exact htag.1
  · exact htag.2.1
  · exact htag.2.2

lemma Accepts.control {s : Content} (h : Accepts widths s) (hb : Control b) :
    ∀ line ∈ s.lines, b ∉ line := by
  intro line hline
  simp only [Content.lines, mem_cons] at hline
  rcases hline with rfl | rfl | rfl | rfl | hline
  · exact control_of_tag (by decide) hb (control_of_isDate h.date hb)
  · exact control_of_tag (by decide) hb (control_of_decimal s.sequence hb)
  · exact control_of_tag (by decide) hb (control_of_isQuote h.zh hb)
  · exact control_of_tag (by decide) hb (control_of_isQuote h.en hb)
  · obtain ⟨id, hid, rfl⟩ := List.mem_map.mp hline
    exact control_of_tag (by decide) hb (control_of_validId (h.packages.valid id hid) hb)

lemma mem_unlines_iff (hb : b ≠ 10) :
    b ∈ unlines 10 lines ↔ ∃ line ∈ lines, b ∈ line := by
  simp [unlines, hb]

/-- **What the parser accepts, and the record it fills in.** -/
theorem parse_iff {data : Bytes} {d : Data} : parse widths data = some d ↔
    ∃ s : Content, Accepts widths s ∧ s.text.length ≤ bodyMax ∧ data = s.text ∧ d = s.data := by
  unfold parse
  constructor
  · intro h
    split_ifs at h with hbad
    simp only [not_or, not_not, not_lt] at hbad
    obtain ⟨hshort, hlong, hheader, hlast, hnul, hcr⟩ := hbad
    obtain ⟨rest, rfl⟩ : ∃ rest, data = header ++ rest :=
      ⟨data.drop header.length, by
        conv_lhs => rw [← take_append_drop header.length data, hheader]⟩
    rw [drop_left] at h
    have hrest : rest = [] ∨ rest.getLast? = some 10 := by
      rcases rest with _ | ⟨b, rest⟩
      · exact .inl rfl
      · rw [getLast?_append_of_ne_nil _ (cons_ne_nil _ _)] at hlast
        exact .inr hlast
    obtain ⟨lines, hlines, rfl⟩ := exists_unlines hrest
    have hfuel := length_le_unlines (10 : UInt8) lines
    rw [run_unlines hlines (by rw [length_append]; omega), bind_eq_bind,
      bind_eq_some_iff] at h
    obtain ⟨t, ht, h⟩ := h
    split_ifs at h with hfields
    have h0 : ∀ line ∈ lines, 0 ∉ line := fun line hline hmem =>
      hnul (mem_append_right _ (mem_unlines hline hmem))
    obtain ⟨s, hs, rfl, rfl⟩ := (foldlM_lines h0).mp ⟨ht, not_not.mp hfields⟩
    exact ⟨s, hs, hlong, rfl, (some.inj h).symm⟩
  · rintro ⟨s, hs, hsize, rfl, rfl⟩
    have hrun := ((foldlM_lines (hs.control (.inl rfl))).mpr ⟨s, hs, rfl, rfl⟩).1
    have hne : s.lines ≠ [] := by simp [Content.lines]
    have hfuel := length_le_unlines (10 : UInt8) s.lines
    have hlast : s.text.getLast? = some 10 := by
      rw [Content.text, getLast?_append_of_ne_nil _ fun h => hne (unlines_eq_nil h)]
      exact getLast?_unlines hne
    have hclean : ∀ b, b ≠ 10 → Control b → b ∉ header → b ∉ s.text := by
      intro b hb hcontrol hheader hmem
      rcases List.mem_append.mp hmem with hmem | hmem
      · exact hheader hmem
      · obtain ⟨line, hline, hmem⟩ := (mem_unlines_iff hb).mp hmem
        exact hs.control hcontrol line hline hmem
    rw [if_neg]
    · rw [Content.text, drop_left, run_unlines (hs.control (.inr (.inl rfl)))
        (by rw [length_append]; omega)]
      rw [show (⟨0, [], Data.zero⟩ : Parsing) = start from rfl, hrun]
      rfl
    simp only [not_or, not_not, not_lt]
    refine ⟨?_, hsize, ?_, hlast, hclean 0 (by decide) (.inl rfl) (by decide),
      hclean 13 (by decide) (.inr (.inr rfl)) (by decide)⟩
    · simp [Content.text]
    · simp [Content.text]

/-! ### Letter case -/

/-- The order of identifiers. -/
def Before (a b : Bytes) : Prop := strcmp a b = .lt

instance : IsTrans Bytes Before := ⟨fun _ _ _ h h' => Std.TransCmp.lt_trans h h'⟩

lemma ne_of_before {a b : Bytes} (h : Before a b) : a ≠ b := by
  rintro rfl
  have hrefl : strcmp a a = .eq := Std.ReflCmp.compare_self
  rw [Before, hrefl] at h
  cases h

lemma Accepted.increasing (h : Accepted packages) :
    packages.Pairwise Before :=
  List.isChain_iff_pairwise.mp (h.neighbours.imp fun _ _ h => h.1)

lemma caseEqual_internal {a b : Bytes} (h : caseEqual a b) :
    internalPackageId a = internalPackageId b := by
  simp only [caseEqual, beq_iff_eq] at h
  simp only [internalPackageId, caseEqual, h]

lemma Accepted.unique_ids (h : Accepted packages) :
    Distinct (packages.filter external) := by
  refine (h.unique.filter external).imp_of_mem fun ha _ hab => hab ?_
  exact (List.mem_filter.mp ha).2

lemma Accepted.unique_of_one (h : Accepted packages)
    (hone : (packages.filter internalPackageId).length ≤ 1) : Distinct packages := by
  have hinternal : packages.Pairwise fun a b =>
      internalPackageId a = true → internalPackageId b = true → False := by
    rw [← pairwise_filter]
    rcases hlist : packages.filter internalPackageId with _ | ⟨a, _ | ⟨b, rest⟩⟩
    · exact Pairwise.nil
    · exact pairwise_singleton _ _
    · rw [hlist] at hone
      simp at hone
  refine (h.unique.and hinternal).imp fun {a b} hab => ?_
  by_cases ha : external a
  · exact hab.1 ha
  by_contra hcase
  rw [Bool.not_eq_false] at hcase
  have haInternal : internalPackageId a = true := by simpa [external] using ha
  exact hab.2 haInternal (caseEqual_internal hcase ▸ haInternal)

lemma Accepts.shape {s : Content} (h : Accepts widths s) (hsize : s.text.length ≤ bodyMax) :
    Shape widths s :=
  ⟨h.date, h.sequence, h.zh, h.en, h.ascii, h.packages.valid, h.packages.increasing,
    h.packages.count, hsize⟩

lemma Grammar.accepts {s : Content} (h : Grammar widths s) : Accepts widths s := by
  have hunique : s.packages.Pairwise fun a b => external a → caseEqual a b = false :=
    h.unique.imp fun {a b} hab (_ : external a = true) => hab
  exact ⟨h.date, h.sequence, h.zh, h.en, h.ascii, h.ids, (h.increasing.and h.unique).isChain,
    hunique, h.count⟩

end C1auncher.Desktop.SummaryGrammar
