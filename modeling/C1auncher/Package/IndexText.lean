import C1auncher.Lines
import C1auncher.Package.DownloadList
import C1auncher.Package.Label

/-!
The text of the package index: which bytes are one, and what they list.
-/

namespace C1auncher.Package.IndexText

open CString Utf8Bytes Lines List
open Package.Version Package.Label
open C1auncher.Package.DownloadList (maxPackages)

/-- `C1PKG_INDEX_MAX` -/
def indexMax : ℕ := 256 * 1024

/-- `C1PKG_LINE_MAX` -/
def lineMax : ℕ := 1024

/-- `C1PKG_PACKAGE_MAX` -/
def packageMax : UInt64 := 32 * 1024 * 1024

/-- `struct c1pkg_package` -/
structure Package where
  id : Bytes
  version : Bytes
  name : Bytes
  author : Bytes
  archive : Bytes
  sha256 : Bytes
  size : UInt64
  entry : Bytes
  deriving DecidableEq

/-- `struct c1pkg_index` -/
structure Index where
  sequence : UInt64
  packages : List Package
  deriving DecidableEq

/-- The caller's buffer for a message, if there is one. -/
abbrev Error := Option String

/-- `c1pkg_set_error` -/
def setError (error : Error) (message : String) : Error := error.map fun _ => message

def validName (name : Bytes) : Bool := validLabel name

def validSha256 (digest : Bytes) : Bool :=
  digest.length == 64 && digest.all fun b => (48 ≤ b && b ≤ 57) || (97 ≤ b && b ≤ 102)

/-- How many fields the record of a package has. -/
def fieldCount (format : ℕ) : ℕ := if format = 2 then 9 else 8

def field (fields : List Bytes) (k : ℕ) : Bytes := fields.getD k []

def record (fields : List Bytes) (format : ℕ) (size : UInt64) : Package where
  id := field fields 1
  version := field fields 2
  name := field fields 3
  author := if format = 2 then field fields 8 else ascii "Unknown"
  archive := field fields 4
  sha256 := field fields 5
  size := size
  entry := field fields 7

/-- `parse_package_line`: the record, or the message. -/
def parsePackageLine (line : Bytes) (format : ℕ) : Except String Package :=
  let fields := line.splitOn 9
  if 9 < fields.length then .error "too many package fields"
  else
    match parseU64 (chars (field fields 6)) false with
    | none => .error "invalid package record"
    | some size =>
      if fields.length ≠ fieldCount format ∨ (format = 2 ∧ !validName (field fields 8)) ∨
          field fields 0 ≠ ascii "P" ∨ !safeId (chars (field fields 1)) ∨
          !safeVersion (chars (field fields 2)) ∨ !validName (field fields 3) ∨
          !safeRelpath (chars (field fields 4)) ∨ !validSha256 (field fields 5) ∨
          size = 0 ∨ packageMax < size ∨ !safeRelpath (chars (field fields 7)) then
        .error "invalid package record"
      else .ok (record fields format size)

/-- The local variables of `parse_index_data`, with the index. -/
structure Parsing where
  lineNumber : ℕ
  format : ℕ
  index : Index
  deriving DecidableEq

/-- The message for records that are out of order, in a buffer without one. -/
def orderError (error : Error) : Error :=
  if error = some "" then some "package IDs must be unique and sorted" else error

def parseRecord (error : Error) (s : Parsing) (line : Bytes) : Except Error Parsing :=
  if maxPackages ≤ s.index.packages.length ∨ line = [] then
    .error (setError error "empty or excessive package record")
  else
    match parsePackageLine line s.format with
    | .error message => .error (setError error message)
    | .ok package =>
      if s.index.packages.getLast?.any fun last => (strcmp last.id package.id).isGE then
        .error (orderError error)
      else .ok { s with index := { s.index with packages := s.index.packages ++ [package] } }

def parseSequence (error : Error) (s : Parsing) (line : Bytes) : Except Error Parsing :=
  if !(ascii "S\t").isPrefixOf line then .error (setError error "invalid repository sequence")
  else
    match parseU64 (chars (line.drop 2)) true with
    | none => .error (setError error "invalid repository sequence")
    | some sequence => .ok { s with index := { s.index with sequence := sequence } }

def parseHeader (error : Error) (s : Parsing) (line : Bytes) : Except Error Parsing :=
  if line = ascii "C1PKG-INDEX 2" then .ok { s with format := 2 }
  else if line ≠ ascii "C1PKG-INDEX 1" then .error (setError error "unsupported index header")
  else .ok s

/-- One round of the loop. -/
def parseLine (error : Error) (s : Parsing) (line : Bytes) : Except Error Parsing :=
  if 0 ∈ line ∨ 13 ∈ line then .error (setError error "index contains forbidden bytes")
  else if lineMax < line.length then .error (setError error "index line is too long")
  else
    let s := { s with lineNumber := s.lineNumber + 1 }
    if s.lineNumber = 1 then parseHeader error s line
    else if s.lineNumber = 2 then parseSequence error s line
    else parseRecord error s line

/-- `parse_index_data`; `allocated` is whether there is memory for the copy. -/
def parseIndexData (allocated : Bool) (input : Option Bytes) (error : Error) : Except Error Index :=
  match input with
  | none => .error (setError error "invalid index size or out of memory")
  | some data =>
    if indexMax < data.length ∨ !allocated then
      .error (setError error "invalid index size or out of memory")
    else if data.getLast? ≠ some 10 then .error (setError error "index must end with LF")
    else do
      let s ← run 10 (.error error) (parseLine error) data.length ⟨0, 1, ⟨0, []⟩⟩ data
      if s.lineNumber < 2 ∨ s.index.sequence = 0 then
        .error (setError error "missing repository sequence")
      else .ok s.index

/-- Which of the allocations succeed. -/
structure Memory where
  candidate : Bool
  data : Bool

/-- `c1pkg_repo_parse`: whether it succeeds, the caller's index and message afterwards. -/
def repoParse (memory : Memory) (data : Option Bytes) (index : Option Index) (error : Error) :
    Bool × Option Index × Error :=
  match index with
  | none => (false, none, setError error "missing index or out of memory")
  | some index =>
    if !memory.candidate then (false, some index, setError error "missing index or out of memory")
    else
      match parseIndexData memory.data data error with
      | .ok candidate => (true, some candidate, error)
      | .error error => (false, some index, error)

/-! ### Records -/

def packageFields (format : ℕ) (p : Package) : List Bytes :=
  [ascii "P", p.id, p.version, p.name, p.archive, p.sha256, encode (decimal p.size), p.entry] ++
    if format = 2 then [p.author] else []

def packageLine (format : ℕ) (p : Package) : Bytes := [9].intercalate (packageFields format p)

def IsLabel (name : Bytes) : Prop := ∃ text, LabelText text ∧ name = encode text

def IsHexDigit (b : UInt8) : Prop := (48 ≤ b ∧ b ≤ 57) ∨ (97 ≤ b ∧ b ≤ 102)

structure ValidPackage (format : ℕ) (p : Package) : Prop where
  id : safeId (chars p.id)
  version : safeVersion (chars p.version)
  name : IsLabel p.name
  author : if format = 2 then IsLabel p.author else p.author = ascii "Unknown"
  archive : safeRelpath (chars p.archive)
  sha256 : p.sha256.length = 64 ∧ ∀ b ∈ p.sha256, IsHexDigit b
  size : p.size ≠ 0 ∧ p.size ≤ packageMax
  entry : safeRelpath (chars p.entry)

lemma validSha256_iff {digest : Bytes} :
    validSha256 digest ↔ digest.length = 64 ∧ ∀ b ∈ digest, IsHexDigit b := by
  simp [validSha256, IsHexDigit]

/-! No field has a tab. -/

lemma tab_of_chars {bytes : Bytes} (h : '\t' ∉ chars bytes) : 9 ∉ bytes := fun hmem =>
  h (mem_chars hmem)

lemma tab_of_safeToken {value : Bytes} {maximum : ℕ} {version : Bool}
    (h : Version.safeToken (chars value) maximum version) : 9 ∉ value := by
  refine tab_of_chars fun hmem => ?_
  simp only [Version.safeToken, Bool.and_eq_true, all_eq_true] at h
  have htab := h.1.2 _ hmem
  cases version <;> exact absurd htab (by decide)

lemma tab_of_safeRelpath {value : Bytes} (h : safeRelpath (chars value)) : 9 ∉ value := by
  refine tab_of_chars fun hmem => ?_
  simp only [safeRelpath, Bool.and_eq_true, all_eq_true] at h
  exact absurd (h.2 _ hmem) (by decide)

lemma tab_of_isLabel {name : Bytes} (h : IsLabel name) : 9 ∉ name := by
  obtain ⟨text, htext, rfl⟩ := h
  intro hmem
  exact absurd (htext.allowed _ (mem_of_ascii hmem (by decide))) (by decide)

lemma tab_of_decimal (n : UInt64) : 9 ∉ encode (decimal n) := by
  intro hmem
  exact absurd (decimal_isDigit (mem_of_ascii hmem (by decide))) (by decide)

variable {format : ℕ} {p : Package} {fields : List Bytes} {line : Bytes} {error : Error}
  {s t : Parsing} {i : Index}

lemma ValidPackage.no_tab (h : ValidPackage format p) :
    ∀ field ∈ packageFields format p, 9 ∉ field := by
  have hauthor : ∀ field ∈ (if format = 2 then [p.author] else []), 9 ∉ field := by
    intro field hfield
    split_ifs at hfield with hf
    · rw [mem_singleton.mp hfield]
      have hlabel := h.author
      rw [if_pos hf] at hlabel
      exact tab_of_isLabel hlabel
    · simp at hfield
  have hsha : 9 ∉ p.sha256 := fun hmem => absurd (h.sha256.2 9 hmem) (by unfold IsHexDigit; decide)
  intro field hfield
  rcases mem_append.mp hfield with hfield | hfield
  · simp only [List.mem_cons, List.not_mem_nil, or_false] at hfield
    rcases hfield with rfl | rfl | rfl | rfl | rfl | rfl | rfl | rfl
    · decide
    · exact tab_of_safeToken h.id
    · exact tab_of_safeToken h.version
    · exact tab_of_isLabel h.name
    · exact tab_of_safeRelpath h.archive
    · exact hsha
    · exact tab_of_decimal p.size
    · exact tab_of_safeRelpath h.entry
  · exact hauthor field hfield

lemma exists_eight (h : fields.length = 8) :
    ∃ a b c d e f g k, fields = [a, b, c, d, e, f, g, k] := by
  rcases fields with
    _ | ⟨a, _ | ⟨b, _ | ⟨c, _ | ⟨d, _ | ⟨e, _ | ⟨f, _ | ⟨g, _ | ⟨k, _ | ⟨l, rest⟩⟩⟩⟩⟩⟩⟩⟩⟩
  all_goals first
    | exact ⟨_, _, _, _, _, _, _, _, rfl⟩
    | simp at h

lemma exists_nine (h : fields.length = 9) :
    ∃ a b c d e f g k l, fields = [a, b, c, d, e, f, g, k, l] := by
  rcases fields with _ | ⟨a, rest⟩
  · simp at h
  · obtain ⟨b, c, d, e, f, g, k, l, rfl⟩ := exists_eight (by simpa using h)
    exact ⟨_, _, _, _, _, _, _, _, _, rfl⟩

lemma length_packageFields (format : ℕ) (p : Package) :
    (packageFields format p).length = fieldCount format := by
  unfold packageFields fieldCount
  split_ifs <;> rfl

lemma splitOn_packageLine (h : ValidPackage format p) :
    (packageLine format p).splitOn 9 = packageFields format p :=
  splitOn_intercalate 9 h.no_tab (by simp [packageFields])

lemma exists_fields (h : fields.length = fieldCount format) :
    fields = [field fields 0, field fields 1, field fields 2, field fields 3, field fields 4,
      field fields 5, field fields 6, field fields 7] ++
        if format = 2 then [field fields 8] else [] := by
  unfold fieldCount at h
  split_ifs at h ⊢ with hf
  · obtain ⟨a, b, c, d, e, f, g, k, l, rfl⟩ := exists_nine h
    rfl
  · obtain ⟨a, b, c, d, e, f, g, k, rfl⟩ := exists_eight h
    rfl

lemma packageFields_record {size : UInt64}
    (hcount : fields.length = fieldCount format) (hfirst : field fields 0 = ascii "P")
    (hsize : field fields 6 = encode (decimal size)) :
    packageFields format (record fields format size) = fields := by
  conv_rhs => rw [exists_fields hcount, hfirst, hsize]
  unfold packageFields record
  by_cases hf : format = 2
  · simp only [if_pos hf]
  · simp only [if_neg hf]

lemma record_packageFields (h : ValidPackage format p) :
    record (packageFields format p) format p.size = p := by
  have hauthor := h.author
  unfold record packageFields
  by_cases hf : format = 2
  · simp only [if_pos hf]
    rfl
  rw [if_neg hf] at hauthor
  simp only [if_neg hf, ← hauthor]
  rfl

/-- **The lines that are records.** -/
theorem parsePackageLine_iff :
    parsePackageLine line format = .ok p ↔
      ValidPackage format p ∧ line = packageLine format p := by
  constructor
  · intro h
    have hline : [9].intercalate (line.splitOn 9) = line := intercalate_splitOn 9
    unfold parsePackageLine at h
    simp only at h
    generalize line.splitOn 9 = fields at h hline
    split_ifs at h with hmany
    rcases hsize : parseU64 (chars (field fields 6)) false with _ | size
    · rw [hsize] at h
      cases h
    rw [hsize] at h
    simp only at h
    split_ifs at h with hbad
    simp only [not_or, not_not, not_and, Bool.not_eq_true', Bool.not_eq_false, UInt64.not_lt]
      at hbad
    obtain ⟨hcount, hauthor, hfirst, hid, hversion, hname, harchive, hsha, hzero, hmax, hentry⟩ :=
      hbad
    obtain ⟨hdecimal, -⟩ := parseU64_chars.mp hsize
    obtain rfl := Except.ok.inj h
    refine ⟨⟨hid, hversion, validLabel_iff.mp hname, ?_, harchive, validSha256_iff.mp hsha,
      ⟨hzero, hmax⟩, hentry⟩, ?_⟩
    · split_ifs with hf
      · simp only [record, if_pos hf]
        exact validLabel_iff.mp (hauthor hf)
      · simp only [record, if_neg hf]
    · rw [packageLine, packageFields_record hcount hfirst hdecimal, hline]
  · rintro ⟨h, rfl⟩
    have hcount := length_packageFields format p
    have hrecord := record_packageFields h
    have hsize : parseU64 (chars (field (packageFields format p) 6)) false = some p.size :=
      parseU64_chars.mpr ⟨rfl, by simp⟩
    have hle : fieldCount format ≤ 9 := by
      unfold fieldCount
      split <;> decide
    unfold parsePackageLine
    simp only
    rw [splitOn_packageLine h, if_neg (by omega), hsize]
    simp only
    rw [if_neg, hrecord]
    simp only [not_or, not_not, not_and, Bool.not_eq_true', Bool.not_eq_false, UInt64.not_lt]
    refine ⟨hcount, fun hf => ?_, rfl, h.id, h.version, validLabel_iff.mpr h.name, h.archive,
      validSha256_iff.mpr h.sha256, h.size.1, h.size.2, h.entry⟩
    have hauthor := h.author
    rw [if_pos hf] at hauthor
    have hlast : field (packageFields format p) 8 = p.author := by
      simp [field, packageFields, if_pos hf]
    rw [hlast]
    exact validLabel_iff.mpr hauthor

/-! ### Lines -/

def Increasing (packages : List Package) : Prop :=
  packages.Pairwise fun p q => strcmp p.id q.id = .lt

lemma increasing_concat {packages : List Package} (h : Increasing packages) :
    Increasing (packages ++ [p]) ↔
      ∀ last, packages.getLast? = some last → strcmp last.id p.id = .lt := by
  rw [Increasing, pairwise_append]
  constructor
  · rintro ⟨-, -, hall⟩ last hlast
    exact hall last (mem_of_getLast? hlast) p (by simp)
  refine fun hlast => ⟨h, pairwise_singleton _ _, ?_⟩
  intro q hq r hr
  obtain rfl := mem_singleton.mp hr
  obtain ⟨init, last, rfl⟩ :=
    (eq_nil_or_concat' packages).resolve_left (ne_nil_of_mem hq)
  have hlt := hlast last (by simp)
  rcases mem_append.mp hq with hq | hq
  · exact Std.TransCmp.lt_trans ((List.pairwise_append.mp h).2.2 q hq last (by simp)) hlt
  · rwa [mem_singleton.mp hq]

structure LineOk (line : Bytes) : Prop where
  length_le : line.length ≤ lineMax
  nul : 0 ∉ line
  cr : 13 ∉ line

/-- The state after some records. -/
def Parsing.extend (s : Parsing) (packages : List Package) : Parsing where
  lineNumber := s.lineNumber + packages.length
  format := s.format
  index := { s.index with packages := s.index.packages ++ packages }

lemma parseLine_ok (h : parseLine error s line = .ok t) : LineOk line := by
  unfold parseLine at h
  split_ifs at h with hbytes hlength
  all_goals
    rw [not_or] at hbytes
    exact ⟨not_lt.mp hlength, hbytes.1, hbytes.2⟩

lemma parseLine_of_ok (h : LineOk line) :
    parseLine error s line =
      let s := { s with lineNumber := s.lineNumber + 1 }
      if s.lineNumber = 1 then parseHeader error s line
      else if s.lineNumber = 2 then parseSequence error s line
      else parseRecord error s line := by
  rw [parseLine, if_neg (not_or.mpr ⟨h.nul, h.cr⟩), if_neg (not_lt.mpr h.length_le)]

lemma parseRecord_iff (hs : Increasing s.index.packages) : parseRecord error s line = .ok t ↔
      ∃ p, ValidPackage s.format p ∧ line = packageLine s.format p ∧
        s.index.packages.length < maxPackages ∧ Increasing (s.index.packages ++ [p]) ∧
        t = { s with index := { s.index with packages := s.index.packages ++ [p] } } := by
  have hne : ∀ p, packageLine s.format p ≠ [] := by
    intro p h
    have hlen := congrArg List.length h
    simp [packageLine, packageFields, ascii, intercalate] at hlen
  unfold parseRecord
  constructor
  · intro h
    split_ifs at h with hfull
    rw [not_or, not_le] at hfull
    rcases hp : parsePackageLine line s.format with message | p
    · rw [hp] at h
      cases h
    rw [hp] at h
    simp only at h
    split_ifs at h with horder
    obtain ⟨hvalid, hline⟩ := parsePackageLine_iff.mp hp
    refine ⟨p, hvalid, hline, hfull.1, (increasing_concat hs).mpr ?_, (Except.ok.inj h).symm⟩
    intro last hlast
    rw [hlast, Option.any_some] at horder
    rcases hcmp : strcmp last.id p.id with _ | _ | _
    · rfl
    all_goals
      rw [hcmp] at horder
      exact absurd rfl horder
  · rintro ⟨p, hvalid, rfl, hfull, horder, rfl⟩
    rw [if_neg (not_or.mpr ⟨not_le.mpr hfull, hne p⟩), parsePackageLine_iff.mpr ⟨hvalid, rfl⟩]
    simp only
    rw [if_neg]
    rcases hlast : s.index.packages.getLast? with _ | last
    · simp
    · rw [Option.any_some, (increasing_concat hs).mp horder last hlast]
      decide

lemma bind_eq_ok_iff {ε α β : Type} {x : Except ε α} {f : α → Except ε β} {b : β} :
    (x >>= f) = .ok b ↔ ∃ a, x = .ok a ∧ f a = .ok b := by
  cases x with
  | error e => simp [bind, Except.bind]
  | ok a => simp [bind, Except.bind]

lemma Parsing.extend_extend (s : Parsing) (p : Package) (packages : List Package) :
    (s.extend [p]).extend packages = s.extend (p :: packages) := by
  simp only [Parsing.extend, length_cons, length_nil, append_assoc,
    List.singleton_append, Parsing.mk.injEq, and_self, and_true]
  omega

/-- **Any number of records**, from a state past the second line. -/
lemma foldlM_records {error : Error} {t : Parsing} : ∀ {lines : List Bytes} {s : Parsing},
    2 ≤ s.lineNumber → Increasing s.index.packages → s.index.packages.length ≤ maxPackages →
    (lines.foldlM (parseLine error) s = .ok t ↔ ∃ packages,
      (∀ p ∈ packages, ValidPackage s.format p) ∧ lines = packages.map (packageLine s.format) ∧
        (∀ line ∈ lines, LineOk line) ∧ Increasing (s.index.packages ++ packages) ∧
        (s.index.packages ++ packages).length ≤ maxPackages ∧ t = s.extend packages)
  | [], s, hnumber, hs, hcount => by
    rw [foldlM_nil]
    constructor
    · intro h
      obtain rfl : s = t := Except.ok.inj h
      exact ⟨[], by simp, rfl, by simp, by simpa using hs, by simpa using hcount,
        by simp [Parsing.extend]⟩
    · rintro ⟨packages, -, hlines, -, -, -, rfl⟩
      obtain rfl : packages = [] := map_eq_nil_iff.mp hlines.symm
      simp [Parsing.extend, pure, Except.pure]
  | line :: lines, s, hnumber, hs, hcount => by
    have hline : ∀ {r : Parsing}, parseLine error s line = .ok r ↔ LineOk line ∧
        ∃ p, ValidPackage s.format p ∧ line = packageLine s.format p ∧
          s.index.packages.length < maxPackages ∧ Increasing (s.index.packages ++ [p]) ∧
          r = s.extend [p] := by
      intro r
      have hstep : LineOk line → parseLine error s line =
          parseRecord error { s with lineNumber := s.lineNumber + 1 } line := by
        intro hok
        rw [parseLine_of_ok hok]
        simp only
        rw [if_neg (by omega), if_neg (by omega)]
      constructor
      · intro h
        have hok := parseLine_ok h
        rw [hstep hok] at h
        exact ⟨hok, (parseRecord_iff (s := { s with lineNumber := s.lineNumber + 1 }) hs).mp h⟩
      · rintro ⟨hok, h⟩
        rw [hstep hok]
        exact (parseRecord_iff (s := { s with lineNumber := s.lineNumber + 1 }) hs).mpr h
    rw [foldlM_cons, bind_eq_ok_iff]
    constructor
    · rintro ⟨r, hr, h⟩
      obtain ⟨hok, p, hvalid, hp, hroom, horder, rfl⟩ := hline.mp hr
      obtain ⟨packages, hall, hlines, hoks, hincreasing, hlength, rfl⟩ :=
        (foldlM_records (s := s.extend [p]) (by simp only [Parsing.extend]; omega) horder
          (by simp only [Parsing.extend, length_append, length_singleton]; omega)).mp h
      refine ⟨p :: packages, ?_, by rw [map_cons, hp, hlines]; rfl, ?_, ?_, ?_,
        Parsing.extend_extend s p packages⟩
      · exact forall_mem_cons.mpr ⟨hvalid, hall⟩
      · exact forall_mem_cons.mpr ⟨hok, hoks⟩
      · simpa [Parsing.extend] using hincreasing
      · simpa [Parsing.extend] using hlength
    · rintro ⟨packages, hall, hlines, hoks, hincreasing, hlength, rfl⟩
      obtain ⟨p, packages, rfl⟩ : ∃ p rest, packages = p :: rest := by
        rcases packages with _ | ⟨p, rest⟩
        · simp at hlines
        · exact ⟨p, rest, rfl⟩
      rw [map_cons, cons.injEq] at hlines
      have hsplit : s.index.packages ++ p :: packages =
          s.index.packages ++ [p] ++ packages := by simp
      rw [hsplit] at hincreasing hlength
      have horder : Increasing (s.index.packages ++ [p]) := (List.pairwise_append.mp hincreasing).1
      have hroom : s.index.packages.length < maxPackages := by
        simp only [length_append, length_singleton] at hlength
        omega
      refine ⟨s.extend [p], hline.mpr ⟨hoks line (by simp), p, hall p (by simp), hlines.1, hroom,
        horder, rfl⟩, ?_⟩
      refine (foldlM_records (s := s.extend [p]) (by simp only [Parsing.extend]; omega) horder
        (by simp only [Parsing.extend, length_append, length_singleton]; omega)).mpr
        ⟨packages, fun q hq => hall q (by simp [hq]), hlines.2,
          fun l hl => hoks l (by simp [hl]), hincreasing, hlength,
          (Parsing.extend_extend s p packages).symm⟩

/-! ### The whole text -/

def header (format : ℕ) : Bytes :=
  if format = 2 then ascii "C1PKG-INDEX 2" else ascii "C1PKG-INDEX 1"

def sequenceLine (sequence : UInt64) : Bytes := ascii "S\t" ++ encode (decimal sequence)

def indexLines (format : ℕ) (i : Index) : List Bytes :=
  header format :: sequenceLine i.sequence :: i.packages.map (packageLine format)

def indexText (format : ℕ) (i : Index) : Bytes := unlines 10 (indexLines format i)

structure Grammar (format : ℕ) (i : Index) : Prop where
  known : format = 1 ∨ format = 2
  sequence : i.sequence ≠ 0
  packages : ∀ p ∈ i.packages, ValidPackage format p
  count : i.packages.length ≤ maxPackages
  increasing : Increasing i.packages
  lines : ∀ line ∈ indexLines format i, LineOk line ∧ 10 ∉ line

lemma parseHeader_iff (hs : s.format = 1) :
    parseHeader error s line = .ok t ↔
      ∃ format, (format = 1 ∨ format = 2) ∧ line = header format ∧
        t = { s with format := format } := by
  unfold parseHeader header
  constructor
  · intro h
    split_ifs at h with h2 h1
    · exact ⟨2, .inr rfl, h2, (Except.ok.inj h).symm⟩
    · refine ⟨1, .inl rfl, not_not.mp h1, ?_⟩
      rw [← Except.ok.inj h, ← hs]
  · rintro ⟨format, rfl | rfl, rfl, rfl⟩
    · rw [if_neg (by decide), if_neg (by decide), ← hs]
    · rw [if_pos rfl, if_pos rfl]

lemma parseSequence_iff :
    parseSequence error s line = .ok t ↔ ∃ sequence, sequence ≠ 0 ∧ line = sequenceLine sequence ∧
      t = { s with index := { s.index with sequence := sequence } } := by
  have hlen : (ascii "S\t").length = 2 := by decide
  unfold parseSequence sequenceLine
  constructor
  · intro h
    split_ifs at h with hprefix
    rw [Bool.not_eq_true', Bool.not_eq_false, isPrefixOf_iff_prefix] at hprefix
    obtain ⟨rest, rfl⟩ := hprefix
    have hdrop : (ascii "S\t" ++ rest).drop 2 = rest := drop_left' hlen
    rw [hdrop] at h
    rcases hn : parseU64 (chars rest) true with _ | n
    · rw [hn] at h
      cases h
    rw [hn] at h
    obtain ⟨rfl, hzero⟩ := parseU64_chars.mp hn
    exact ⟨n, hzero rfl, rfl, (Except.ok.inj h).symm⟩
  · rintro ⟨n, hzero, rfl, rfl⟩
    have hdrop : (ascii "S\t" ++ encode (decimal n)).drop 2 = encode (decimal n) :=
      drop_left' hlen
    rw [if_neg, hdrop, parseU64_chars.mpr ⟨rfl, fun _ => hzero⟩]
    rw [Bool.not_eq_true', Bool.not_eq_false, isPrefixOf_iff_prefix]
    exact prefix_append _ _

/-- The state before the first line. -/
def start : Parsing := ⟨0, 1, ⟨0, []⟩⟩

lemma parseLine_first :
    parseLine error start line = .ok t ↔ LineOk line ∧
      ∃ format, (format = 1 ∨ format = 2) ∧ line = header format ∧ t = ⟨1, format, ⟨0, []⟩⟩ := by
  constructor
  · intro h
    have hok := parseLine_ok h
    rw [parseLine_of_ok hok] at h
    exact ⟨hok, (parseHeader_iff (s := ⟨1, 1, ⟨0, []⟩⟩) rfl).mp h⟩
  · rintro ⟨hok, h⟩
    rw [parseLine_of_ok hok]
    exact (parseHeader_iff (s := ⟨1, 1, ⟨0, []⟩⟩) rfl).mpr h

lemma parseLine_second :
    parseLine error ⟨1, format, ⟨0, []⟩⟩ line = .ok t ↔ LineOk line ∧ ∃ sequence, sequence ≠ 0 ∧
      line = sequenceLine sequence ∧ t = ⟨2, format, ⟨sequence, []⟩⟩ := by
  constructor
  · intro h
    have hok := parseLine_ok h
    rw [parseLine_of_ok hok] at h
    exact ⟨hok, (parseSequence_iff (s := ⟨2, format, ⟨0, []⟩⟩)).mp h⟩
  · rintro ⟨hok, h⟩
    rw [parseLine_of_ok hok]
    exact (parseSequence_iff (s := ⟨2, format, ⟨0, []⟩⟩)).mpr h

def Parsing.Complete (s : Parsing) : Prop := ¬(s.lineNumber < 2 ∨ s.index.sequence = 0)

lemma foldlM_lines (error : Error) {lines : List Bytes} :
    (∃ s, lines.foldlM (parseLine error) start = .ok s ∧ s.Complete ∧ s.index = i) ↔
      ∃ format, (format = 1 ∨ format = 2) ∧ i.sequence ≠ 0 ∧
        (∀ p ∈ i.packages, ValidPackage format p) ∧ i.packages.length ≤ maxPackages ∧
        Increasing i.packages ∧ lines = indexLines format i ∧ ∀ line ∈ lines, LineOk line := by
  have hnil : Increasing ([] : List Package) := Pairwise.nil
  constructor
  · rintro ⟨s, h, hcomplete, rfl⟩
    rcases lines with _ | ⟨first, _ | ⟨second, lines⟩⟩
    · obtain rfl : start = s := Except.ok.inj h
      exact absurd (.inl (by decide)) hcomplete
    · rw [foldlM_cons, bind_eq_ok_iff] at h
      obtain ⟨r, hr, h⟩ := h
      obtain rfl : r = s := Except.ok.inj h
      obtain ⟨-, format, -, -, rfl⟩ := parseLine_first.mp hr
      exact absurd (.inl one_lt_two) hcomplete
    · rw [foldlM_cons, bind_eq_ok_iff] at h
      obtain ⟨r, hr, h⟩ := h
      obtain ⟨hok, format, hformat, rfl, rfl⟩ := parseLine_first.mp hr
      rw [foldlM_cons, bind_eq_ok_iff] at h
      obtain ⟨r, hr, h⟩ := h
      obtain ⟨hok', sequence, hsequence, rfl, rfl⟩ := parseLine_second.mp hr
      obtain ⟨packages, hall, rfl, hoks, hincreasing, hlength, rfl⟩ :=
        (foldlM_records le_rfl hnil (Nat.zero_le _)).mp h
      exact ⟨format, hformat, hsequence, hall, hlength, hincreasing, rfl,
        forall_mem_cons.mpr ⟨hok, forall_mem_cons.mpr ⟨hok', hoks⟩⟩⟩
  · rintro ⟨format, hformat, hsequence, hall, hlength, hincreasing, rfl, hoks⟩
    obtain ⟨hok, hoks⟩ := forall_mem_cons.mp hoks
    obtain ⟨hok', hoks⟩ := forall_mem_cons.mp hoks
    refine ⟨(⟨2, format, ⟨i.sequence, []⟩⟩ : Parsing).extend i.packages, ?_, ?_, rfl⟩
    · rw [indexLines, foldlM_cons, parseLine_first.mpr ⟨hok, format, hformat, rfl, rfl⟩]
      show foldlM _ _ _ = _
      rw [foldlM_cons, parseLine_second.mpr ⟨hok', i.sequence, hsequence, rfl, rfl⟩]
      exact (foldlM_records le_rfl hnil (Nat.zero_le _)).mpr
        ⟨i.packages, hall, rfl, hoks, hincreasing, hlength, rfl⟩
    · rintro (h | h)
      · simp only [Parsing.extend] at h
        omega
      · exact hsequence h

lemma length_unlines_le {lines : List Bytes} (h : ∀ line ∈ lines, line.length ≤ lineMax) :
    (unlines 10 lines).length ≤ (lineMax + 1) * lines.length := by
  induction lines with
  | nil => simp
  | cons line lines ih =>
    have hline := h line (by simp)
    have hrest := ih fun l hl => h l (by simp [hl])
    simp only [unlines_cons, length_append, length_cons, Nat.mul_add] at hrest ⊢
    omega

lemma Grammar.length_le (h : Grammar format i) :
    (indexText format i).length ≤ indexMax := by
  have hcount := h.count
  have hle := length_unlines_le fun line hline => (h.lines line hline).1.length_le
  simp only [indexLines, length_cons, length_map, lineMax] at hle
  simp only [maxPackages] at hcount
  unfold indexText indexMax
  simp only [indexLines] at hle ⊢
  omega

/-- **The texts that are read, and what is read.** -/
theorem parseIndexData_iff {data : Bytes} (error : Error) :
    parseIndexData true (some data) error = .ok i ↔
      ∃ format, Grammar format i ∧ data = indexText format i := by
  unfold parseIndexData
  constructor
  · intro h
    simp only [Bool.not_true, Bool.false_eq_true, or_false] at h
    split_ifs at h with hsize hlast
    obtain ⟨lines, hlines, rfl⟩ := exists_unlines (.inr (not_not.mp hlast))
    rw [run_unlines hlines (length_le_unlines 10 lines), bind_eq_ok_iff] at h
    obtain ⟨s, hs, h⟩ := h
    split_ifs at h with hcomplete
    obtain ⟨format, hformat, hsequence, hall, hlength, hincreasing, rfl, hoks⟩ :=
      (foldlM_lines error).mp ⟨s, hs, hcomplete, Except.ok.inj h⟩
    exact ⟨format, ⟨hformat, hsequence, hall, hlength, hincreasing,
      fun line hline => ⟨hoks line hline, hlines line hline⟩⟩, rfl⟩
  · rintro ⟨format, hgrammar, rfl⟩
    obtain ⟨s, hs, hcomplete, rfl⟩ := (foldlM_lines error).mpr
      ⟨format, hgrammar.known, hgrammar.sequence, hgrammar.packages, hgrammar.count,
        hgrammar.increasing, rfl, fun line hline => (hgrammar.lines line hline).1⟩
    have hlast : (indexText format s.index).getLast? = some 10 :=
      getLast?_unlines (by simp [indexLines])
    have hrun : run 10 (.error error) (parseLine error)
        (unlines 10 (indexLines format s.index)).length start
        (unlines 10 (indexLines format s.index)) =
          (indexLines format s.index).foldlM (parseLine error) start :=
      run_unlines (fun line hline => (hgrammar.lines line hline).2) (length_le_unlines 10 _)
    simp only [Bool.not_true, Bool.false_eq_true, or_false]
    rw [if_neg (not_lt.mpr hgrammar.length_le), if_neg (not_not.mpr hlast)]
    rw [show (⟨0, 1, ⟨0, []⟩⟩ : Parsing) = start from rfl, indexText, hrun, hs]
    show (if _ then _ else _) = _
    rw [if_neg hcomplete]

/-- **The package index.** A byte string is read exactly when it is the text of an index of one of
the two formats, whose packages are valid and in order; what is read is that index. A call that
fails leaves the caller's index. -/
theorem index_grammar (data : Bytes) (index : Index) (error : Error) :
    ((repoParse ⟨true, true⟩ (some data) (some index) error).1 = true ↔
      ∃ format i, Grammar format i ∧ data = indexText format i) ∧
    (∀ format i, Grammar format i → data = indexText format i →
      repoParse ⟨true, true⟩ (some data) (some index) error = (true, some i, error)) ∧
    ∀ memory input caller, (repoParse memory input caller error).1 = false →
      (repoParse memory input caller error).2.1 = caller := by
  have hread : ∀ format i, Grammar format i → data = indexText format i →
      repoParse ⟨true, true⟩ (some data) (some index) error = (true, some i, error) := by
    intro format i hgrammar hdata
    have hparse := (parseIndexData_iff error).mpr ⟨format, hgrammar, hdata⟩
    simp only [repoParse, Bool.not_true, Bool.false_eq_true, if_false, hparse]
  refine ⟨⟨fun h => ?_, ?_⟩, hread, fun memory input caller h => ?_⟩
  · rcases hparse : parseIndexData true (some data) error with e | i
    · simp [repoParse, hparse] at h
    · obtain ⟨format, hgrammar⟩ := (parseIndexData_iff error).mp hparse
      exact ⟨format, i, hgrammar⟩
  · rintro ⟨format, i, hgrammar, hdata⟩
    rw [hread format i hgrammar hdata]
  · rcases caller with _ | caller
    · rfl
    · unfold repoParse at h ⊢
      simp only at h ⊢
      split_ifs at h ⊢ with hmemory
      · rfl
      · rcases hparse : parseIndexData memory.data input error with e | i
        · rfl
        · rw [hparse] at h
          cases h

end C1auncher.Package.IndexText
