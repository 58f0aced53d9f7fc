import C1auncher.BookReader.ChapterPartition
import C1auncher.JsonText

/-!
The index of a text that is saved beside it, and what of it is accepted again.
-/

namespace C1auncher.BookReader.IndexCache

open C1auncher.Json (Json)
open CString Utf8Bytes Runes JsonParser JsonText BookReader.Outline BookReader.ChapterScan
  BookReader.ChapterPartition

structure BookFingerprint where
  size : Int64
  modTime : Int64
deriving DecidableEq

structure ChapterIndexCache where
  version : ℤ
  path : Bytes
  fingerprint : BookFingerprint
  encoding : Text
  chapters : List Chapter
  normalized : Bool
  contentSize : Int64
deriving DecidableEq

def chapterIndexCacheVersion : ℤ := 3

/-! ### What is written -/

/-- How a character of a string is written. What HTML or JavaScript would take as a mark is escaped
too. -/
def escapeChar (c : Char) : Text :=
  if c = '"' || c = '\\' then ['\\', c]
  else if c.toNat = 8 then ['\\', 'b']
  else if c.toNat = 12 then ['\\', 'f']
  else if c = '\n' then ['\\', 'n']
  else if c = '\r' then ['\\', 'r']
  else if c = '\t' then ['\\', 't']
  else if c.toNat < 32 || c = '<' || c = '>' || c = '&' then
    ['\\', 'u', '0', '0', Nat.digitChar (c.toNat / 16), Nat.digitChar (c.toNat % 16)]
  else if c.toNat = 0x2028 || c.toNat = 0x2029 then
    ['\\', 'u', '2', '0', '2', Nat.digitChar (c.toNat % 16)]
  else [c]

/-- A byte that is part of no character is written as a replacement character. -/
def escapeRune : Option Char → Text
  | some c => escapeChar c
  | none => ['\\', 'u', 'f', 'f', 'f', 'd']

def runeChar (rune : Option Char) : Char := rune.getD '\ufffd'

lemma escapeChar_plain {c : Char} (hlow : 32 ≤ c.toNat)
    (h : ∀ d ∈ ['"', '\\', '<', '>', '&'], c ≠ d) (hline : c.toNat ≠ 0x2028 ∧ c.toNat ≠ 0x2029) :
    escapeChar c = [c] := by
  simp only [List.mem_cons, List.not_mem_nil, or_false, forall_eq_or_imp, forall_eq] at h
  obtain ⟨h₁, h₂, h₃, h₄, h₅⟩ := h
  have hne : ∀ d : Char, d.toNat < 32 → c ≠ d := fun d hd heq => by
    rw [heq] at hlow
    omega
  simp [escapeChar, h₁, h₂, h₃, h₄, h₅, hline.1, hline.2, hne '\n' (by decide),
    hne '\r' (by decide), hne '\t' (by decide), show c.toNat ≠ 8 by omega,
    show c.toNat ≠ 12 by omega, show ¬ c.toNat < 32 by omega]

lemma escapeChar_low : ∀ n < 64, (∃ e, escaped e = some (Char.ofNat n) ∧
      escapeChar (Char.ofNat n) = ['\\', e]) ∨
    (∃ a b, codeUnit '0' '0' a b = some n ∧
      escapeChar (Char.ofNat n) = ['\\', 'u', '0', '0', a, b]) ∨
    escapeChar (Char.ofNat n) = [Char.ofNat n] ∧ 32 ≤ n ∧ n ≠ 34 := by
  intro n hn
  interval_cases n
  case «8» => exact .inl ⟨'b', by decide, by decide⟩
  case «9» => exact .inl ⟨'t', by decide, by decide⟩
  case «10» => exact .inl ⟨'n', by decide, by decide⟩
  case «12» => exact .inl ⟨'f', by decide, by decide⟩
  case «13» => exact .inl ⟨'r', by decide, by decide⟩
  case «34» => exact .inl ⟨'"', by decide, by decide⟩
  all_goals first
    | exact .inr (.inl ⟨_, _, by decide, rfl⟩)
    | exact .inr (.inr ⟨by decide, by decide, by decide⟩)

lemma ne_of_toNat_lt {c d : Char} (h : d.toNat < c.toNat) : c ≠ d := fun heq => by
  rw [heq] at h
  omega

lemma reads_char (c : Char) : ∃ p : Piece, (∀ text, pieces (escapeChar c ++ text) =
      (pieces text).map fun (more, rest) => (p :: more, rest)) ∧
    ∀ more, join (p :: more) = (join more).map (c :: ·) := by
  have hunit : ∀ {a b d e : Char} {n : ℕ}, codeUnit a b d e = some n → n < 0xd800 →
      Char.ofNat n = c → escapeChar c = ['\\', 'u', a, b, d, e] →
      ∃ p : Piece, (∀ text, pieces (escapeChar c ++ text) =
        (pieces text).map fun (more, rest) => (p :: more, rest)) ∧
      ∀ more, join (p :: more) = (join more).map (c :: ·) := by
    intro a b d e n hn hlow hc hescape
    refine ⟨.unit n, fun text => by rw [hescape]; exact pieces_unit hn text, fun more => ?_⟩
    rw [join_unit (by simp [isHigh]; omega) (by simp [isLow]; omega), hc]
  by_cases hlow : c.toNat < 64
  · have hcases := escapeChar_low c.toNat hlow
    rw [Char.ofNat_toNat] at hcases
    rcases hcases with ⟨e, he, hescape⟩ | ⟨a, b, hn, hescape⟩ | ⟨hescape, hplain, hquote⟩
    · exact ⟨.char c, fun text => by rw [hescape]; exact pieces_escaped he text, fun _ => rfl⟩
    · exact hunit hn (by omega) (Char.ofNat_toNat c) hescape
    have hq : c ≠ '"' := fun heq => hquote (by rw [heq]; decide)
    have hb : c ≠ '\\' := fun heq => absurd hlow (by rw [heq]; decide)
    exact ⟨.char c, fun text => by rw [hescape]; exact pieces_plain hplain hq hb text,
      fun _ => rfl⟩
  by_cases hslash : c = '\\'
  · subst hslash
    exact ⟨.char '\\', fun text => pieces_escaped (by decide) text, fun _ => rfl⟩
  by_cases hline : c.toNat = 0x2028
  · have hc : c = Char.ofNat 0x2028 := by rw [← hline, Char.ofNat_toNat]
    exact hunit (n := 0x2028) (a := '2') (b := '0') (d := '2') (e := '8') (by decide) (by decide) hc.symm
      (by rw [hc]; decide)
  by_cases hparagraph : c.toNat = 0x2029
  · have hc : c = Char.ofNat 0x2029 := by rw [← hparagraph, Char.ofNat_toNat]
    exact hunit (n := 0x2029) (a := '2') (b := '0') (d := '2') (e := '9') (by decide) (by decide) hc.symm
      (by rw [hc]; decide)
  have hhigh : ∀ d : Char, d.toNat < 64 → c ≠ d := fun d hd => ne_of_toNat_lt (by omega)
  have hescape : escapeChar c = [c] := by
    refine escapeChar_plain (by omega) ?_ ⟨hline, hparagraph⟩
    simp only [List.mem_cons, List.not_mem_nil, or_false, forall_eq_or_imp, forall_eq]
    exact ⟨hhigh _ (by decide), hslash, hhigh _ (by decide), hhigh _ (by decide),
      hhigh _ (by decide)⟩
  exact ⟨.char c, fun text => by
    rw [hescape]
    exact pieces_plain (by omega) (hhigh _ (by decide)) hslash text, fun _ => rfl⟩

/-- Strings as the encoder of the standard library writes them. -/
def runeEscape : Escape (Option Char) where
  write := escapeRune
  char := runeChar
  reads rune := by
    rcases rune with _ | c
    · exact ⟨.unit 0xfffd, fun text => pieces_unit (by decide) text, fun more => by
        rw [join_unit (by decide) (by decide)]
        rfl⟩
    · exact reads_char c

def str (text : Text) : JsonTree (Option Char) := .string (text.map some)

def field (name : String) (value : JsonTree (Option Char)) :
    List (Option Char) × JsonTree (Option Char) :=
  (name.toList.map some, value)

def integer (n : Int64) : JsonTree (Option Char) := .number n.toInt

def chapterTree (chapter : Chapter) : JsonTree (Option Char) :=
  .object [field "Title" (str chapter.title), field "Start" (integer chapter.start),
    field "End" (integer chapter.end_), field "HasBody" (.bool chapter.hasBody)]

def fingerprintTree (mark : BookFingerprint) : JsonTree (Option Char) :=
  .object [field "size" (integer mark.size), field "mtime" (integer mark.modTime)]

/-- The last two fields are left out where they are empty. -/
def cacheFields (cache : ChapterIndexCache) : List (List (Option Char) × JsonTree (Option Char)) :=
  [field "path" (.string (runes cache.path)), field "fingerprint" (fingerprintTree cache.fingerprint),
    field "encoding" (str cache.encoding),
    field "chapters" (.array (cache.chapters.map chapterTree))] ++
  (if cache.normalized then [field "normalized" (.bool true)] else []) ++
  if cache.contentSize ≠ 0 then [field "contentSize" (integer cache.contentSize)] else []

def cacheTree (cache : ChapterIndexCache) : JsonTree (Option Char) :=
  .object (field "version" (.number cache.version) :: cacheFields cache)

def saveChapterIndexCache (cache : ChapterIndexCache) : Bytes :=
  encode (runeEscape.value (cacheTree cache))

/-! ### What is read -/

/-- The names of fields are compared without regard to case. -/
def foldRune (c : Char) : Char :=
  if 'a' ≤ c ∧ c ≤ 'z' then Char.ofNat (c.toNat - 32)
  else if c = 'ſ' then 'S'
  else if c = '\u212a' then 'K'
  else c

/-- A field of a record: its name, and how a value is put into it. A null leaves it as it is. -/
structure Field (α : Type) where
  name : String
  put : Json → α → Option α

/-- A value of a kind that is not wanted is an error. -/
def plain {α β : Type} (decode : Json → Option β) (set : β → α → α) : Json → α → Option α
  | .null, a => some a
  | json, a => (decode json).map (set · a)

/-- The members in their order; the last of one name stays, and unknown ones are skipped. -/
def decodeMembers {α : Type} (fields : List (Field α)) : List (Text × Json) → α → Option α
  | [], a => some a
  | (key, json) :: members, a =>
    match fields.find? fun f => f.name.toList.map foldRune == key.map foldRune with
    | none => decodeMembers fields members a
    | some f => (f.put json a).bind (decodeMembers fields members)

def decodeObject {α : Type} (fields : List (Field α)) : Json → α → Option α
  | .null, a => some a
  | .object members, a => decodeMembers fields members a
  | _, _ => none

def decodeText : Json → Option Text
  | .string text => some text
  | _ => none

def decodeBool : Json → Option Bool
  | .bool b => some b
  | _ => none

def decodeInt : Json → Option ℤ
  | .number literal => integerOf literal
  | _ => none

def decodeInt64 (json : Json) : Option Int64 :=
  (decodeInt json).bind fun n =>
    if -2 ^ 63 ≤ n ∧ n < 2 ^ 63 then some (Int64.ofInt n) else none

def chapterFieldsOf : List (Field Chapter) :=
  [⟨"Title", plain decodeText fun title c => { c with title := title }⟩,
    ⟨"Start", plain decodeInt64 fun start c => { c with start := start }⟩,
    ⟨"End", plain decodeInt64 fun stop c => { c with end_ := stop }⟩,
    ⟨"HasBody", plain decodeBool fun b c => { c with hasBody := b }⟩]

def decodeChapters : Json → Option (List Chapter)
  | .null => some []
  | .array items => items.mapM fun item => decodeObject chapterFieldsOf item ⟨[], 0, 0, false⟩
  | _ => none

def fingerprintFieldsOf : List (Field BookFingerprint) :=
  [⟨"size", plain decodeInt64 fun size mark => { mark with size := size }⟩,
    ⟨"mtime", plain decodeInt64 fun time mark => { mark with modTime := time }⟩]

def cacheFieldsOf : List (Field ChapterIndexCache) :=
  [⟨"version", plain decodeInt fun version cache => { cache with version := version }⟩,
    ⟨"path", plain decodeText fun path cache => { cache with path := encode path }⟩,
    ⟨"fingerprint", fun json cache =>
      (decodeObject fingerprintFieldsOf json cache.fingerprint).map fun mark =>
        { cache with fingerprint := mark }⟩,
    ⟨"encoding", plain decodeText fun encoding cache => { cache with encoding := encoding }⟩,
    ⟨"chapters", fun json cache =>
      (decodeChapters json).map fun chapters => { cache with chapters := chapters }⟩,
    ⟨"normalized", plain decodeBool fun b cache => { cache with normalized := b }⟩,
    ⟨"contentSize", plain decodeInt64 fun size cache => { cache with contentSize := size }⟩]

def decodeCache (json : Json) : Option ChapterIndexCache :=
  decodeObject cacheFieldsOf json ⟨0, [], ⟨0, 0⟩, [], [], false, 0⟩

def maxIndexBytes : ℕ := 16 * 2 ^ 20

/-- The index that was saved for a book, if it is one of the file as it is now. `copy` is the size of
the normalized copy, if there is a regular one. -/
def loadChapterIndexCache (data : Option Bytes) (copy : Option Int64) (bookPath : Bytes)
    (current : BookFingerprint) : Option ChapterIndexCache := do
  let data ← data
  let json ← parse (lossy (data.take maxIndexBytes))
  let cache ← decodeCache json
  if cache.version ≠ chapterIndexCacheVersion || cache.path ≠ bookPath ||
    cache.fingerprint ≠ current then none
  if cache.encoding ≠ Encoding.utf8.name && cache.encoding ≠ Encoding.gb18030.name then none
  if cache.normalized && (copy ≠ some cache.contentSize || cache.encoding ≠ Encoding.utf8.name) then
    none
  let size := if cache.normalized then cache.contentSize else current.size
  if !validChapterIndex cache.chapters size then none
  pure cache

/-! ### What is written is read back -/

lemma map_runeChar (text : Text) : (text.map some).map runeChar = text := by
  rw [List.map_map]
  exact List.map_id' text

lemma decodeInt64_literal (n : Int64) : decodeInt64 (.number (literal n.toInt)) = some n := by
  have hlow := n.le_toInt
  have hhigh := n.toInt_lt
  rw [decodeInt64, decodeInt, integerOf_literal, Option.bind_some, if_pos ⟨hlow, hhigh⟩,
    Int64.ofInt_toInt]

lemma decodeMembers_cons {α : Type} {fields : List (Field α)} {key : Text} {json : Json}
    {members : List (Text × Json)} {a b : α} {f : Field α}
    (hfield : fields.find? (fun f => f.name.toList.map foldRune == key.map foldRune) = some f)
    (hput : f.put json a = some b) :
    decodeMembers fields ((key, json) :: members) a = decodeMembers fields members b := by
  rw [decodeMembers, hfield]
  dsimp only
  rw [hput, Option.bind_some]

lemma decode_chapter (chapter : Chapter) : decodeObject chapterFieldsOf
    (runeEscape.json (chapterTree chapter)) ⟨[], 0, 0, false⟩ = some chapter := by
  simp only [chapterTree, field, str, integer, Escape.json, Escape.jsonFields, runeEscape,
    map_runeChar, decodeObject]
  rw [decodeMembers_cons rfl rfl, decodeMembers_cons rfl (by simp only [plain, decodeInt64_literal]; rfl),
    decodeMembers_cons rfl (by simp only [plain, decodeInt64_literal]; rfl), decodeMembers_cons rfl rfl]
  rfl

lemma decode_fingerprint (mark start : BookFingerprint) : decodeObject fingerprintFieldsOf
    (runeEscape.json (fingerprintTree mark)) start = some mark := by
  simp only [fingerprintTree, field, integer, Escape.json, Escape.jsonFields, runeEscape,
    map_runeChar, decodeObject]
  rw [decodeMembers_cons rfl (by simp only [plain, decodeInt64_literal]; rfl),
    decodeMembers_cons rfl (by simp only [plain, decodeInt64_literal]; rfl)]
  rfl

lemma decode_chapters (chapters : List Chapter) :
    decodeChapters (runeEscape.json (.array (chapters.map chapterTree))) = some chapters := by
  rw [Escape.json, decodeChapters]
  induction chapters with
  | nil => rfl
  | cons chapter chapters ih =>
    rw [List.map_cons, Escape.jsons, List.mapM_cons, decode_chapter, ih]
    rfl

/-- **An index is read back**, but for a path that is no text. -/
theorem decode_cache (cache : ChapterIndexCache) :
    decodeCache (runeEscape.json (cacheTree cache)) =
      some { cache with path := encode (lossy cache.path) } := by
  obtain ⟨version, path, mark, encoding, chapters, normalized, contentSize⟩ := cache
  have hpath : (runes path).map runeEscape.char = lossy path := rfl
  have hencoding : (encoding.map some).map runeEscape.char = encoding := map_runeChar encoding
  have hmark := decode_fingerprint mark ⟨0, 0⟩
  have hchapters := decode_chapters chapters
  have hfront : ∀ fields, decodeCache (runeEscape.json (.object (field "version" (.number version) ::
      ([field "path" (.string (runes path)), field "fingerprint" (fingerprintTree mark),
        field "encoding" (str encoding), field "chapters" (.array (chapters.map chapterTree))] ++
        fields)))) = decodeMembers cacheFieldsOf (runeEscape.jsonFields fields)
        ⟨version, encode (lossy path), mark, encoding, chapters, false, 0⟩ := by
    intro fields
    simp only [decodeCache, field, str, Escape.json.eq_6, Escape.json.eq_4, Escape.json.eq_3,
      Escape.jsonFields, List.cons_append, List.nil_append, decodeObject, hpath, hencoding]
    rw [decodeMembers_cons rfl (by simp only [plain, decodeInt, integerOf_literal]; rfl),
      decodeMembers_cons rfl rfl, decodeMembers_cons rfl (by simp only [hmark]; rfl),
      decodeMembers_cons rfl rfl, decodeMembers_cons rfl (by simp only [hchapters]; rfl)]
  have hsize : decodeMembers cacheFieldsOf
      (runeEscape.jsonFields (if contentSize ≠ 0 then [field "contentSize" (integer contentSize)]
        else [])) ⟨version, encode (lossy path), mark, encoding, chapters, normalized, 0⟩ =
      some ⟨version, encode (lossy path), mark, encoding, chapters, normalized, contentSize⟩ := by
    by_cases hzero : contentSize = 0
    · subst hzero
      rfl
    rw [if_pos hzero]
    simp only [field, integer, Escape.jsonFields, Escape.json]
    rw [decodeMembers_cons rfl (by simp only [plain, decodeInt64_literal]; rfl)]
    rfl
  rw [cacheTree, cacheFields, List.append_assoc, hfront]
  cases normalized with
  | false => exact hsize
  | true =>
    rw [if_pos rfl, List.singleton_append, field, Escape.jsonFields, Escape.json]
    exact (decodeMembers_cons rfl rfl).trans hsize

/-! ### What is accepted again -/

lemma junk_replacement : Junk '\ufffd' where
  blank := by decide
  brace := by decide
  value fuel rest := by
    cases fuel with
    | zero => rw [value]
    | succ fuel =>
      rw [value, if_neg (by decide), if_neg (by decide), if_neg (by decide), if_neg (by decide),
        if_neg (by decide), if_neg (by decide)]
      rfl

lemma parse_saved (cache : ChapterIndexCache) :
    parse (lossy ((saveChapterIndexCache cache).take maxIndexBytes)) =
      if (saveChapterIndexCache cache).length ≤ maxIndexBytes
      then some (runeEscape.json (cacheTree cache)) else none := by
  by_cases hlen : (saveChapterIndexCache cache).length ≤ maxIndexBytes
  · rw [if_pos hlen, List.take_of_length_le hlen, saveChapterIndexCache, lossy_encode]
    exact parse_object _ _
  rw [if_neg hlen]
  obtain ⟨whole, more, k, htext, hrunes, hmore⟩ :=
    runes_take (runeEscape.value (cacheTree cache)) maxIndexBytes
  have hlossy : lossy ((saveChapterIndexCache cache).take maxIndexBytes) =
      whole ++ List.replicate k '\ufffd' := by
    rw [lossy, saveChapterIndexCache, hrunes, List.map_append, List.map_map, List.map_replicate]
    exact congrArg (· ++ _) (List.map_id' whole)
  rw [hlossy]
  exact parse_cut htext (hmore (by rw [saveChapterIndexCache] at hlen; omega)) junk_replacement k

/-- An index of the text that a file has as it is now. -/
structure Current (cache : ChapterIndexCache) (copy : Option Int64) : Prop where
  version : cache.version = chapterIndexCacheVersion
  encoding : cache.encoding = Encoding.utf8.name ∨
    cache.encoding = Encoding.gb18030.name ∧ cache.normalized = false
  copied : cache.normalized = true → copy = some cache.contentSize
  valid : validChapterIndex cache.chapters
    (if cache.normalized then cache.contentSize else cache.fingerprint.size) = true

/-- **A saved index is accepted unchanged** exactly where it is not too long and the path is text. -/
theorem load_saved {cache : ChapterIndexCache} {copy : Option Int64} (h : Current cache copy) :
    loadChapterIndexCache (some (saveChapterIndexCache cache)) copy cache.path cache.fingerprint =
        some cache ↔
      (saveChapterIndexCache cache).length ≤ maxIndexBytes ∧ ∃ text, cache.path = encode text := by
  have hload : loadChapterIndexCache (some (saveChapterIndexCache cache)) copy cache.path
      cache.fingerprint = if (saveChapterIndexCache cache).length ≤ maxIndexBytes ∧
        encode (lossy cache.path) = cache.path then some cache else none := by
    have hencoding : ¬ cache.encoding = Encoding.utf8.name →
        cache.encoding = Encoding.gb18030.name := fun hnot =>
      (h.encoding.resolve_left hnot).1
    have hcopy : cache.normalized = true →
        copy = some cache.contentSize ∧ cache.encoding = Encoding.utf8.name := fun hnormal => by
      refine ⟨h.copied hnormal, h.encoding.resolve_right fun hnot => ?_⟩
      rw [hnormal] at hnot
      exact absurd hnot.2 (by simp)
    by_cases hlen : (saveChapterIndexCache cache).length ≤ maxIndexBytes
    · by_cases hpath : encode (lossy cache.path) = cache.path
      · have hsame : { cache with path := encode (lossy cache.path) } = cache := by rw [hpath]
        unfold loadChapterIndexCache
        simp only [parse_saved, if_pos hlen, Option.bind_eq_bind, Option.bind_some, decode_cache,
          hsame]
        rw [if_neg (by simp [h.version]), if_neg (by simpa using hencoding),
          if_neg (by simpa using hcopy), if_neg (by simp [h.valid]), if_pos ⟨hlen, hpath⟩]
        rfl
      · simp [loadChapterIndexCache, parse_saved, hlen, decode_cache, hpath]
    · simp [loadChapterIndexCache, parse_saved, hlen]
  rw [hload, ← encode_lossy]
  split <;> simp_all

/-! ### The index of a text -/

/-- What is saved for a text that was scanned. -/
def indexOf (source : Source) (path : Bytes) (mark : BookFingerprint) (chapters : List Chapter) :
    ChapterIndexCache where
  version := chapterIndexCacheVersion
  path := path
  fingerprint := mark
  encoding := source.encoding.name
  chapters := chapters
  normalized := source.normalized
  contentSize := if source.normalized then Int64.ofNat source.content.length else 0

lemma openSource_ok {utf16 : Encoding → Bytes → Text} {content : Bytes} {source : Source}
    (h : openSource utf16 content = .ok source) :
    (source.normalized = false ∧ source.content = content ∧
      (source.encoding = .utf8 ∨ source.encoding = .gb18030)) ∨
    (source.normalized = true ∧ source.encoding = .utf8 ∧
      source.content.length ≤ maxNormalizedTextBytes) := by
  have haccepted := accepted_of_open h
  unfold openSource at h
  rcases hdetect : detectEncoding content with refused | ⟨encoding, bom⟩
  · rw [hdetect] at h
    cases h
  rw [hdetect] at h
  change (if encoding = .utf16le || encoding = .utf16be then _ else _) = _ at h
  split at h
  · change (if _ then _ else _) = _ at h
    split at h
    · cases h
    change (if _ then _ else _) = _ at h
    split at h
    · cases h
    rename_i hcopied
    cases h
    exact .inr ⟨rfl, rfl, Nat.le_of_not_lt hcopied⟩
  · cases h
    refine .inl ⟨rfl, rfl, ?_⟩
    cases haccepted with
    | plain => exact .inl rfl
    | marked => exact .inl rfl
    | chinese => exact .inr rfl

lemma bom_cases {content : Bytes} {encoding : Encoding} {bom : ℕ}
    (h : Accepted content encoding bom) : bom = 0 ∨ bom = 3 := by
  cases h
  · exact .inl rfl
  · exact .inr rfl
  · exact .inl rfl

lemma current_indexOf {utf16 : Encoding → Bytes → Text} {content : Bytes} {source : Source}
    (h : openSource utf16 content = .ok source) {chapters : List Chapter}
    (hvalid : validChapterIndex chapters (Int64.ofNat source.content.length) = true)
    {copy : Option Int64}
    (hcopy : source.normalized = true → copy = some (Int64.ofNat source.content.length))
    (path : Bytes) (modTime : Int64) :
    Current (indexOf source path ⟨Int64.ofNat content.length, modTime⟩ chapters) copy := by
  rcases openSource_ok h with ⟨hplain, hcontent, hencoding⟩ | ⟨hcopied, hencoding, -⟩
  · refine ⟨rfl, ?_, fun hno => ?_, ?_⟩
    · rcases hencoding with heq | heq
      · exact .inl (congrArg Encoding.name heq)
      · exact .inr ⟨congrArg Encoding.name heq, hplain⟩
    · rw [indexOf, hplain] at hno
      cases hno
    simp only [indexOf, hplain]
    rw [← hcontent]
    exact hvalid
  · refine ⟨rfl, .inl (congrArg Encoding.name hencoding), fun _ => ?_, ?_⟩
    · rw [hcopy hcopied, indexOf, hcopied]
      rfl
    · simp only [indexOf, hcopied]
      exact hvalid

/-! ### A long index -/

def headingText : Text := ['第', '1', '章']

def headingLine : Bytes := encode headingText

def headingsOnly (n : ℕ) : Text := (List.replicate n (headingText ++ ['\n'])).flatten

lemma encode_headingsOnly (n : ℕ) : encode (headingsOnly n) =
    (List.replicate n (headingLine ++ [newline])).flatten := by
  induction n with
  | zero => rfl
  | succ n ih =>
    rw [headingsOnly, List.replicate_succ, List.flatten_cons, encode_append, encode_append,
      List.replicate_succ, List.flatten_cons, ← ih]
    rfl

lemma cut_headingsOnly (n : ℕ) : Lines.cut newline (encode (headingsOnly n)) =
    List.replicate n (headingLine ++ [newline]) := by
  rw [encode_headingsOnly]
  induction n with
  | zero => rfl
  | succ n ih =>
    rw [List.replicate_succ, List.flatten_cons, List.append_assoc, List.singleton_append,
      Lines.cut_line (by decide), ih]

lemma length_headings (gb18030 : Bytes → Option Text) (n start : ℕ) :
    (headings gb18030 .utf8 (linesFrom 0 start
      (List.replicate n (headingLine ++ [newline])))).length = n := by
  induction n generalizing start with
  | zero => rfl
  | succ n ih =>
    have hline : ∃ at_, lineAt 0 start (headingLine ++ [newline]) =
        ⟨at_, headingLine ++ [newline], (headingLine ++ [newline]).length⟩ := by
      unfold lineAt
      split
      · exact ⟨0, rfl⟩
      · exact ⟨start, rfl⟩
    obtain ⟨at_, hat⟩ := hline
    have htext : decodeBytes gb18030 (headingLine ++ [newline]) .utf8 = some headingText := by
      rw [decodeBytes, text?_iff]
      decide
    have htitle : Line.title? gb18030 .utf8
        ⟨at_, headingLine ++ [newline], (headingLine ++ [newline]).length⟩ = some headingText := by
      rw [Line.title?, htext]
      decide
    have hheading : Line.isHeading gb18030 .utf8
        ⟨at_, headingLine ++ [newline], (headingLine ++ [newline]).length⟩ = true := by
      have htitled : Titles.isChapterTitle headingText = true := by decide
      have hshort : (headingLine ++ [newline]).length ≤ maxTitleLineBytes := by decide
      simp only [Line.isHeading, htitle, hshort, decide_true, Bool.true_and]
      exact htitled
    have hone := headings_singleton htitle hheading
    rw [List.replicate_succ, linesFrom_cons, hat]
    change (headings gb18030 .utf8 ([_] ++ linesFrom 0 _ _)).length = _
    rw [headings, List.filterMap_append, List.length_append]
    change (headings gb18030 .utf8 [_]).length + (headings gb18030 .utf8 _).length = _
    rw [hone, ih, List.length_singleton, Nat.add_comm]

lemma length_encode_le (text : Text) : text.length ≤ (encode text).length := by
  induction text with
  | nil => exact Nat.le_refl 0
  | cons c text ih =>
    obtain ⟨byte, more, hc, -⟩ := utf8EncodeChar_head c
    rw [encode_cons, hc, List.length_append, List.length_cons, List.length_cons]
    omega

lemma length_chapterTree (chapter : Chapter) :
    36 ≤ (runeEscape.value (chapterTree chapter)).length := by
  simp only [chapterTree, field, str, integer, Escape.value, Escape.field, Escape.moreFields,
    Escape.string, List.length_append, List.length_cons, List.length_nil]
  have htitle : (("Title".toList.map some).flatMap runeEscape.write).length = 5 := by decide
  have hstart : (("Start".toList.map some).flatMap runeEscape.write).length = 5 := by decide
  have hend : (("End".toList.map some).flatMap runeEscape.write).length = 3 := by decide
  have hbody : (("HasBody".toList.map some).flatMap runeEscape.write).length = 7 := by decide
  rw [htitle, hstart, hend, hbody]
  omega

lemma length_moreItems (chapters : List Chapter) :
    36 * chapters.length ≤ (runeEscape.moreItems (chapters.map chapterTree)).length := by
  induction chapters with
  | nil => exact Nat.le_refl 0
  | cons chapter chapters ih =>
    have hone := length_chapterTree chapter
    simp only [List.map_cons, Escape.moreItems, List.length_cons, List.length_append]
    omega

lemma length_field_le {f : List (Option Char) × JsonTree (Option Char)}
    {fields : List (List (Option Char) × JsonTree (Option Char))} (h : f ∈ fields) :
    (runeEscape.field f).length ≤ (runeEscape.moreFields fields).length := by
  induction fields with
  | nil => cases h
  | cons g fields ih =>
    simp only [Escape.moreFields, List.length_cons, List.length_append]
    rcases List.mem_cons.mp h with rfl | h
    · omega
    · have := ih h
      omega

lemma length_saved (cache : ChapterIndexCache) :
    36 * cache.chapters.length ≤ (saveChapterIndexCache cache).length + 1 := by
  have hitems : 36 * cache.chapters.length ≤
      (runeEscape.value (.array (cache.chapters.map chapterTree))).length + 1 := by
    have hmore := length_moreItems cache.chapters
    rcases hchapters : cache.chapters with _ | ⟨chapter, chapters⟩
    · simp
    rw [hchapters, List.map_cons, Escape.moreItems] at hmore
    rw [List.map_cons, Escape.value]
    simp only [List.length_cons, List.length_append] at hmore ⊢
    omega
  have hmem : field "chapters" (.array (cache.chapters.map chapterTree)) ∈ cacheFields cache :=
    List.mem_append_left _ (List.mem_append_left _ (by simp))
  have hfield := length_field_le hmem
  have hvalue : (runeEscape.moreFields (cacheFields cache)).length ≤
      (runeEscape.value (cacheTree cache)).length := by
    rw [cacheTree, Escape.value, List.length_cons, List.length_append, List.length_append]
    omega
  have hencode := length_encode_le (runeEscape.value (cacheTree cache))
  rw [field, Escape.field, List.length_append, List.length_cons] at hfield
  rw [saveChapterIndexCache]
  omega

lemma detectRunes_text {text : Text} (h : ∀ c ∈ text, c.toNat ≠ 0) (mark : ℕ) :
    detectRunes mark (text.map some) = .ok (.utf8, mark) := by
  induction text with
  | nil => rfl
  | cons c text ih =>
    rw [List.map_cons, detectRunes, if_neg (h c List.mem_cons_self),
      ih fun d hd => h d (List.mem_cons_of_mem _ hd)]

lemma open_headingsOnly (utf16 : Encoding → Bytes → Text) (n : ℕ) :
    openSource utf16 (encode (headingsOnly (n + 1))) =
      .ok ⟨encode (headingsOnly (n + 1)), .utf8, 0, false⟩ := by
  have hdetect : detectEncoding (encode (headingsOnly (n + 1))) = .ok (.utf8, 0) := by
    have hfront : encode (headingsOnly (n + 1)) = 0xe7 :: 0xac :: 0xac :: 0x31 ::
        ([0xe7, 0xab, 0xa0, 0x0a] ++ encode (headingsOnly n)) := by
      rw [headingsOnly, List.replicate_succ, List.flatten_cons, encode_append]
      rfl
    have hzero : ∀ c ∈ headingsOnly (n + 1), c.toNat ≠ 0 := by
      intro c hc
      obtain ⟨line, hline, hc⟩ := List.mem_flatten.mp hc
      rw [(List.mem_replicate.mp hline).2] at hc
      simp only [headingText, List.cons_append, List.nil_append, List.mem_cons, List.not_mem_nil,
        or_false] at hc
      rcases hc with rfl | rfl | rfl | rfl <;> decide
    have hrunes : detectRunes 0 (runes (encode (headingsOnly (n + 1)))) = .ok (.utf8, 0) := by
      rw [runes_encode]
      exact detectRunes_text hzero 0
    rw [hfront] at hrunes ⊢
    rw [detectEncoding]
    simpa [byteOrderMark] using hrunes
  rw [openSource, hdetect]
  rfl

lemma reads_headingsOnly (n : ℕ) : Reads (encode (headingsOnly n))
    ⟨List.replicate n (.line (headingLine ++ [newline])), [], false⟩ where
  whole := by
    rw [encode_headingsOnly, List.append_nil, List.flatMap, List.map_replicate]
    rfl
  wellFormed fragment h := by
    rw [(List.mem_replicate.mp h).2]
    exact ⟨headingLine, by decide, rfl⟩
  last := by simp
  complete := rfl

/-- The saved index of a text is accepted unchanged for the same file. -/
def AcceptedAgain (gb18030 : Bytes → Option Text) (utf16 : Encoding → Bytes → Text)
    (content path : Bytes) : Prop :=
  ∀ {source : Source} {reading : Reading} {chapters : List Chapter} (modTime : Int64),
    openSource utf16 content = .ok source → Reads source.content reading →
    scanChapters gb18030 source.encoding (Int64.ofNat source.content.length) source.bom reading =
      .ok chapters →
    loadChapterIndexCache (some (saveChapterIndexCache (indexOf source path
        ⟨Int64.ofNat content.length, modTime⟩ chapters)))
        (if source.normalized then some (Int64.ofNat source.content.length) else none) path
        ⟨Int64.ofNat content.length, modTime⟩ =
      some (indexOf source path ⟨Int64.ofNat content.length, modTime⟩ chapters)

lemma headings_not_accepted : ¬ AcceptedAgain (fun _ => some []) (fun _ _ => [])
    (encode (headingsOnly (2 ^ 19))) [] := by
  intro h
  have hopen := open_headingsOnly (fun _ _ => []) (2 ^ 19 - 1)
  rw [show 2 ^ 19 - 1 + 1 = 2 ^ 19 by decide] at hopen
  have hlen : (encode (headingsOnly (2 ^ 19))).length = 8 * 2 ^ 19 := by
    rw [encode_headingsOnly, List.length_flatten, List.map_replicate, List.sum_replicate,
      show (headingLine ++ [newline]).length = 8 by decide]
    decide
  have hfits : (encode (headingsOnly (2 ^ 19))).length < 2 ^ 63 := by
    rw [hlen]
    decide
  have hreads := reads_headingsOnly (2 ^ 19)
  have htotal : ∀ raw, ∃ text, (fun _ : Bytes => some ([] : Text)) raw = some text :=
    fun _ => ⟨[], rfl⟩
  obtain ⟨chapters, hscan, hpartition⟩ :=
    partition_of_accepted (.plain (headingsOnly (2 ^ 19))) htotal hfits hreads
  have hvalid := hpartition.valid (.inl rfl) hfits
  have hcurrent : Current _ none := current_indexOf hopen hvalid (by simp) [] 0
  have hload := (load_saved hcurrent).mp (h 0 hopen hreads hscan)
  have hmany : 2 ^ 19 ≤ chapters.length := by
    have hmarks := congrArg List.length hpartition.marks
    have hcount := length_headings (fun _ => some []) (2 ^ 19) 0
    rw [textLines, cut_headingsOnly, List.length_map] at hmarks
    rw [hmarks]
    unfold sectionStarts
    split
    · rename_i hnil
      rw [hnil] at hcount
      exact absurd hcount (by decide)
    rename_i hcons
    rw [hcons] at hcount
    rw [List.length_append, hcount]
    exact Nat.le_add_left _ _
  have hlong := length_saved (indexOf ⟨encode (headingsOnly (2 ^ 19)), .utf8, 0, false⟩ []
    ⟨Int64.ofNat (encode (headingsOnly (2 ^ 19))).length, 0⟩ chapters)
  have hchapters : (indexOf ⟨encode (headingsOnly (2 ^ 19)), .utf8, 0, false⟩ []
    ⟨Int64.ofNat (encode (headingsOnly (2 ^ 19))).length, 0⟩ chapters).chapters = chapters := rfl
  rw [hchapters] at hlong
  have hmax : maxIndexBytes = 16 * 2 ^ 20 := rfl
  have hle := hload.1
  omega

/-- **The index of a text**: however a text that is accepted is handed out, its sections are its
partition at the heading lines, they pass the check of an index, and the saved index is accepted
unchanged exactly where it is not too long and the path is text. -/
theorem chapter_index {gb18030 : Bytes → Option Text}
    (hgb18030 : ∀ raw, ∃ text, gb18030 raw = some text) {utf16 : Encoding → Bytes → Text}
    {content : Bytes} (hsize : content.length < 2 ^ 63) {source : Source}
    (hopen : openSource utf16 content = .ok source) {reading : Reading}
    (hreads : Reads source.content reading) :
    ∃ chapters, scanChapters gb18030 source.encoding (Int64.ofNat source.content.length) source.bom
        reading = .ok chapters ∧
      Partition gb18030 source.encoding source.bom source.content.length
        (textLines source.bom source.content) chapters ∧
      validChapterIndex chapters (Int64.ofNat source.content.length) = true ∧
      ∀ (copy : Option Int64) (path : Bytes) (modTime : Int64),
        (source.normalized = true → copy = some (Int64.ofNat source.content.length)) →
        (loadChapterIndexCache (some (saveChapterIndexCache (indexOf source path
            ⟨Int64.ofNat content.length, modTime⟩ chapters))) copy path
            ⟨Int64.ofNat content.length, modTime⟩ =
          some (indexOf source path ⟨Int64.ofNat content.length, modTime⟩ chapters) ↔
        (saveChapterIndexCache (indexOf source path ⟨Int64.ofNat content.length, modTime⟩
            chapters)).length ≤ maxIndexBytes ∧ ∃ text, path = encode text) := by
  have haccepted := accepted_of_open hopen
  have hfits : source.content.length < 2 ^ 63 := by
    rcases openSource_ok hopen with ⟨-, hcontent, -⟩ | ⟨-, -, hcopied⟩
    · rwa [hcontent]
    · exact hcopied.trans_lt (by decide)
  obtain ⟨chapters, hscan, hpartition⟩ := partition_of_accepted haccepted hgb18030 hfits hreads
  have hvalid := hpartition.valid (bom_cases haccepted) hfits
  exact ⟨chapters, hscan, hpartition, hvalid, fun copy path modTime hcopy =>
    load_saved (current_indexOf hopen hvalid hcopy path modTime)⟩

/-- A heading that is handed out in two pieces. -/
theorem chapter_index_one : ∃ chapters,
    scanChapters (fun _ => some []) .utf8 (Int64.ofNat (encode (headingsOnly 1)).length) 0
      ⟨[.full headingLine, .line [newline]], [], false⟩ = .ok chapters ∧
    validChapterIndex chapters (Int64.ofNat (encode (headingsOnly 1)).length) = true ∧
    chapters.map mark = [(0, headingText)] := by
  have hreads : Reads (encode (headingsOnly 1)) ⟨[.full headingLine, .line [newline]], [], false⟩ :=
    { whole := by decide +kernel
      wellFormed := by
        simp only [List.mem_cons, List.not_mem_nil, or_false, forall_eq_or_imp, forall_eq]
        exact ⟨(by decide +kernel : newline ∉ headingLine), [], by simp, rfl⟩
      last := by simp
      complete := rfl }
  have hsize : (encode (headingsOnly 1)).length < 2 ^ 63 := by decide +kernel
  obtain ⟨chapters, hscan, hpartition, hvalid, -⟩ := chapter_index (fun _ => ⟨[], rfl⟩) hsize
    (open_headingsOnly (fun _ _ => []) 0) hreads
  refine ⟨chapters, hscan, hvalid, hpartition.marks.trans ?_⟩
  decide +kernel

/-- **An index is not accepted again** where it is too long, or where the path is no text. -/
theorem chapter_index_fails :
    ¬ AcceptedAgain (fun _ => some []) (fun _ _ => []) (encode (headingsOnly (2 ^ 19))) [] ∧
    ¬ AcceptedAgain (fun _ => some []) (fun _ _ => []) [] [0xff] := by
  refine ⟨headings_not_accepted, fun h => ?_⟩
  have hreads : Reads [] ⟨[], [], false⟩ := ⟨rfl, by simp, by simp, rfl⟩
  have hopen : openSource (fun _ _ => []) [] = .ok ⟨[], .utf8, 0, false⟩ := by
    have hdetect : detectEncoding [] = .ok (.utf8, 0) := by
      rw [detectEncoding, runes]
      rfl
    rw [openSource, hdetect]
    rfl
  have htotal : ∀ raw, ∃ text, (fun _ : Bytes => some ([] : Text)) raw = some text :=
    fun _ => ⟨[], rfl⟩
  obtain ⟨chapters, hscan, hpartition⟩ :=
    partition_of_accepted (.plain []) htotal (by decide) hreads
  have hvalid := hpartition.valid (.inl rfl) (by decide)
  have hcurrent : Current _ none := current_indexOf hopen hvalid (by simp) [0xff] 0
  obtain ⟨-, text, htext⟩ := (load_saved hcurrent).mp (h 0 hopen hreads hscan)
  have hnone : text? [0xff] = none := by decide +kernel
  have hpath : [0xff] = encode text := htext
  rw [text?_iff.mpr hpath] at hnone
  cases hnone

end C1auncher.BookReader.IndexCache
