import C1auncher.BookReader.ChapterScan
import C1auncher.BookReader.Percent

/-!
The sections that the scan finds are a partition of the text at its heading lines.
-/

namespace C1auncher.BookReader.ChapterPartition

open List Option
open CString Utf8Bytes Runes Lines Tilings BookReader.Titles BookReader.Outline BookReader.Percent
  BookReader.ChapterScan

/-! ### What a partition is -/

/-- A line of the text without the mark. Its size counts all of its bytes, with the mark and its
end. -/
structure Line where
  start : ℕ
  bytes : Bytes
  size : ℕ

def lineAt (bom start : ℕ) (raw : Bytes) : Line :=
  if start = 0 then ⟨bom, raw.drop bom, raw.length⟩ else ⟨start, raw, raw.length⟩

def linesFrom (bom : ℕ) : ℕ → List Bytes → List Line
  | _, [] => []
  | start, raw :: more => lineAt bom start raw :: linesFrom bom (start + raw.length) more

def textLines (bom : ℕ) (content : Bytes) : List Line := linesFrom bom 0 (cut newline content)

def mark (chapter : Chapter) : ℤ × Text := (startOf chapter, chapter.title)

/-- The sections begin at the headings; in front of them there may be an opening. -/
def sectionStarts (bom : ℕ) (headings : List (ℤ × Text)) : List (ℤ × Text) :=
  match headings with
  | [] => [((bom : ℤ), ['正', '文'])]
  | (start, title) :: more =>
    (if (bom : ℤ) < start then [((bom : ℤ), ['开', '始'])] else []) ++ (start, title) :: more

section

variable (gb18030 : Bytes → Option Text) (encoding : Encoding)

def Line.title? (l : Line) : Option Text := (decodeBytes gb18030 l.bytes encoding).map trimSpace

/-- A line that is short enough and whose text is a title. -/
def Line.isHeading (l : Line) : Bool :=
  l.size ≤ maxTitleLineBytes && (l.title? gb18030 encoding).any isChapterTitle

/-- A line that is too long for a heading, or whose text is neither a title nor a separator. -/
def Line.isBody (l : Line) : Bool :=
  maxTitleLineBytes < l.size ||
    (l.title? gb18030 encoding).any fun title => !isChapterTitle title && meaningfulBodyLine title

def headings (lines : List Line) : List (ℤ × Text) :=
  lines.filterMap fun l =>
    if l.isHeading gb18030 encoding then
      (l.title? gb18030 encoding).map fun title => ((l.start : ℤ), normalizedChapterTitle title)
    else none

/-- The sections of a text: they follow one another from the mark to the end, they begin at the
headings, and they have a body exactly where a line says so. -/
structure Partition (bom size : ℕ) (lines : List Line) (chapters : List Chapter) : Prop where
  tiles : Tiles startOf endOf (bom : ℤ) chapters size
  marks : chapters.map mark = sectionStarts bom (headings gb18030 encoding lines)
  bodies : ∀ c ∈ chapters, c.hasBody = true ↔
    ∃ l ∈ lines, l.isBody gb18030 encoding = true ∧ Holds startOf endOf (l.start : ℤ) c

end

variable {gb18030 : Bytes → Option Text} {encoding : Encoding} {bom size : ℕ} {lines : List Line}
  {l : Line} {s : Scan}

/-! ### One more line -/

lemma headings_append (lines : List Line) (l : Line) : headings gb18030 encoding (lines ++ [l]) =
    headings gb18030 encoding lines ++ headings gb18030 encoding [l] := filterMap_append

variable {title : Text} {chapters front : List Chapter} {place : ℕ} {last : Chapter}
  {content : Bytes}

lemma headings_singleton (htitle : l.title? gb18030 encoding = some title)
    (h : l.isHeading gb18030 encoding = true) :
    headings gb18030 encoding [l] = [((l.start : ℤ), normalizedChapterTitle title)] := by
  simp [headings, h, htitle]

lemma headings_of_not (h : l.isHeading gb18030 encoding = false) :
    headings gb18030 encoding [l] = [] := by
  simp [headings, h]

lemma not_isBody (h : l.isHeading gb18030 encoding = true) :
    l.isBody gb18030 encoding = false := by
  obtain ⟨hsize, htitle⟩ := Bool.and_eq_true_iff.mp h
  have hle := of_decide_eq_true hsize
  unfold Line.isBody
  rcases hread : l.title? gb18030 encoding with _ | title
  · simp [hle]
  rw [hread] at htitle
  have htitle : isChapterTitle title = true := htitle
  simp [hle, htitle]

/-- The lines so far that count stand between the mark and a place. -/
def Before (gb18030 : Bytes → Option Text) (encoding : Encoding) (bom : ℕ) (lines : List Line)
    (place : ℕ) : Prop :=
  ∀ l ∈ lines, l.isHeading gb18030 encoding = true ∨ l.isBody gb18030 encoding = true →
    bom ≤ l.start ∧ l.start < place

lemma mem_sectionStarts {bom : ℕ} {found : List (ℤ × Text)} {m : ℤ × Text} (h : m ∈ sectionStarts bom found) :
    m.1 = bom ∨ m ∈ found := by
  unfold sectionStarts at h
  split at h
  · exact .inl (by rw [List.mem_singleton.mp h])
  rcases List.mem_append.mp h with h | h
  · split at h
    · exact .inl (by rw [List.mem_singleton.mp h])
    · cases h
  · exact .inr h

lemma Partition.start_le
    (h : Partition gb18030 encoding bom size lines chapters) (hbom : bom ≤ place)
    (hbefore : Before gb18030 encoding bom lines place) {c : Chapter} (hc : c ∈ chapters) :
    startOf c ≤ place := by
  have hmem : mark c ∈ sectionStarts bom (headings gb18030 encoding lines) :=
    h.marks ▸ mem_map_of_mem hc
  rcases mem_sectionStarts hmem with hstart | hheading
  · rw [show startOf c = (bom : ℤ) from hstart]
    exact Int.ofNat_le.mpr hbom
  obtain ⟨l, hl, hsome⟩ := mem_filterMap.mp hheading
  split at hsome
  · rename_i hhead
    obtain ⟨title, -, heq⟩ := map_eq_some_iff.mp hsome
    have hlt := (hbefore l hl (.inl hhead)).2
    have hstart : (l.start : ℤ) = startOf c := congrArg Prod.fst heq
    omega
  · cases hsome

lemma Partition.other (h : Partition gb18030 encoding bom size lines chapters)
    (hheading : l.isHeading gb18030 encoding = false) (hbody : l.isBody gb18030 encoding = false) :
    Partition gb18030 encoding bom size (lines ++ [l]) chapters where
  tiles := h.tiles
  marks := by rw [headings_append, headings_of_not hheading, append_nil, h.marks]
  bodies c hc := by simp [h.bodies c hc, or_and_right, exists_or, hbody]

lemma Partition.body (h : Partition gb18030 encoding bom size lines (front ++ [last]))
    (hheading : l.isHeading gb18030 encoding = false) (hbody : l.isBody gb18030 encoding = true)
    (hbom : bom ≤ l.start) (hbefore : Before gb18030 encoding bom lines l.start)
    (hsize : l.start < size) :
    Partition gb18030 encoding bom size (lines ++ [l])
      (front ++ [{ last with hasBody := true }]) := by
  obtain ⟨middle, hfront, hstart, hle, hend⟩ := tiles_append.mp h.tiles
  have hlast := h.start_le hbom hbefore (mem_append_right _ mem_cons_self)
  refine ⟨tiles_append.mpr ⟨middle, hfront, hstart, hle, hend⟩, ?_, ?_⟩
  · rw [headings_append, headings_of_not hheading, append_nil, ← h.marks]
    simp [mark, startOf]
  intro c hc
  rcases List.mem_append.mp hc with hc | hc
  · -- an earlier section ends before the line
    have hstop := (hfront.bounds hc).2.2
    have hnot : ¬ Holds startOf endOf (l.start : ℤ) c := fun hholds => by
      have := hholds.2
      omega
    rw [h.bodies c (mem_append_left _ hc)]
    simp [or_and_right, exists_or, hnot]
  · rw [List.mem_singleton.mp hc]
    refine ⟨fun _ => ⟨l, by simp, hbody, hlast, ?_⟩, fun _ => rfl⟩
    have hsame : endOf { last with hasBody := true } = (size : ℤ) := hend
    rw [hsame]
    exact Int.ofNat_lt.mpr hsize

lemma toInt_ofNat {n : ℕ} (h : n < 2 ^ 63) : (Int64.ofNat n).toInt = n :=
  Int64.toInt_ofNat_of_lt h

lemma Partition.heading (h : Partition gb18030 encoding bom size lines (front ++ [last]))
    (hnot : headings gb18030 encoding lines ≠ [])
    (htitle : l.title? gb18030 encoding = some title)
    (hheading : l.isHeading gb18030 encoding = true) (hbom : bom ≤ l.start)
    (hbefore : Before gb18030 encoding bom lines l.start) (hsize : l.start ≤ size)
    (hfits : size < 2 ^ 63) :
    Partition gb18030 encoding bom size (lines ++ [l])
      (front ++ [{ last with end_ := Int64.ofNat l.start },
        ⟨normalizedChapterTitle title, Int64.ofNat l.start, Int64.ofNat size, false⟩]) := by
  obtain ⟨middle, hfront, hstart, hle, hend⟩ := tiles_append.mp h.tiles
  have hlast := h.start_le hbom hbefore (mem_append_right _ mem_cons_self)
  have hbody := not_isBody hheading
  have hnew : (Int64.ofNat l.start).toInt = l.start := toInt_ofNat (by omega)
  have hstop : (Int64.ofNat size).toInt = size := toInt_ofNat hfits
  refine ⟨tiles_append.mpr ⟨middle, hfront, hstart, ?_, rfl, ?_, ?_⟩, ?_, ?_⟩
  · rw [← hstart]
    exact hlast.trans hnew.ge
  · rw [endOf, endOf, hnew, hstop]
    exact Int.ofNat_le.mpr hsize
  · exact hstop
  · obtain ⟨first, more, hfound⟩ := exists_cons_of_ne_nil hnot
    rw [headings_append, headings_singleton htitle hheading, hfound, cons_append]
    have hmarks := h.marks
    rw [hfound] at hmarks
    simp only [map_append, map_cons, map_nil, sectionStarts] at hmarks ⊢
    rw [show mark { last with end_ := Int64.ofNat l.start } = mark last from rfl,
      show mark ⟨normalizedChapterTitle title, Int64.ofNat l.start, Int64.ofNat size, false⟩ =
        ((l.start : ℤ), normalizedChapterTitle title) from Prod.ext hnew rfl]
    rw [append_cons, hmarks]
    simp
  · have hlines : ∀ c, (∃ l' ∈ lines ++ [l], l'.isBody gb18030 encoding = true ∧
        Holds startOf endOf (l'.start : ℤ) c) ↔ ∃ l' ∈ lines, l'.isBody gb18030 encoding = true ∧
        Holds startOf endOf (l'.start : ℤ) c := fun c => by
      simp [or_and_right, exists_or, hbody]
    intro c hc
    rw [hlines]
    simp only [mem_append, mem_cons, not_mem_nil, or_false] at hc
    rcases hc with hc | rfl | rfl
    · exact h.bodies c (mem_append_left _ hc)
    · refine (h.bodies last (mem_append_right _ mem_cons_self)).trans ?_
      refine exists_congr fun l' => and_congr_right fun hl' => and_congr_right fun hbody' => ?_
      have hlt := (hbefore l' hl' (.inr hbody')).2
      have hold : last.end_.toInt = (size : ℤ) := hend
      simp only [Holds, startOf, endOf, hold, hnew]
      omega
    · refine iff_of_false Bool.false_ne_true ?_
      rintro ⟨l', hl', hbody', hholds, -⟩
      have hlt := (hbefore l' hl' (.inr hbody')).2
      have hholds : (Int64.ofNat l.start).toInt ≤ l'.start := hholds
      rw [hnew] at hholds
      omega

lemma Partition.opening {only : Bool}
    (h : Partition gb18030 encoding bom size lines
      [⟨['正', '文'], Int64.ofNat bom, Int64.ofNat size, only⟩])
    (hnone : headings gb18030 encoding lines = [])
    (htitle : l.title? gb18030 encoding = some title)
    (hheading : l.isHeading gb18030 encoding = true) (hbom : bom ≤ l.start)
    (hbefore : Before gb18030 encoding bom lines l.start) (hsize : l.start ≤ size)
    (hfits : size < 2 ^ 63) :
    Partition gb18030 encoding bom size (lines ++ [l])
      ((if bom < l.start then [⟨['开', '始'], Int64.ofNat bom, Int64.ofNat l.start, only⟩] else []) ++
        [⟨normalizedChapterTitle title, Int64.ofNat l.start, Int64.ofNat size, false⟩]) := by
  have hnew : (Int64.ofNat l.start).toInt = l.start := toInt_ofNat (by omega)
  have hmark : (Int64.ofNat bom).toInt = bom := toInt_ofNat (by omega)
  have hstop : (Int64.ofNat size).toInt = size := toInt_ofNat hfits
  have hbody := not_isBody hheading
  have hlines : ∀ c, (∃ l' ∈ lines ++ [l], l'.isBody gb18030 encoding = true ∧
      Holds startOf endOf (l'.start : ℤ) c) ↔ ∃ l' ∈ lines, l'.isBody gb18030 encoding = true ∧
      Holds startOf endOf (l'.start : ℤ) c := fun c => by
    simp [or_and_right, exists_or, hbody]
  have hlast : ¬ ∃ l' ∈ lines, l'.isBody gb18030 encoding = true ∧ Holds startOf endOf (l'.start : ℤ)
      ⟨normalizedChapterTitle title, Int64.ofNat l.start, Int64.ofNat size, false⟩ := by
    rintro ⟨l', hl', hbody', hholds, -⟩
    have hlt := (hbefore l' hl' (.inr hbody')).2
    have hholds : (Int64.ofNat l.start).toInt ≤ l'.start := hholds
    omega
  have hmarks : sectionStarts bom (headings gb18030 encoding (lines ++ [l])) =
      (if (bom : ℤ) < l.start then [((bom : ℤ), ['开', '始'])] else []) ++
        [((l.start : ℤ), normalizedChapterTitle title)] := by
    rw [headings_append, hnone, headings_singleton htitle hheading, nil_append]
    rfl
  by_cases hopening : bom < l.start
  · rw [if_pos hopening]
    refine ⟨⟨hmark, ?_, hnew.trans hnew.symm, ?_, hstop⟩, ?_, ?_⟩
    · rw [endOf, hnew]
      exact Int.ofNat_le.mpr hbom
    · rw [endOf, endOf, hnew, hstop]
      exact Int.ofNat_le.mpr hsize
    · rw [hmarks, if_pos (Int.ofNat_lt.mpr hopening)]
      simp [mark, startOf, hmark, hnew]
    intro c hc
    rw [hlines]
    simp only [cons_append, nil_append, mem_cons, not_mem_nil, or_false] at hc
    rcases hc with rfl | rfl
    · refine (h.bodies _ mem_cons_self).trans ?_
      refine exists_congr fun l' => and_congr_right fun hl' => and_congr_right fun hbody' => ?_
      have hlt := (hbefore l' hl' (.inr hbody')).2
      simp only [Holds, startOf, endOf, hmark, hnew, hstop]
      omega
    · exact iff_of_false Bool.false_ne_true hlast
  · have hsame : l.start = bom := by omega
    rw [if_neg hopening]
    refine ⟨⟨?_, ?_, hstop⟩, ?_, ?_⟩
    · rw [startOf, hnew, hsame]
    · rw [endOf, hstop]
      omega
    · rw [hmarks, if_neg (by omega)]
      simp [mark, startOf, hnew]
    intro c hc
    rw [hlines]
    rw [nil_append, mem_singleton] at hc
    rw [hc]
    exact iff_of_false Bool.false_ne_true hlast

/-! ### The scan -/

/-- The sections found so far, as if the text ended here, are a partition of its lines. -/
structure Held (gb18030 : Bytes → Option Text) (encoding : Encoding) (bom size : ℕ)
    (lines : List Line) (s : Scan) : Prop where
  partition : Partition gb18030 encoding bom size lines (s.finish (Int64.ofNat size) bom)
  empty : s.chapters = [] ↔ headings gb18030 encoding lines = []

lemma finish_concat {size : Int64}
    (h : s.chapters = front ++ [last]) :
    s.finish size bom = front ++ [{ last with end_ := size }] := by
  rw [Scan.finish, h, if_neg (by simp), modifyLast_concat]

lemma Held.line (h : Held gb18030 encoding bom size lines s) (start : Int64)
    (line : Option Bytes) :
    Held gb18030 encoding bom size lines { s with lineStart := start, line := line } :=
  ⟨h.partition, h.empty⟩

lemma Held.read (h : Held gb18030 encoding bom size lines s) (bytes : Bytes) :
    Held gb18030 encoding bom size lines (s.read bytes) :=
  ⟨h.partition, h.empty⟩

lemma Held.other (h : Held gb18030 encoding bom size lines s)
    (hheading : l.isHeading gb18030 encoding = false) (hbody : l.isBody gb18030 encoding = false) :
    Held gb18030 encoding bom size (lines ++ [l]) s := by
  refine ⟨h.partition.other hheading hbody, ?_⟩
  rw [headings_append, headings_of_not hheading, append_nil]
  exact h.empty

lemma Held.body (h : Held gb18030 encoding bom size lines s)
    (hheading : l.isHeading gb18030 encoding = false) (hbody : l.isBody gb18030 encoding = true)
    (hbom : bom ≤ l.start) (hbefore : Before gb18030 encoding bom lines l.start)
    (hsize : l.start < size) : Held gb18030 encoding bom size (lines ++ [l]) s.body := by
  have hpart := h.partition
  have hempty : headings gb18030 encoding (lines ++ [l]) = headings gb18030 encoding lines := by
    rw [headings_append, headings_of_not hheading, append_nil]
  rcases eq_nil_or_concat' s.chapters with hnil | ⟨front, last, hcons⟩
  · rw [Scan.finish, if_pos hnil] at hpart
    have hnew := Partition.body (show Partition gb18030 encoding bom size lines ([] ++ [_]) from hpart)
      hheading hbody hbom hbefore hsize
    refine ⟨?_, ?_⟩
    · rw [Scan.body, if_pos hnil, Scan.finish, if_pos hnil]
      exact hnew
    · rw [Scan.body, if_pos hnil, hempty]
      exact h.empty
  · have hne : s.chapters ≠ [] := by simp [hcons]
    rw [finish_concat hcons] at hpart
    have hmodified : s.body.chapters = front ++ [{ last with hasBody := true }] := by
      rw [Scan.body, if_neg hne, hcons, modifyLast_concat]
    refine ⟨?_, ?_⟩
    · rw [finish_concat hmodified]
      exact hpart.body hheading hbody hbom hbefore hsize
    · rw [hmodified, hempty, ← h.empty, hcons]
      simp

lemma Held.heading (h : Held gb18030 encoding bom size lines s)
    (htitle : l.title? gb18030 encoding = some title)
    (hheading : l.isHeading gb18030 encoding = true) (hbom : bom ≤ l.start)
    (hbefore : Before gb18030 encoding bom lines l.start) (hsize : l.start ≤ size)
    (hfits : size < 2 ^ 63) :
    Held gb18030 encoding bom size (lines ++ [l])
      (s.heading (Int64.ofNat size) (Int64.ofNat bom) (Int64.ofNat l.start) title) := by
  have hpart := h.partition
  have hnew : (Int64.ofNat l.start).toInt = l.start := toInt_ofNat (by omega)
  have hmark : (Int64.ofNat bom).toInt = bom := toInt_ofNat (by omega)
  have hlt : (Int64.ofNat bom < Int64.ofNat l.start) ↔ bom < l.start := by
    rw [Int64.lt_iff_toInt_lt, hmark, hnew]
    exact Int.ofNat_lt
  have hsingle := headings_singleton htitle hheading
  have hempty : headings gb18030 encoding (lines ++ [l]) ≠ [] := by
    rw [headings_append, hsingle]
    simp
  rcases eq_nil_or_concat' s.chapters with hnil | ⟨front, last, hcons⟩
  · rw [Scan.finish, if_pos hnil] at hpart
    have hnew := hpart.opening (h.empty.mp hnil) htitle hheading hbom hbefore hsize hfits
    have hchapters : (s.heading (Int64.ofNat size) (Int64.ofNat bom) (Int64.ofNat l.start)
        title).chapters = (if bom < l.start then [⟨['开', '始'], Int64.ofNat bom,
          Int64.ofNat l.start, s.preambleHasBody⟩] else []) ++
        [⟨normalizedChapterTitle title, Int64.ofNat l.start, Int64.ofNat size, false⟩] := by
      simp only [Scan.heading, hnil, decide_true, Bool.true_and, decide_eq_true_eq, hlt]
      split <;> rfl
    refine ⟨?_, ?_⟩
    · rw [finish_concat hchapters]
      exact hnew
    · rw [hchapters]
      simp [hempty]
  · have hne : s.chapters ≠ [] := by simp [hcons]
    rw [finish_concat hcons] at hpart
    have hnot : headings gb18030 encoding lines ≠ [] := mt h.empty.mpr hne
    have hnew := hpart.heading hnot htitle hheading hbom hbefore hsize hfits
    have hchapters : (s.heading (Int64.ofNat size) (Int64.ofNat bom) (Int64.ofNat l.start)
        title).chapters = (front ++ [{ last with end_ := Int64.ofNat l.start }]) ++
        [⟨normalizedChapterTitle title, Int64.ofNat l.start, Int64.ofNat size, false⟩] := by
      simp only [Scan.heading, hne, decide_false, Bool.false_and, Bool.false_eq_true, if_false]
      rw [hcons, modifyLast_concat]
    refine ⟨?_, ?_⟩
    · rw [finish_concat hchapters, append_assoc]
      exact hnew
    · rw [hchapters]
      simp [hempty]

def keptLine (raw : Bytes) : Option Bytes :=
  if raw.length ≤ maxTitleLineBytes then some raw else none

/-- What every text that is scanned satisfies: only UTF-8 has a mark, and sizes fit. -/
structure Fits (encoding : Encoding) (bom size : ℕ) : Prop where
  small : bom ≤ 3
  marked : bom = 0 ∨ encoding = .utf8
  size : size < 2 ^ 63

/-- The scan stands in the line that starts at a place, of which it has read some bytes. -/
structure At (gb18030 : Bytes → Option Text) (encoding : Encoding) (bom size : ℕ)
    (lines : List Line) (start : ℕ) (raw : Bytes) (s : Scan) : Prop where
  held : Held gb18030 encoding bom size lines s
  before : Before gb18030 encoding bom lines start
  past : start = 0 ∨ bom ≤ start
  lineStart : s.lineStart = Int64.ofNat start
  offset : s.offset = Int64.ofNat (start + raw.length)
  line : s.line = keptLine raw

variable {start : ℕ} {raw : Bytes}

lemma At.read (h : At gb18030 encoding bom size lines start raw s) (bytes : Bytes) :
    At gb18030 encoding bom size lines start (raw ++ bytes) (s.read bytes) where
  held := h.held.read bytes
  before := h.before
  past := h.past
  lineStart := h.lineStart
  offset := by
    rw [Scan.read, h.offset, length_append, ← Nat.add_assoc, Int64.ofNat_add (start + _)]
  line := by
    simp only [Scan.read, h.line, keptLine, length_append]
    by_cases hraw : raw.length ≤ maxTitleLineBytes
    · rw [if_pos hraw, bind_some]
    · rw [if_neg hraw, bind_none, if_neg (by omega)]

lemma lineAt_zero : lineAt bom 0 raw = ⟨bom, raw.drop bom, raw.length⟩ := rfl

lemma lineAt_pos (h : start ≠ 0) : lineAt bom start raw = ⟨start, raw, raw.length⟩ := by
  rw [lineAt, if_neg h]

lemma size_lineAt : (lineAt bom start raw).size = raw.length := by
  unfold lineAt
  split <;> rfl

lemma le_start_lineAt (raw : Bytes) (h : start = 0 ∨ bom ≤ start) :
    bom ≤ (lineAt bom start raw).start ∧ start ≤ (lineAt bom start raw).start := by
  by_cases hzero : start = 0
  · subst hzero
    exact ⟨Nat.le_refl _, Nat.zero_le _⟩
  · rw [lineAt_pos hzero]
    exact ⟨h.resolve_left hzero, Nat.le_refl _⟩

lemma decodeBytes_nil : decodeBytes gb18030 [] .utf8 = some [] := text?_iff.mpr rfl

lemma start_lt (hfits : Fits encoding bom size) (hne : raw ≠ []) (hmark : start = 0 → bom ≤ raw.length)
    (h : (lineAt bom start raw).isHeading gb18030 encoding = true ∨
      (lineAt bom start raw).isBody gb18030 encoding = true) :
    (lineAt bom start raw).start < start + raw.length := by
  have hpos := length_pos_iff.mpr hne
  by_cases hzero : start = 0
  swap
  · rw [lineAt_pos hzero]
    exact Nat.lt_add_of_pos_right hpos
  subst hzero
  rw [lineAt_zero] at h ⊢
  by_contra hle
  -- the line is the mark alone
  have hle : raw.length ≤ bom := by simpa using hle
  have hmarked := hfits.marked.resolve_left (by omega)
  have hsmall := hfits.small
  have hbytes : raw.drop bom = [] := drop_eq_nil_of_le hle
  subst hmarked
  have htitle : Line.title? gb18030 .utf8 ⟨bom, raw.drop bom, raw.length⟩ = some [] := by
    rw [Line.title?, hbytes, decodeBytes_nil]
    rfl
  have hshort : ¬ maxTitleLineBytes < raw.length := by
    rw [maxTitleLineBytes]
    omega
  rcases h with h | h
  · rw [Line.isHeading, htitle] at h
    revert h
    simp [isChapterTitle, normalizedChapterTitle, trimSpace, trim, bracketPairs, bracketed]
  rw [Line.isBody, htitle] at h
  revert h
  simp [hshort, meaningfulBodyLine, trim]

lemma Before.mono (h : Before gb18030 encoding bom lines start) (hle : start ≤ place) :
    Before gb18030 encoding bom lines place := fun l hl hcounts =>
  ⟨(h l hl hcounts).1, (h l hl hcounts).2.trans_le hle⟩

lemma Before.append (h : Before gb18030 encoding bom lines place)
    (hl : l.isHeading gb18030 encoding = true ∨ l.isBody gb18030 encoding = true →
      bom ≤ l.start ∧ l.start < place) : Before gb18030 encoding bom (lines ++ [l]) place := by
  intro l' hl' hcounts
  rcases List.mem_append.mp hl' with hl' | hl'
  · exact h l' hl' hcounts
  · rw [List.mem_singleton.mp hl'] at hcounts ⊢
    exact hl hcounts

lemma Held.settle {text : Text} (h : Held gb18030 encoding bom size lines s)
    (htext : decodeBytes gb18030 l.bytes encoding = some text)
    (hshort : l.size ≤ maxTitleLineBytes) (hbom : bom ≤ l.start)
    (hbefore : Before gb18030 encoding bom lines l.start)
    (hsize : l.isHeading gb18030 encoding = true ∨ l.isBody gb18030 encoding = true →
      l.start < size) (hfits : size < 2 ^ 63) :
    Held gb18030 encoding bom size (lines ++ [l])
      (s.settle (Int64.ofNat size) (Int64.ofNat bom) (Int64.ofNat l.start) text) := by
  have htitle : l.title? gb18030 encoding = some (trimSpace text) := by
    rw [Line.title?, htext]
    rfl
  have hheading : l.isHeading gb18030 encoding = isChapterTitle (trimSpace text) := by
    simp [Line.isHeading, htitle, hshort]
  have hbody : l.isBody gb18030 encoding =
      (!isChapterTitle (trimSpace text) && meaningfulBodyLine (trimSpace text)) := by
    simp [Line.isBody, htitle, hshort]
  unfold Scan.settle
  dsimp only
  by_cases htitled : isChapterTitle (trimSpace text) = true
  · rw [if_pos htitled]
    have hheads : l.isHeading gb18030 encoding = true := hheading.trans htitled
    exact h.heading htitle hheads hbom hbefore (hsize (.inl hheads)).le hfits
  rw [if_neg htitled]
  have hheads : l.isHeading gb18030 encoding = false := by simpa [hheading] using htitled
  by_cases hmeans : meaningfulBodyLine (trimSpace text) = true
  · rw [if_pos hmeans]
    have hbodies : l.isBody gb18030 encoding = true := by simp [hbody, htitled, hmeans]
    exact h.body hheads hbodies hbom hbefore (hsize (.inr hbodies))
  · rw [if_neg hmeans]
    exact h.other hheads (by simp [hbody, hmeans])

lemma offset_body (s : Scan) : s.body.offset = s.offset := by
  unfold Scan.body
  split <;> rfl

lemma offset_settle (s : Scan) (size bom titleStart : Int64) (text : Text) :
    (s.settle size bom titleStart text).offset = s.offset := by
  unfold Scan.settle
  dsimp only
  split
  · rfl
  split
  · exact offset_body s
  · rfl

/-- **The end of a line**: one more line, and the scan stands in front of the next one. -/
lemma At.endLine (h : At gb18030 encoding bom size lines start raw s)
    (hfits : Fits encoding bom size) (hne : raw ≠ []) (hmark : start = 0 → bom ≤ raw.length)
    (hend : start + raw.length ≤ size)
    (hdecode : ∃ text, decodeBytes gb18030 (lineAt bom start raw).bytes encoding = some text) :
    ∃ next, s.endLine gb18030 encoding (Int64.ofNat size) bom = .ok next ∧
      At gb18030 encoding bom size (lines ++ [lineAt bom start raw]) (start + raw.length) []
        next := by
  obtain ⟨hbom, hle⟩ := le_start_lineAt raw h.past
  have hsizes := hfits.size
  have hlt : (lineAt bom start raw).isHeading gb18030 encoding = true ∨
      (lineAt bom start raw).isBody gb18030 encoding = true →
      (lineAt bom start raw).start < start + raw.length := start_lt hfits hne hmark
  have hbefore := h.before.mono hle
  have hnext : Before gb18030 encoding bom (lines ++ [lineAt bom start raw])
      (start + raw.length) :=
    (h.before.mono (Nat.le_add_right _ _)).append fun hcounts => ⟨hbom, hlt hcounts⟩
  have hpast : start + raw.length = 0 ∨ bom ≤ start + raw.length := by
    rcases h.past with hzero | hpast
    · exact .inr ((hmark hzero).trans (Nat.le_add_left _ _))
    · exact .inr (hpast.trans (Nat.le_add_right _ _))
  have hat : ∀ {next : Scan}, Held gb18030 encoding bom size (lines ++ [lineAt bom start raw]) next →
      next.offset = s.offset → At gb18030 encoding bom size (lines ++ [lineAt bom start raw])
        (start + raw.length) [] { next with lineStart := s.offset, line := some [] } :=
    fun hheld hoffset => ⟨hheld.line _ _, hnext, hpast, h.offset, hoffset.trans h.offset, rfl⟩
  unfold Scan.endLine
  rw [h.line, keptLine]
  by_cases hshort : raw.length ≤ maxTitleLineBytes
  · rw [if_pos hshort]
    obtain ⟨text, htext⟩ := hdecode
    obtain ⟨byte, more, hraw⟩ := exists_cons_of_ne_nil hne
    have hzero : (s.lineStart == 0) = decide (start = 0) := by
      rw [h.lineStart, Bool.eq_iff_iff, beq_iff_eq, decide_eq_true_eq]
      constructor
      · intro heq
        have hint := congrArg Int64.toInt heq
        rw [toInt_ofNat (by omega)] at hint
        exact Int.ofNat_inj.mp hint
      · rintro rfl
        rfl
    have hline : (if (s.lineStart == 0 && decide (0 < bom) && decide (bom ≤ raw.length)) = true then
          raw.drop bom else raw) = (lineAt bom start raw).bytes ∧
        (if (s.lineStart == 0 && decide (0 < bom) && decide (bom ≤ raw.length)) = true then
          s.lineStart + Int64.ofNat bom else s.lineStart) =
          Int64.ofNat (lineAt bom start raw).start := by
      rw [hzero, h.lineStart]
      by_cases hstart : start = 0
      · subst hstart
        have hmarked := hmark rfl
        rcases Nat.eq_zero_or_pos bom with rfl | hpos
        · exact ⟨rfl, rfl⟩
        · simp [lineAt_zero, hpos, hmarked]
      · rw [lineAt_pos hstart]
        simp [hstart]
    have hheld := h.held.settle htext (by rwa [size_lineAt]) hbom hbefore
      (fun hcounts => (hlt hcounts).trans_le hend) hfits.size
    rw [hraw] at hline ⊢
    rw [hraw] at hat htext hheld
    refine ⟨_, ?_, hat hheld ?_⟩
    · dsimp only
      rw [hline.1, hline.2, htext]
      rfl
    · exact offset_settle _ _ _ _ _
  · rw [if_neg hshort]
    have hlong : maxTitleLineBytes < (lineAt bom start raw).size := by
      rw [size_lineAt]
      omega
    have hheading : (lineAt bom start raw).isHeading gb18030 encoding = false := by
      simp [Line.isHeading, hlong]
    have hbody : (lineAt bom start raw).isBody gb18030 encoding = true := by
      simp [Line.isBody, hlong]
    exact ⟨_, rfl, hat (h.held.body hheading hbody hbom hbefore
      ((hlt (.inr hbody)).trans_le hend)) (offset_body s)⟩

lemma At.endLine_nil (h : At gb18030 encoding bom size lines start [] s) :
    ∃ next, s.endLine gb18030 encoding (Int64.ofNat size) bom = .ok next ∧
      At gb18030 encoding bom size lines start [] next := by
  unfold Scan.endLine
  rw [h.line]
  exact ⟨_, rfl, h.held.line _ _, h.before, h.past, h.offset, h.offset, rfl⟩

/-! ### A whole text -/

lemma linesFrom_cons {more : List Bytes} : linesFrom bom start (raw :: more) =
    lineAt bom start raw :: linesFrom bom (start + raw.length) more := rfl

lemma At.run {last : Bytes} (hfits : Fits encoding bom size) (hlast : newline ∉ last) :
    ∀ {fragments : List Fragment} {s : Scan} {lines : List Line} {start : ℕ} {raw rest : Bytes},
      (∀ fragment ∈ fragments, fragment.WellFormed) →
      rest = raw ++ fragments.flatMap Fragment.bytes ++ last → newline ∉ raw →
      At gb18030 encoding bom size lines start raw s → start + rest.length = size →
      (start = 0 → ∀ line ∈ (cut newline rest).head?, bom ≤ line.length) →
      (∀ l ∈ linesFrom bom start (cut newline rest),
        ∃ text, decodeBytes gb18030 l.bytes encoding = some text) →
      ∃ middle next, s.run gb18030 encoding (Int64.ofNat size) bom fragments = .ok middle ∧
        (middle.read last).endLine gb18030 encoding (Int64.ofNat size) bom = .ok next ∧
        Held gb18030 encoding bom size (lines ++ linesFrom bom start (cut newline rest)) next := by
  intro fragments
  induction fragments with
  | nil =>
    intro s lines start raw rest _ hrest hraw h hsize hmark hdecode
    rw [flatMap_nil, append_nil] at hrest
    subst hrest
    have hcut : cut newline (raw ++ last) = if raw ++ last = [] then [] else [raw ++ last] :=
      cut_last fun hmem => (List.mem_append.mp hmem).elim hraw hlast
    have hread := h.read last
    by_cases hnil : raw ++ last = []
    · rw [hnil] at hread
      obtain ⟨next, hnext, hheld⟩ := hread.endLine_nil
      refine ⟨s, next, rfl, hnext, ?_⟩
      rw [hcut, if_pos hnil, linesFrom, append_nil]
      exact hheld.held
    · rw [hcut, if_neg hnil] at hmark hdecode
      obtain ⟨next, hnext, hheld⟩ := hread.endLine hfits hnil
        (fun hzero => hmark hzero _ rfl) hsize.le (hdecode _ mem_cons_self)
      refine ⟨s, next, rfl, hnext, ?_⟩
      rw [hcut, if_neg hnil]
      exact hheld.held
  | cons fragment more ih =>
    intro s lines start raw rest hwell hrest hraw h hsize hmark hdecode
    have hwell' := fun f hf => hwell f (mem_cons_of_mem _ hf)
    cases fragment with
    | full bytes =>
      have hbytes : newline ∉ bytes := hwell _ mem_cons_self
      refine ih hwell' ?_ ?_ (h.read bytes) hsize hmark hdecode
      · rw [hrest, flatMap_cons, Fragment.bytes]
        simp only [append_assoc]
      · exact fun hmem => (List.mem_append.mp hmem).elim hraw hbytes
    | line bytes =>
      obtain ⟨line, hline, rfl⟩ := hwell _ mem_cons_self
      obtain ⟨tail, htail⟩ : ∃ tail, tail = [] ++ more.flatMap Fragment.bytes ++ last := ⟨_, rfl⟩
      have hsplit : rest = (raw ++ line) ++ newline :: tail := by
        rw [hrest, htail, flatMap_cons, Fragment.bytes]
        simp
      have hcut : cut newline rest = (raw ++ line ++ [newline]) :: cut newline tail := by
        rw [hsplit]
        exact cut_line (fun hmem => (List.mem_append.mp hmem).elim hraw hline) _
      have hlen : rest.length = (raw ++ line ++ [newline]).length + tail.length := by
        rw [hsplit]
        simp
        omega
      rw [hcut] at hmark hdecode ⊢
      rw [linesFrom_cons] at hdecode ⊢
      have hread := h.read (line ++ [newline])
      rw [← append_assoc] at hread
      obtain ⟨next, hnext, hat⟩ := hread.endLine hfits (by simp) (fun hzero => hmark hzero _ rfl)
        (by omega) (hdecode _ mem_cons_self)
      obtain ⟨middle, final, hrun, hfinal, hheld⟩ := ih hwell' htail (by simp) hat (by omega)
        (fun hzero => absurd hzero (by simp)) fun l hl => hdecode l (mem_cons_of_mem _ hl)
      refine ⟨middle, final, ?_, hfinal, ?_⟩
      · rw [Scan.run, hnext]
        exact hrun
      · rw [append_cons]
        exact hheld

lemma at_init (hfits : Fits encoding bom size) (hbom : bom ≤ size) :
    At gb18030 encoding bom size [] 0 [] Scan.init := by
  have hsize := hfits.size
  have hmark : (Int64.ofNat bom).toInt = bom := toInt_ofNat (by omega)
  have hstop : (Int64.ofNat size).toInt = size := toInt_ofNat hfits.size
  refine ⟨⟨⟨⟨hmark, ?_, hstop⟩, ?_, ?_⟩, iff_of_true rfl rfl⟩, ?_, .inl rfl, rfl, rfl, rfl⟩
  · rw [endOf, hstop]
    exact Int.ofNat_le.mpr hbom
  · exact congrArg (fun start => [(start, ['正', '文'])]) hmark
  · intro c hc
    rw [List.mem_singleton.mp hc]
    exact iff_of_false Bool.false_ne_true (by simp)
  · intro l hl
    cases hl

/-- **The scan of a text**: however it is split, the sections are its partition. -/
theorem scanChapters_partition {reading : Reading}
    (hfits : Fits encoding bom content.length) (hreads : Reads content reading)
    (hbom : ∀ line ∈ (cut newline content).head?, bom ≤ line.length) (hle : bom ≤ content.length)
    (hdecode : ∀ l ∈ textLines bom content,
      ∃ text, decodeBytes gb18030 l.bytes encoding = some text) :
    ∃ chapters, scanChapters gb18030 encoding (Int64.ofNat content.length) bom reading =
        .ok chapters ∧
      Partition gb18030 encoding bom content.length (textLines bom content) chapters := by
  have hwhole : content = [] ++ reading.fragments.flatMap Fragment.bytes ++ reading.last := by
    rw [nil_append, hreads.whole]
  obtain ⟨middle, next, hrun, hnext, hheld⟩ := At.run hfits hreads.last hreads.wellFormed hwhole
    (by simp) (at_init hfits hle) (Nat.zero_add _) (fun _ => hbom) hdecode
  refine ⟨_, ?_, hheld.partition⟩
  unfold scanChapters
  rw [hrun]
  change (do
    let s ← (middle.read reading.last).endLine gb18030 encoding (Int64.ofNat content.length) bom
    if reading.failed = true then throw Refused.readError
    pure (s.finish (Int64.ofNat content.length) bom)) = _
  rw [hnext, hreads.complete]
  rfl

/-! ### The texts that are accepted -/

/-- What is scanned: UTF-8 with or without a mark, or anything for the GB18030 decoder. -/
inductive Accepted : Bytes → Encoding → ℕ → Prop
  | plain (text : Text) : Accepted (encode text) .utf8 0
  | marked (text : Text) : Accepted (byteOrderMark ++ encode text) .utf8 3
  | chinese (content : Bytes) : Accepted content .gb18030 0

lemma detectRunes_ok {found : List (Option Char)} {mark : ℕ}
    (h : detectRunes mark found = .ok (encoding, bom)) :
    (encoding = .utf8 ∧ bom = mark ∧ ∃ text : Text, found = text.map some) ∨
      (encoding = .gb18030 ∧ bom = 0) := by
  induction found with
  | nil =>
    cases h
    exact .inl ⟨rfl, rfl, [], rfl⟩
  | cons rune more ih =>
    rcases rune with _ | c
    · rw [detectRunes] at h
      split at h
      · cases h
      · cases h
        exact .inr ⟨rfl, rfl⟩
    · rw [detectRunes] at h
      split at h
      · cases h
      rcases ih h with ⟨hencoding, hbom, text, rfl⟩ | hchinese
      · exact .inl ⟨hencoding, hbom, c :: text, rfl⟩
      · exact .inr hchinese

lemma accepted_of_detect (h : detectEncoding content = .ok (encoding, bom)) :
    encoding = .utf16le ∨ encoding = .utf16be ∨ Accepted content encoding bom := by
  unfold detectEncoding at h
  split at h
  · cases h
  split at h
  · cases h
    exact .inl rfl
  split at h
  · cases h
    exact .inr (.inl rfl)
  split at h
  · rename_i hmark
    rcases detectRunes_ok h with ⟨rfl, rfl, text, htext⟩ | ⟨rfl, rfl⟩
    · have hcontent : content = byteOrderMark ++ encode text := by
        rw [← encode_of_runes htext, ← hmark, take_append_drop]
      rw [hcontent]
      exact .inr (.inr (.marked text))
    · exact .inr (.inr (.chinese content))
  · rcases detectRunes_ok h with ⟨rfl, rfl, text, htext⟩ | ⟨rfl, rfl⟩
    · rw [encode_of_runes htext]
      exact .inr (.inr (.plain text))
    · exact .inr (.inr (.chinese content))

lemma accepted_of_open {utf16 : Encoding → Bytes → Text} {source : Source}
    (h : openSource utf16 content = .ok source) :
    Accepted source.content source.encoding source.bom := by
  unfold openSource at h
  rcases hdetect : detectEncoding content with refused | ⟨encoding, bom⟩
  · rw [hdetect] at h
    cases h
  rw [hdetect] at h
  change (if encoding = .utf16le || encoding = .utf16be then _ else _) = _ at h
  split at h
  · change (if _ then _ else _) = _ at h
    split at h
    · cases h
    change (if _ then _ else _) = _ at h
    split at h
    · cases h
    · cases h
      exact .plain _
  · rename_i hnot
    cases h
    rcases accepted_of_detect hdetect with rfl | rfl | haccepted
    · simp at hnot
    · simp at hnot
    · exact haccepted

lemma newline_not_mem {c : Char} (h : c ≠ '\n') : newline ∉ String.utf8EncodeChar c := by
  intro hmem
  have hmem : newline ∈ encode [c] := by simpa [encode] using hmem
  have hc := mem_of_ascii hmem (by decide)
  rw [mem_singleton] at hc
  exact h (hc.symm.trans (by decide))

lemma encode_of_mem_cut {text : Text} {line : Bytes} (h : line ∈ cut newline (encode text)) :
    ∃ part, line = encode part := by
  induction text generalizing line with
  | nil => cases h
  | cons c text ih =>
    rw [encode_cons] at h
    by_cases hc : c = '\n'
    · subst hc
      rw [show String.utf8EncodeChar '\n' = [newline] by decide, singleton_append, cut,
        if_pos rfl] at h
      rcases List.mem_cons.mp h with rfl | h
      · exact ⟨['\n'], rfl⟩
      · exact ih h
    · have hne : String.utf8EncodeChar c ≠ [] := by
        obtain ⟨byte, more, hbytes, -⟩ := utf8EncodeChar_head c
        simp [hbytes]
      rw [cut_append (newline_not_mem hc)] at h
      rcases hcut : cut newline (encode text) with _ | ⟨first, more⟩
      · rw [hcut] at h
        dsimp only at h
        rw [if_neg hne, mem_singleton] at h
        exact ⟨[c], by rw [h, encode_cons, encode_nil, append_nil]⟩
      rw [hcut] at h ih
      rcases List.mem_cons.mp h with rfl | h
      · obtain ⟨part, hpart⟩ := ih mem_cons_self
        exact ⟨c :: part, by rw [hpart, encode_cons]⟩
      · exact ih (mem_cons_of_mem _ h)

lemma encode_trimSuffix {byte : UInt8} (hbyte : byte < 128) (text : Text) :
    ∃ part, trimSuffix byte (encode text) = encode part := by
  unfold trimSuffix
  split
  swap
  · exact ⟨text, rfl⟩
  rename_i hlast
  rcases eq_nil_or_concat' text with rfl | ⟨front, c, rfl⟩
  · exact ⟨[], rfl⟩
  refine ⟨front, ?_⟩
  have hsplit : encode (front ++ [c]) = encode front ++ String.utf8EncodeChar c := by
    rw [encode_append, encode_cons, encode_nil, append_nil]
  rw [hsplit] at hlast ⊢
  by_cases hascii : c.toNat < 128
  · rcases utf8EncodeChar_cases c with ⟨-, hc⟩ | ⟨h, -⟩ | ⟨h, -⟩ | ⟨h, -⟩
    · rw [hc, dropLast_concat]
    all_goals omega
  have hne : String.utf8EncodeChar c ≠ [] := by
    obtain ⟨first, more, hbytes, -⟩ := utf8EncodeChar_head c
    simp [hbytes]
  rw [getLast?_append_of_ne_nil _ hne] at hlast
  have hhigh := high_of_mem (by omega) (mem_of_getLast? hlast)
  exact absurd hbyte (UInt8.not_lt.mpr hhigh)

lemma decodeBytes_encode (text : Text) :
    ∃ decoded, decodeBytes gb18030 (encode text) .utf8 = some decoded := by
  obtain ⟨part, hpart⟩ := encode_trimSuffix (show newline < 128 by decide) text
  obtain ⟨decoded, hdecoded⟩ := encode_trimSuffix (show carriageReturn < 128 by decide) part
  exact ⟨decoded, by rw [decodeBytes, hpart, hdecoded, text?_iff]⟩

lemma bytes_linesFrom_pos {raws : List Bytes} {start : ℕ} (hstart : start ≠ 0)
    (hl : l ∈ linesFrom bom start raws) : l.bytes ∈ raws := by
  induction raws generalizing start with
  | nil => cases hl
  | cons raw more ih =>
    rw [linesFrom_cons, lineAt_pos hstart] at hl
    rcases List.mem_cons.mp hl with rfl | hl
    · exact mem_cons_self
    · exact mem_cons_of_mem _ (ih (by omega) hl)

lemma bytes_linesFrom_unmarked {raws : List Bytes} {start : ℕ} (hl : l ∈ linesFrom 0 start raws) :
    l.bytes ∈ raws := by
  induction raws generalizing start with
  | nil => cases hl
  | cons raw more ih =>
    rw [linesFrom_cons] at hl
    rcases List.mem_cons.mp hl with rfl | hl
    · have hbytes : (lineAt 0 start raw).bytes = raw := by
        unfold lineAt
        split <;> rfl
      rw [hbytes]
      exact mem_cons_self
    · exact mem_cons_of_mem _ (ih hl)

lemma cut_marked (text : Text) : ∃ first more, (first = [] ∨ first ∈ cut newline (encode text)) ∧
    (∀ line ∈ more, line ∈ cut newline (encode text)) ∧
    cut newline (byteOrderMark ++ encode text) = (byteOrderMark ++ first) :: more := by
  rw [cut_append (by decide)]
  rcases hcut : cut newline (encode text) with _ | ⟨first, more⟩
  · exact ⟨[], [], .inl rfl, by simp, by simp [byteOrderMark]⟩
  · exact ⟨first, more, .inr mem_cons_self, fun line h => mem_cons_of_mem _ h, rfl⟩

lemma Accepted.decodes (h : Accepted content encoding bom)
    (hgb18030 : ∀ raw, ∃ text, gb18030 raw = some text) (hl : l ∈ textLines bom content) :
    ∃ text, decodeBytes gb18030 l.bytes encoding = some text := by
  cases h with
  | chinese => exact hgb18030 _
  | plain text =>
    obtain ⟨part, hpart⟩ := encode_of_mem_cut (bytes_linesFrom_unmarked hl)
    rw [hpart]
    exact decodeBytes_encode part
  | marked text =>
    obtain ⟨first, more, hfirst, hmore, hcut⟩ := cut_marked text
    rw [textLines, hcut, linesFrom_cons, lineAt_zero] at hl
    rcases List.mem_cons.mp hl with rfl | hl
    · change ∃ text, decodeBytes gb18030 ((byteOrderMark ++ first).drop 3) .utf8 = some text
      rw [show (byteOrderMark ++ first).drop 3 = first from rfl]
      rcases hfirst with rfl | hfirst
      · exact ⟨[], decodeBytes_nil⟩
      · obtain ⟨part, rfl⟩ := encode_of_mem_cut hfirst
        exact decodeBytes_encode part
    · have hmem := bytes_linesFrom_pos (by simp [byteOrderMark]) hl
      obtain ⟨part, hpart⟩ := encode_of_mem_cut (hmore _ hmem)
      rw [hpart]
      exact decodeBytes_encode part

lemma Accepted.fits (h : Accepted content encoding bom)
    (hsize : content.length < 2 ^ 63) : Fits encoding bom content.length := by
  cases h with
  | chinese => exact ⟨by omega, .inl rfl, hsize⟩
  | plain text => exact ⟨by omega, .inl rfl, hsize⟩
  | marked text => exact ⟨Nat.le_refl 3, .inr rfl, hsize⟩

lemma Accepted.mark (h : Accepted content encoding bom) :
    (∀ line ∈ (cut newline content).head?, bom ≤ line.length) ∧ bom ≤ content.length := by
  cases h with
  | chinese => exact ⟨fun _ _ => Nat.zero_le _, Nat.zero_le _⟩
  | plain text => exact ⟨fun _ _ => Nat.zero_le _, Nat.zero_le _⟩
  | marked text =>
    obtain ⟨first, more, -, -, hcut⟩ := cut_marked text
    rw [hcut]
    constructor
    · rintro line hline
      cases hline
      simp [byteOrderMark]
    · simp [byteOrderMark]

/-- **Every accepted text is scanned into its partition**, however its bytes are handed out. -/
theorem partition_of_accepted {reading : Reading}
    (h : Accepted content encoding bom) (hgb18030 : ∀ raw, ∃ text, gb18030 raw = some text)
    (hsize : content.length < 2 ^ 63) (hreads : Reads content reading) :
    ∃ chapters, scanChapters gb18030 encoding (Int64.ofNat content.length) bom reading =
        .ok chapters ∧
      Partition gb18030 encoding bom content.length (textLines bom content) chapters :=
  scanChapters_partition (h.fits hsize) hreads h.mark.1 h.mark.2 fun _ hl => h.decodes hgb18030 hl

/-! ### The check of a saved index -/

lemma follow_of_tiles {previousEnd size : Int64}
    (h : Tiles startOf endOf previousEnd.toInt chapters size.toInt) (hlow : 0 ≤ previousEnd.toInt) :
    sectionsFollow size previousEnd chapters = true := by
  induction chapters generalizing previousEnd with
  | nil => exact beq_iff_eq.mpr (Int64.toInt.inj h)
  | cons chapter rest ih =>
    obtain ⟨hstart, hle, hrest⟩ := h
    have hstart' : chapter.start = previousEnd := Int64.toInt.inj hstart
    have hend := hrest.le
    rw [sectionsFollow, if_neg]
    · exact ih hrest (hlow.trans hle)
    simp only [Bool.or_eq_true, decide_eq_true_eq, bne_iff_ne, ne_eq, not_or, not_not,
      Int64.not_lt, Int64.le_iff_toInt_le]
    refine ⟨⟨⟨?_, ?_⟩, hend⟩, hstart'⟩
    · rw [hstart']
      exact hlow
    · rw [hstart']
      exact hle

/-- **A partition passes the check of a saved index.** -/
theorem Partition.valid
    (h : Partition gb18030 encoding bom size lines chapters) (hbom : bom = 0 ∨ bom = 3)
    (hsize : size < 2 ^ 63) : validChapterIndex chapters (Int64.ofNat size) = true := by
  have htiles := h.tiles
  rcases chapters with _ | ⟨first, rest⟩
  · have hmarks := h.marks
    unfold sectionStarts at hmarks
    split at hmarks
    · cases hmarks
    · exact absurd hmarks.symm (by simp)
  · have hfirst : first.start = Int64.ofNat bom := Int64.toInt.inj (by
      rw [toInt_ofNat (by omega)]
      exact htiles.1)
    have hstart : (Int64.ofNat bom).toInt = bom := toInt_ofNat (by omega)
    have hfollow : sectionsFollow (Int64.ofNat size) first.start (first :: rest) = true := by
      refine follow_of_tiles ?_ ?_
      · rw [hfirst, hstart, toInt_ofNat hsize]
        exact htiles
      · rw [hfirst, hstart]
        exact Int.natCast_nonneg _
    unfold validChapterIndex
    dsimp only
    rw [if_neg, hfollow]
    rw [hfirst]
    rcases hbom with rfl | rfl <;> decide

end C1auncher.BookReader.ChapterPartition
