import C1auncher.BookReader.Hierarchy

/-!
The directory of a book: the rows of its outline, and the row of a place that is revealed.
-/

namespace C1auncher.BookReader.Directory

open C1auncher.CString (Text)
open BookReader.Titles BookReader.VolumeNumber
open BookReader.Outline BookReader.Hierarchy

structure DirectoryRow where
  chapter : ℕ
  volumeBody : Bool
  label : Text
deriving DecidableEq

/-- The open document, the volumes that are expanded, and the row that is picked. -/
structure ReaderApp where
  document : Document
  expandedVolumes : ℕ → Bool
  chapterPick : ℕ
  volumeBodyPick : Bool

def indented (label : Text) : Text := ' ' :: ' ' :: ' ' :: ' ' :: label

/-- The row of a volume: it expands and collapses. -/
def headerRow (app : ReaderApp) (index : ℕ) (entry : OutlineEntry) (title : Text) : DirectoryRow where
  chapter := index
  volumeBody := false
  label := (if app.expandedVolumes index then '−' else '+') :: ' ' :: title ++
    ' ' :: '(' :: Nat.toDigits 10 entry.chapterCount ++ ['章', ')']

def entryRows (app : ReaderApp) (index : ℕ) (entry : OutlineEntry) (chapter : Chapter) :
    List DirectoryRow :=
  if entry.volume && app.document.chapterOutline.grouped then
    match entry.parent with
    | some p =>
      if app.expandedVolumes p && chapter.hasBody then
        [⟨index, true, indented ['卷', '内', '正', '文']⟩]
      else []
    | none =>
      headerRow app index entry chapter.title ::
        if app.expandedVolumes index && chapter.hasBody then
          [⟨index, true, indented ['卷', '首', '正', '文']⟩]
        else []
  else if app.document.headingOnly index then []
  else
    match entry.parent with
    | some p =>
      if app.expandedVolumes p then [⟨index, false, indented chapter.title⟩] else []
    | none => [⟨index, false, chapter.title⟩]

def picked (app : ReaderApp) (row : DirectoryRow) : Bool :=
  row.chapter == app.chapterPick && row.volumeBody == app.volumeBodyPick

def appendRow (app : ReaderApp) (rows : List DirectoryRow × ℕ) (row : DirectoryRow) :
    List DirectoryRow × ℕ :=
  (rows.1 ++ [row], if picked app row then rows.1.length else rows.2)

def directoryRows (app : ReaderApp) : List DirectoryRow × ℕ :=
  (app.document.chapterOutline.entries.zip app.document.chapters).zipIdx.foldl
    (fun rows x => (entryRows app x.2 x.1.1 x.1.2).foldl (appendRow app) rows) ([], 0)

def setVolumeExpanded (app : ReaderApp) (index : ℕ) (expanded : Bool) : ReaderApp :=
  { app with expandedVolumes := fun i => if i = index then expanded else app.expandedVolumes i }

/-- A heading without a text: in a flat directory the section that is read instead is picked. -/
def revealFlat (app : ReaderApp) (index : ℕ) (chapter : Chapter) : ReaderApp :=
  if app.document.headingOnly index then
    match app.document.readingTarget index chapter.start with
    | some (target, _) => { app with chapterPick := target }
    | none => app
  else app

def revealGrouped (app : ReaderApp) (index : ℕ) (entry : OutlineEntry) (chapter : Chapter) :
    ReaderApp :=
  if !entry.volume && app.document.headingOnly index then
    match (directoryRows app).1 with
    | row :: _ => { app with chapterPick := row.chapter }
    | [] => app
  else if entry.volume && chapter.hasBody then
    { setVolumeExpanded app (entry.parent.getD index) true with volumeBodyPick := true }
  else
    match entry.parent with
    | some p =>
      { setVolumeExpanded app p true with chapterPick := if entry.volume then p else app.chapterPick }
    | none => app

/-- Its byte position and chapter do not depend on rows that are collapsed. -/
def revealChapter (app : ReaderApp) (index : ℕ) : ReaderApp :=
  let app := { app with chapterPick := index, volumeBodyPick := false }
  match app.document.chapterOutline.entries[index]?, app.document.chapters[index]? with
  | some entry, some chapter =>
    if app.document.chapterOutline.grouped then revealGrouped app index entry chapter
    else revealFlat app index chapter
  | _, _ => app

/-! ### The rows of a section -/

/-- The row of a section: of a volume the row of its own text, not its header. -/
def sectionRow (document : Document) (index : ℕ) (row : DirectoryRow) : Bool :=
  row.chapter == index && row.volumeBody == (document.chapterOutline.grouped &&
    ((document.chapterOutline.entries[index]?.map OutlineEntry.volume).getD false))

/-- Is the volume of a section expanded? The text of a volume belongs to the volume itself. -/
def shown (app : ReaderApp) (index : ℕ) (entry : OutlineEntry) : Bool :=
  match entry.parent with
  | some p => app.expandedVolumes p
  | none =>
    if entry.volume && app.document.chapterOutline.grouped then app.expandedVolumes index else true

variable {app : ReaderApp} {i : ℕ} {e : OutlineEntry} {c : Chapter}

lemma entryRows_chapter {j : ℕ} {row : DirectoryRow} (h : row ∈ entryRows app j e c) :
    row.chapter = j := by
  unfold entryRows at h
  split at h
  · split at h
    · split at h
      · rw [List.mem_singleton.mp h]
      · cases h
    rcases List.mem_cons.mp h with rfl | h
    · rfl
    split at h
    · rw [List.mem_singleton.mp h]
    · cases h
  · split at h
    · cases h
    split at h
    · split at h
      · rw [List.mem_singleton.mp h]
      · cases h
    · rw [List.mem_singleton.mp h]

lemma headingOnly_eq (he : app.document.chapterOutline.entries[i]? = some e)
    (hc : app.document.chapters[i]? = some c) : app.document.headingOnly i =
      (!c.hasBody && (e.volume || c.title == ['开', '始'])) := by
  unfold Document.headingOnly
  rw [hc, he]

lemma entryRows_section (hread : Readable app.document i)
    (he : app.document.chapterOutline.entries[i]? = some e)
    (hc : app.document.chapters[i]? = some c) : ∃ row,
      (entryRows app i e c).filter (sectionRow app.document i) =
        if shown app i e then [row] else [] := by
  have hheading := headingOnly_eq he hc
  rw [hread.2] at hheading
  have hsection : ∀ row : DirectoryRow, row.chapter = i → sectionRow app.document i row =
      (row.volumeBody == (app.document.chapterOutline.grouped && e.volume)) := by
    intro row hrow
    unfold sectionRow
    rw [he, hrow, beq_self_eq_true, Bool.true_and]
    rfl
  unfold entryRows shown
  rcases hv : e.volume && app.document.chapterOutline.grouped with _ | _
  · rw [Bool.and_comm] at hv
    rw [hread.2]
    rcases e.parent with _ | p
    · refine ⟨⟨i, false, c.title⟩, ?_⟩
      simp [hsection, hv]
    · refine ⟨⟨i, false, indented c.title⟩, ?_⟩
      rcases hx : app.expandedVolumes p with _ | _ <;> simp [hx, hsection, hv]
  · have hbody : c.hasBody = true := by
      rw [(Bool.and_eq_true_iff.mp hv).1] at hheading
      simpa using hheading.symm
    rw [Bool.and_comm] at hv
    rcases e.parent with _ | p
    · refine ⟨⟨i, true, indented ['卷', '首', '正', '文']⟩, ?_⟩
      rcases hx : app.expandedVolumes i with _ | _ <;> simp [hx, hsection, hv, hbody, headerRow]
    · refine ⟨⟨i, true, indented ['卷', '内', '正', '文']⟩, ?_⟩
      rcases hx : app.expandedVolumes p with _ | _ <;> simp [hx, hsection, hv, hbody]

/-! ### All rows -/

lemma foldl_appendRow (app : ReaderApp) (rows : List DirectoryRow) (done : List DirectoryRow × ℕ) :
    (rows.foldl (appendRow app) done).1 = done.1 ++ rows := by
  induction rows generalizing done with
  | nil => simp
  | cons row rows ih =>
    rw [List.foldl_cons, ih]
    simp [appendRow]

/-- The entries with their sections. -/
def indexed (document : Document) : List ((OutlineEntry × Chapter) × ℕ) :=
  (document.chapterOutline.entries.zip document.chapters).zipIdx

lemma directoryRows_eq (app : ReaderApp) : directoryRows app =
    ((indexed app.document).flatMap fun x => entryRows app x.2 x.1.1 x.1.2).foldl
      (appendRow app) ([], 0) := by
  unfold directoryRows indexed
  rw [List.foldl_flatMap]

lemma selected_picked (app : ReaderApp) (rows : List DirectoryRow) : ∀ row,
    ((rows.filter (picked app)).getLast? = some row) →
      rows[(rows.foldl (appendRow app) ([], 0)).2]? = some row := by
  induction rows using List.reverseRecOn with
  | nil => simp
  | append_singleton rows last ih =>
    intro row h
    rw [List.foldl_append, List.foldl_cons, List.foldl_nil, appendRow, foldl_appendRow,
      List.nil_append]
    rw [List.filter_append] at h
    rcases hp : picked app last with _ | _
    · rw [List.filter_cons_of_neg (by simp [hp]), List.filter_nil, List.append_nil] at h
      have hold := ih row h
      rw [if_neg (by simp), getElem?_append_one]
      rw [if_neg, hold]
      exact ((List.getElem?_eq_some_iff.mp hold).1).ne
    · rw [List.filter_cons_of_pos hp, List.filter_nil, List.getLast?_concat] at h
      rw [if_pos rfl, getElem?_append_one, if_pos rfl]
      exact h

lemma indexed_split (he : app.document.chapterOutline.entries[i]? = some e)
    (hc : app.document.chapters[i]? = some c) : ∃ before after,
      indexed app.document = before ++ ((e, c), i) :: after ∧
        (∀ x ∈ before, x.2 ≠ i) ∧ ∀ x ∈ after, x.2 ≠ i := by
  have hpair : (app.document.chapterOutline.entries.zip app.document.chapters)[i]? =
      some (e, c) := by
    rw [List.getElem?_zip_eq_some]
    exact ⟨he, hc⟩
  unfold indexed
  generalize app.document.chapterOutline.entries.zip app.document.chapters = pairs at hpair
  obtain ⟨hlt, hget⟩ := List.getElem?_eq_some_iff.mp hpair
  have hlen : (pairs.take i).length = i := List.length_take_of_le hlt.le
  refine ⟨(pairs.take i).zipIdx, (pairs.drop (i + 1)).zipIdx (i + 1), ?_, fun x hx => ?_,
    fun x hx => ?_⟩
  · conv_lhs => rw [← List.take_append_drop i pairs, List.drop_eq_getElem_cons hlt, hget,
      List.zipIdx_append, List.zipIdx_cons, hlen, Nat.zero_add]
  · have := List.snd_lt_of_mem_zipIdx hx
    omega
  · have := List.le_snd_of_mem_zipIdx hx
    omega

lemma filter_other {l : List ((OutlineEntry × Chapter) × ℕ)} (h : ∀ x ∈ l, x.2 ≠ i) :
    (l.flatMap fun x => entryRows app x.2 x.1.1 x.1.2).filter (sectionRow app.document i) = [] := by
  rw [List.filter_eq_nil_iff]
  intro row hrow
  obtain ⟨x, hx, hmem⟩ := List.mem_flatMap.mp hrow
  unfold sectionRow
  rw [entryRows_chapter hmem]
  simp [h x hx]

/-- **A section has one row when its volume is expanded, and none else.** -/
theorem rows_section (hread : Readable app.document i)
    (he : app.document.chapterOutline.entries[i]? = some e) : ∃ row,
      (directoryRows app).1.filter (sectionRow app.document i) =
        if shown app i e then [row] else [] := by
  obtain ⟨c, hc⟩ : ∃ c, app.document.chapters[i]? = some c := ⟨_, List.getElem?_eq_getElem hread.1⟩
  obtain ⟨before, after, hsplit, hbefore, hafter⟩ := indexed_split he hc
  obtain ⟨row, hrow⟩ := entryRows_section hread he hc
  refine ⟨row, ?_⟩
  rw [directoryRows_eq, foldl_appendRow, List.nil_append, hsplit, List.flatMap_append,
    List.flatMap_cons, List.filter_append, List.filter_append, filter_other hbefore,
    filter_other hafter, List.nil_append, List.append_nil, hrow]

/-! ### Revealing -/

/-- **Revealing a readable section** expands its volume and picks its own row. -/
lemma revealed (hread : Readable app.document i)
    (he : app.document.chapterOutline.entries[i]? = some e) :
    (revealChapter app i).document = app.document ∧
      (∀ row, picked (revealChapter app i) row = sectionRow app.document i row) ∧
        shown (revealChapter app i) i e = true := by
  obtain ⟨c, hc⟩ : ∃ c, app.document.chapters[i]? = some c := ⟨_, List.getElem?_eq_getElem hread.1⟩
  have hheading := headingOnly_eq he hc
  rw [hread.2] at hheading
  have hflat := (hierarchical app.document).flat
  unfold revealChapter picked sectionRow
  dsimp only
  rw [he, hc]
  dsimp only
  rw [Option.map_some, Option.getD_some]
  rcases hg : app.document.chapterOutline.grouped with _ | _
  · have hnone := hflat hg e (List.mem_of_getElem? he)
    rw [if_neg (by simp)]
    unfold revealFlat
    dsimp only
    rw [hread.2, if_neg (by simp)]
    refine ⟨rfl, fun row => rfl, ?_⟩
    unfold shown
    rw [hnone]
    simp [hg]
  · rw [if_pos rfl]
    unfold revealGrouped
    dsimp only
    rw [hread.2, Bool.and_false, if_neg (by simp)]
    rcases hv : e.volume with _ | _
    · rw [Bool.false_and, if_neg (by simp)]
      rcases hp : e.parent with _ | p
      · refine ⟨rfl, fun row => rfl, ?_⟩
        unfold shown
        rw [hp]
        simp [hv]
      refine ⟨rfl, fun row => rfl, ?_⟩
      unfold shown setVolumeExpanded
      rw [hp]
      simp
    · have hbody : c.hasBody = true := by
        rw [hv] at hheading
        simpa using hheading.symm
      rw [hbody, Bool.and_self, if_pos rfl]
      refine ⟨rfl, fun row => rfl, ?_⟩
      unfold shown setVolumeExpanded
      rcases hp : e.parent with _ | p
      · simp [hv, hg]
      · simp

structure Listed (app : ReaderApp) : Prop where
  rows : ∀ (i : ℕ) (e : OutlineEntry), Readable app.document i →
    app.document.chapterOutline.entries[i]? = some e →
      ((directoryRows app).1.filter (sectionRow app.document i)).length =
        if shown app i e then 1 else 0
  revealed : ∀ i, Readable app.document i → ∃ row,
    (directoryRows (revealChapter app i)).1[(directoryRows (revealChapter app i)).2]? = some row ∧
      sectionRow app.document i row = true

theorem listed (app : ReaderApp) : Listed app := by
  constructor
  · intro i e hread he
    obtain ⟨row, hrow⟩ := rows_section hread he
    rw [hrow]
    split <;> rfl
  intro i hread
  have hlength := (hierarchical app.document).length
  obtain ⟨e, he⟩ : ∃ e, app.document.chapterOutline.entries[i]? = some e :=
    ⟨_, List.getElem?_eq_getElem (hlength ▸ hread.1)⟩
  obtain ⟨hdocument, hpicked, hshown⟩ := revealed hread he
  have hread' : Readable (revealChapter app i).document i := hdocument ▸ hread
  obtain ⟨row, hrow⟩ := rows_section hread' (by rw [hdocument]; exact he)
  rw [if_pos hshown] at hrow
  have hfilter : (directoryRows (revealChapter app i)).1.filter
      (picked (revealChapter app i)) = [row] := by
    rw [← hrow]
    congr 1
    funext row'
    rw [hpicked, hdocument]
  refine ⟨row, ?_, ?_⟩
  · have hrows := foldl_appendRow (revealChapter app i)
      ((indexed (revealChapter app i).document).flatMap fun x =>
        entryRows (revealChapter app i) x.2 x.1.1 x.1.2) ([], 0)
    rw [← directoryRows_eq, List.nil_append] at hrows
    have hselected := selected_picked (revealChapter app i)
      (directoryRows (revealChapter app i)).1 row (by rw [hfilter]; rfl)
    rwa [hrows, ← directoryRows_eq, ← hrows] at hselected
  · have hmem : row ∈ (directoryRows (revealChapter app i)).1.filter
        (picked (revealChapter app i)) := by
      rw [hfilter]
      exact List.mem_singleton_self row
    rw [← hpicked]
    exact (List.mem_filter.mp hmem).2

/-- **The volumes and the directory of a book.** -/
theorem volume_directory (app : ReaderApp) : Hierarchical app.document ∧
    (∀ (text : Text) (n : ℕ), parseVolumeNumber text = some n ↔
      (1 ≤ n ∧ n ≤ 9999) ∧ (Signed text n ∨ Canonical text n)) ∧
    (∀ n : ℕ, 1 ≤ n ∧ n ≤ 9999 → parseVolumeNumber (chineseNumber n) = some n) ∧ Listed app :=
  ⟨hierarchical app.document, fun _ _ => parseVolumeNumber_iff,
    fun _ h => parseVolumeNumber_chineseNumber h.1 h.2, listed app⟩

/-- The number twelve with the one of its ten written is no canonical numeral, and is accepted. -/
theorem volume_directory_fails : ¬∀ (text : Text) (n : ℕ), parseVolumeNumber text = some n ↔
    (1 ≤ n ∧ n ≤ 9999) ∧ (Positional text n ∨ text.map plain = chineseNumber n) := by
  intro h
  have htwelve : parseVolumeNumber ['一', '十', '二'] = some 12 := by decide +kernel
  rcases ((h ['一', '十', '二'] 12).mp htwelve).2 with ⟨digits, -, hdigits, -⟩ | hnumeral
  · have hten : (none : Option ℕ) ∈ ['一', '十', '二'].map digitValue := by decide +kernel
    rw [hdigits] at hten
    obtain ⟨d, -, hd⟩ := List.mem_map.mp hten
    cases hd
  · revert hnumeral
    decide +kernel

/-- A book with two volumes, of which the second is expanded. -/
def twoVolumes : ReaderApp where
  document :=
    { size := 60
      chapters := [⟨['第', '一', '卷'], 0, 10, true⟩, ⟨['第', '一', '章'], 10, 20, true⟩,
        ⟨['第', '二', '卷'], 20, 30, false⟩, ⟨['第', '二', '章'], 30, 60, true⟩] }
  expandedVolumes := fun i => i == 2
  chapterPick := 3
  volumeBodyPick := false

example : ((directoryRows twoVolumes).1.map fun row => (row.chapter, row.volumeBody)) =
    [(0, false), (2, false), (3, false)] ∧ (directoryRows twoVolumes).2 = 2 := by decide

end C1auncher.BookReader.Directory
