import C1auncher.BookReader.Outline
import C1auncher.BookReader.PercentInput
import C1auncher.Tilings

/-!
A jump to a percentage: the byte it stands for, and the place in the book that is read there.
-/

namespace C1auncher.BookReader.Percent

open Tilings BookReader.Outline BookReader.PercentInput

/-- Quotient and remainder apart: their products fit for documents of any size. -/
def percentByte (size : Int64) (units : ℤ) : Int64 :=
  let byte := size / 10000 * Int64.ofInt units + size % 10000 * Int64.ofInt units / 10000
  if size ≤ byte then size - 1 else byte

def positionForPercentUnits (document : Document) (units : ℤ) : Option (ℕ × Int64) :=
  match document.chapters with
  | [] => none
  | first :: _ =>
    if document.size ≤ 0 || units < 0 || (maxPercentUnits : ℤ) < units then none
    else
      let byte := percentByte document.size units
      let target := if byte < first.start then first.start else byte
      (document.chapters.findIdx? fun chapter => chapter.start ≤ target && target < chapter.end_).bind
        fun index => document.readingTarget index target

/-! ### The byte -/

variable {size : Int64} {units : ℤ}

lemma toInt_quotient (hsize : 0 < size.toInt) : (size / 10000).toInt = size.toInt / 10000 := by
  rw [Int64.toInt_div_of_ne_right _ _ (by decide)]
  exact Int.tdiv_eq_ediv_of_nonneg hsize.le

lemma toInt_remainder (hsize : 0 < size.toInt) : (size % 10000).toInt = size.toInt % 10000 := by
  rw [Int64.toInt_mod]
  exact Int.tmod_eq_emod_of_nonneg hsize.le

lemma toInt_mul_of_lt {a b : Int64} (hlow : 0 ≤ a.toInt * b.toInt)
    (hhigh : a.toInt * b.toInt < 2 ^ 63) : (a * b).toInt = a.toInt * b.toInt := by
  rw [Int64.toInt_mul, Int.bmod_eq_of_le] <;> omega

/-- **The byte is the exact quotient, and one of the document.** -/
theorem toInt_percentByte (hsize : 0 < size.toInt) (hlow : 0 ≤ units) (hhigh : units ≤ 10000) :
    (percentByte size units).toInt = min (size.toInt * units / 10000) (size.toInt - 1) := by
  have hmax := size.toInt_lt
  have hunits : (Int64.ofInt units).toInt = units := Int64.toInt_ofInt_of_le (by omega) (by omega)
  have hq := toInt_quotient hsize
  have hr := toInt_remainder hsize
  have hr_nonneg : 0 ≤ size.toInt % 10000 := Int.emod_nonneg _ (by omega)
  have hr_lt : size.toInt % 10000 < 10000 := Int.emod_lt_of_pos _ (by omega)
  have hwhole : size.toInt = 10000 * (size.toInt / 10000) + size.toInt % 10000 := by omega
  have hq_nonneg : 0 ≤ size.toInt / 10000 := by omega
  have hqu : 0 ≤ size.toInt / 10000 * units ∧
      size.toInt / 10000 * units ≤ size.toInt / 10000 * 10000 :=
    ⟨mul_nonneg hq_nonneg hlow, mul_le_mul_of_nonneg_left hhigh hq_nonneg⟩
  have hru : 0 ≤ size.toInt % 10000 * units ∧ size.toInt % 10000 * units ≤ 10000 * 10000 :=
    ⟨mul_nonneg hr_nonneg hlow, mul_le_mul hr_lt.le hhigh hlow (by omega)⟩
  have hproduct_le : size.toInt * units ≤ size.toInt * 10000 :=
    mul_le_mul_of_nonneg_left hhigh hsize.le
  have hexact : size.toInt * units / 10000 =
      size.toInt / 10000 * units + size.toInt % 10000 * units / 10000 := by
    conv_lhs => rw [hwhole, add_mul, mul_assoc, add_comm]
    rw [Int.add_mul_ediv_left _ _ (by omega : (10000 : ℤ) ≠ 0), add_comm]
  have hfirst : (size / 10000 * Int64.ofInt units).toInt = size.toInt / 10000 * units := by
    rw [toInt_mul_of_lt] <;> rw [hq, hunits] <;> omega
  have hproduct : (size % 10000 * Int64.ofInt units).toInt = size.toInt % 10000 * units := by
    rw [toInt_mul_of_lt] <;> rw [hr, hunits] <;> omega
  have hsecond : (size % 10000 * Int64.ofInt units / 10000).toInt =
      size.toInt % 10000 * units / 10000 := by
    rw [Int64.toInt_div_of_ne_right _ _ (by decide), hproduct]
    exact Int.tdiv_eq_ediv_of_nonneg hru.1
  have hbyte : (size / 10000 * Int64.ofInt units +
      size % 10000 * Int64.ofInt units / 10000).toInt = size.toInt * units / 10000 := by
    rw [Int64.toInt_add, hfirst, hsecond, Int.bmod_eq_of_le, hexact] <;> omega
  unfold percentByte
  dsimp only
  split
  · rename_i hle
    rw [Int64.le_iff_toInt_le, hbyte] at hle
    rw [Int64.toInt_sub, Int.bmod_eq_of_le, min_eq_right] <;> simp <;> omega
  rename_i hlt
  rw [Int64.le_iff_toInt_le, hbyte, not_le] at hlt
  rw [hbyte, min_eq_left]
  omega

/-! ### The sections -/

def startOf (chapter : Chapter) : ℤ := chapter.start.toInt

def endOf (chapter : Chapter) : ℤ := chapter.end_.toInt

lemma tiles_of_follow {chapters : List Chapter} {previousEnd : Int64}
    (h : sectionsFollow size previousEnd chapters = true) :
    Tiles startOf endOf previousEnd.toInt chapters size.toInt := by
  induction chapters generalizing previousEnd with
  | nil => exact congrArg Int64.toInt (beq_iff_eq.mp h)
  | cons chapter rest ih =>
    rw [sectionsFollow] at h
    split at h
    · cases h
    rename_i hcheck
    simp only [Bool.or_eq_true, decide_eq_true_eq, bne_iff_ne, ne_eq, not_or, not_not,
      Int64.not_lt, Int64.le_iff_toInt_le] at hcheck
    obtain ⟨⟨⟨-, hle⟩, -⟩, hstart⟩ := hcheck
    exact ⟨congrArg Int64.toInt hstart, by rw [← hstart]; exact hle, ih h⟩

/-- Where the text begins, behind a byte order mark. -/
def textStart (document : Document) : Int64 :=
  match document.chapters with
  | [] => 0
  | first :: _ => first.start

lemma tiles_of_valid {document : Document}
    (h : validChapterIndex document.chapters document.size = true) :
    Tiles startOf endOf (textStart document).toInt document.chapters document.size.toInt := by
  unfold validChapterIndex at h
  unfold textStart
  rcases hchapters : document.chapters with _ | ⟨first, rest⟩
  · rw [hchapters] at h
    cases h
  rw [hchapters] at h
  dsimp only at h ⊢
  split at h
  · cases h
  · exact tiles_of_follow h

lemma textStart_nonneg {document : Document}
    (h : validChapterIndex document.chapters document.size = true) :
    0 ≤ (textStart document).toInt := by
  unfold validChapterIndex at h
  unfold textStart
  rcases hchapters : document.chapters with _ | ⟨first, rest⟩
  · exact le_rfl
  rw [hchapters] at h
  dsimp only at h ⊢
  split at h
  · cases h
  rename_i hfirst
  simp only [Bool.and_eq_true, bne_iff_ne, not_and, not_not] at hfirst
  by_cases hzero : first.start = 0
  · rw [hzero]
    decide
  · rw [hfirst hzero]
    decide

/-! ### Sections that can be read -/

variable {document : Document} {index target : ℕ}

lemma forward_some (hindex : index < document.chapters.length) :
    document.readableChapter index .forward = some target ↔
      index ≤ target ∧ Readable document target ∧
        ∀ j, index ≤ j → j < target → ¬Readable document j := by
  unfold Document.readableChapter candidates Readable
  dsimp only
  rw [List.find?_range'_eq_some, List.mem_range'_1]
  constructor
  · rintro ⟨hread, ⟨hle, hlt⟩, hbetween⟩
    refine ⟨hle, ⟨by omega, by simpa using hread⟩, fun j hj hjt hreadj => ?_⟩
    simpa [hreadj.2] using hbetween j hj hjt
  rintro ⟨hle, ⟨hlt, hread⟩, hbetween⟩
  refine ⟨by simpa using hread, by omega, fun j hj hjt => ?_⟩
  simpa using fun h => hbetween j hj hjt ⟨by omega, h⟩

lemma forward_none :
    document.readableChapter index .forward = none ↔ ∀ j, index ≤ j → ¬Readable document j := by
  unfold Document.readableChapter candidates Readable
  dsimp only
  rw [List.find?_range'_eq_none]
  constructor
  · intro h j hj hread
    simpa [hread.2] using h j hj (by omega)
  · intro h j hj hlt
    simpa using fun hread => h j hj ⟨by omega, hread⟩

lemma back_some (hindex : index < document.chapters.length) :
    document.readableChapter index .back = some target ↔
      target ≤ index ∧ Readable document target ∧
        ∀ j, target < j → j ≤ index → ¬Readable document j := by
  unfold Document.readableChapter candidates Readable
  dsimp only
  rw [if_pos hindex, List.find?_map, Option.map_eq_some_iff]
  constructor
  · rintro ⟨k, hk, rfl⟩
    obtain ⟨hread, hmem, hbefore⟩ := List.find?_range_eq_some.mp hk
    have hlt := List.mem_range.mp hmem
    refine ⟨by omega, ⟨by omega, by simpa using hread⟩, fun j hj hle hreadj => ?_⟩
    have hnot := hbefore (index - j) (by omega)
    rw [Function.comp_apply, Nat.sub_sub_self hle, hreadj.2] at hnot
    cases hnot
  · rintro ⟨hle, ⟨hlt, hread⟩, hbetween⟩
    refine ⟨index - target, List.find?_range_eq_some.mpr ⟨?_, ?_, fun k hk => ?_⟩, by omega⟩
    · rw [Function.comp_apply, Nat.sub_sub_self hle, hread]
      rfl
    · exact List.mem_range.mpr (by omega)
    · simpa using fun h => hbetween (index - k) (by omega) (by omega) ⟨by omega, h⟩

lemma back_none (hindex : index < document.chapters.length) :
    document.readableChapter index .back = none ↔ ∀ j, j ≤ index → ¬Readable document j := by
  unfold Document.readableChapter candidates Readable
  dsimp only
  rw [if_pos hindex, List.find?_map, Option.map_eq_none_iff, List.find?_range_eq_none]
  constructor
  · intro h j hj hread
    have hnot := h (index - j) (by omega)
    rw [Function.comp_apply, Nat.sub_sub_self hj, hread.2] at hnot
    cases hnot
  · intro h k hk
    simpa using fun hread => h (index - k) (by omega) ⟨by omega, hread⟩

/-- Where a byte of a section is read: there if the section can be read, else at the start of the
next one that can, else at the last byte of the last one, or its start if it has none. -/
inductive Lands (document : Document) (s : ℕ) (byte : ℤ) : ℕ → ℤ → Prop
  | here (h : Readable document s) : Lands document s byte s byte
  | next {i : ℕ} {chapter : Chapter} (hs : s < i) (h : Readable document i)
      (between : ∀ j, s ≤ j → j < i → ¬Readable document j)
      (hi : document.chapters[i]? = some chapter) : Lands document s byte i (startOf chapter)
  | last {i : ℕ} {chapter : Chapter} (hs : i < s) (h : Readable document i)
      (beyond : ∀ j, i < j → ¬Readable document j) (hi : document.chapters[i]? = some chapter) :
      Lands document s byte i (max (startOf chapter) (endOf chapter - 1))

lemma Lands.readable {s i : ℕ} {x o : ℤ} (h : Lands document s x i o) : Readable document i := by
  cases h <;> assumption

lemma readingTarget_lands {s i : ℕ} {byte offset : Int64}
    (h : document.readingTarget s byte = some (i, offset)) :
    Lands document s byte.toInt i offset.toInt := by
  unfold Document.readingTarget at h
  split at h
  · rename_i hs
    split at h
    · rename_i target hforward
      obtain ⟨hle, hread, hbetween⟩ := (forward_some hs).mp hforward
      split at h
      · rename_i heq
        obtain ⟨rfl, rfl⟩ := Prod.mk.inj (Option.some.inj h)
        rw [heq] at hread ⊢
        exact .here hread
      · obtain ⟨chapter, hchapter, heq⟩ := Option.map_eq_some_iff.mp h
        obtain ⟨rfl, rfl⟩ := Prod.mk.inj heq
        exact .next (by omega) hread hbetween hchapter
    · rename_i hforward
      have hnone := forward_none.mp hforward
      split at h
      · rename_i target hback
        obtain ⟨hle, hread, hbetween⟩ := (back_some hs).mp hback
        obtain ⟨chapter, hchapter, heq⟩ := Option.map_eq_some_iff.mp h
        have hlt : target < s := by
          rcases hle.lt_or_eq with hlt | rfl
          · exact hlt
          · exact absurd hread (hnone _ le_rfl)
        have hbeyond : ∀ j, target < j → ¬Readable document j := fun j hj =>
          (le_or_gt j s).elim (hbetween j hj) fun hgt => hnone j hgt.le
        have hoffset : offset.toInt = max (startOf chapter) (endOf chapter - 1) := by
          unfold startOf endOf
          split at heq
          · rename_i hnonempty
            rw [Int64.lt_iff_toInt_lt] at hnonempty
            rw [← (Prod.mk.inj heq).2, Int64.toInt_sub, Int.bmod_eq_of_le] <;>
              have := chapter.start.le_toInt <;> have := chapter.end_.toInt_lt <;> simp <;> omega
          rename_i hempty
          rw [Int64.lt_iff_toInt_lt] at hempty
          rw [← (Prod.mk.inj heq).2]
          omega
        obtain rfl : target = i := by split at heq <;> exact (Prod.mk.inj heq).1
        rw [hoffset]
        exact .last hlt hread hbeyond hchapter
      · cases h
  · cases h

lemma readingTarget_isSome {s : ℕ} (hs : s < document.chapters.length) (byte : Int64) :
    (document.readingTarget s byte).isSome ↔ ∃ i, Readable document i := by
  constructor
  · intro h
    obtain ⟨⟨i, offset⟩, hsome⟩ := Option.isSome_iff_exists.mp h
    exact ⟨i, (readingTarget_lands hsome).readable⟩
  rintro ⟨i, hread⟩
  unfold Document.readingTarget
  rw [if_pos hs]
  rcases hforward : document.readableChapter s .forward with _ | target
  · rcases hback : document.readableChapter s .back with _ | target
    · rcases le_or_gt s i with hle | hlt
      · exact absurd hread (forward_none.mp hforward i hle)
      · exact absurd hread ((back_none hs).mp hback i hlt.le)
    have hlt := ((back_some hs).mp hback).2.1.1
    dsimp only
    rw [List.getElem?_eq_getElem hlt]
    rfl
  · have hlt := ((forward_some hs).mp hforward).2.1.1
    dsimp only
    split
    · rfl
    · rw [List.getElem?_eq_getElem hlt]
      rfl

/-! ### Order -/

section Order

variable {lo hi x y : ℤ} {s t i j : ℕ} {o p : ℤ} {before after : Chapter}

lemma Tiles.apart (h : Tiles startOf endOf lo document.chapters hi) (hij : i < j)
    (hbefore : document.chapters[i]? = some before) (hafter : document.chapters[j]? = some after) :
    endOf before ≤ startOf after := by
  obtain ⟨hi', rfl⟩ := List.getElem?_eq_some_iff.mp hbefore
  obtain ⟨hj, rfl⟩ := List.getElem?_eq_some_iff.mp hafter
  exact h.stop_le_start hij hj

/-- The place is in the section, or at its start when it is empty. -/
def Inside (o : ℤ) (chapter : Chapter) : Prop :=
  Holds startOf endOf o chapter ∨ startOf chapter = endOf chapter ∧ o = startOf chapter

lemma Lands.inside (htiles : Tiles startOf endOf lo document.chapters hi)
    (hs : document.chapters[s]? = some before) (hx : Holds startOf endOf x before)
    (h : Lands document s x i o) :
    ∃ chapter, document.chapters[i]? = some chapter ∧ Inside o chapter := by
  cases h with
  | here => exact ⟨before, hs, .inl hx⟩
  | next _ _ _ hchapter =>
    have hbounds := htiles.bounds (List.mem_of_getElem? hchapter)
    refine ⟨_, hchapter, ?_⟩
    rcases hbounds.2.1.lt_or_eq with hlt | heq
    · exact .inl ⟨le_rfl, hlt⟩
    · exact .inr ⟨heq, rfl⟩
  | @last _ chapter _ _ _ hchapter =>
    have hbounds := htiles.bounds (List.mem_of_getElem? hchapter)
    refine ⟨_, hchapter, ?_⟩
    unfold Inside Holds
    omega

/-- **Later bytes are read at later places.** -/
theorem Lands.mono (htiles : Tiles startOf endOf lo document.chapters hi)
    (hs : document.chapters[s]? = some before) (hx : Holds startOf endOf x before)
    (ht : document.chapters[t]? = some after) (hy : Holds startOf endOf y after)
    (hst : s ≤ t) (hxy : x ≤ y) (h : Lands document s x i o) (h' : Lands document t y j p) :
    o ≤ p := by
  obtain ⟨chapter, hi, hin⟩ := h.inside htiles hs hx
  obtain ⟨chapter', hj, hin'⟩ := h'.inside htiles ht hy
  rcases lt_trichotomy i j with hlt | heq | hgt
  · -- One section is behind the other.
    have hapart := Tiles.apart htiles hlt hi hj
    unfold Inside Holds at hin hin'
    omega
  · subst heq
    obtain rfl : chapter = chapter' := Option.some.inj (hi.symm.trans hj)
    cases h with
    | here hread =>
      cases h' with
      | here => exact hxy
      | next hlt => omega
      | last hlt _ _ hlast =>
        obtain rfl := Option.some.inj (hi.symm.trans hlast)
        obtain rfl := Option.some.inj (hi.symm.trans hs)
        have := hx.2
        omega
    | next hlt _ _ hnext =>
      obtain rfl := Option.some.inj (hi.symm.trans hnext)
      unfold Inside Holds at hin'
      omega
    | last hlt _ _ hlast =>
      cases h' with
      | here => omega
      | next => omega
      | last _ _ _ hlast' =>
        obtain rfl := Option.some.inj (hlast.symm.trans hlast')
        exact le_rfl
  · -- What the earlier byte leads to would have been found for the later one.
    have hle : t ≤ j := by
      cases h' with
      | here => exact le_rfl
      | next hlt => exact hlt.le
      | last _ _ hbeyond => exact absurd h.readable (hbeyond i hgt)
    cases h with
    | here => omega
    | next _ _ hbetween => exact absurd h'.readable (hbetween j (hst.trans hle) hgt)
    | last hlt => omega

end Order

/-! ### The jump -/

/-- The byte a percentage stands for: one of the document, behind a byte order mark. -/
def percentTarget (document : Document) (units : ℤ) : ℤ :=
  max (min (document.size.toInt * units / 10000) (document.size.toInt - 1))
    (textStart document).toInt

lemma find_section {chapters : List Chapter} {byte : Int64} {lo hi : ℤ}
    (htiles : Tiles startOf endOf lo chapters hi) :
    (lo ≤ byte.toInt ∧ byte.toInt < hi → ∃ s, (chapters.findIdx? fun chapter =>
        chapter.start ≤ byte && byte < chapter.end_) = some s) ∧
      ∀ s, (chapters.findIdx? fun chapter => chapter.start ≤ byte && byte < chapter.end_) = some s →
        ∃ chapter, chapters[s]? = some chapter ∧ Holds startOf endOf byte.toInt chapter := by
  constructor
  · rintro ⟨hlo, hhi⟩
    obtain ⟨chapter, hmem, hholds⟩ := htiles.exists_holds hlo hhi
    rw [← Option.isSome_iff_exists, List.findIdx?_isSome, List.any_eq_true]
    refine ⟨chapter, hmem, ?_⟩
    rw [Bool.and_eq_true, decide_eq_true_eq, decide_eq_true_eq, Int64.le_iff_toInt_le,
      Int64.lt_iff_toInt_lt]
    exact hholds
  · intro s hs
    obtain ⟨hlt, hholds, -⟩ := List.findIdx?_eq_some_iff_getElem.mp hs
    refine ⟨chapters[s], List.getElem?_eq_getElem hlt, ?_⟩
    rw [Bool.and_eq_true, decide_eq_true_eq, decide_eq_true_eq, Int64.le_iff_toInt_le,
      Int64.lt_iff_toInt_lt] at hholds
    exact hholds

lemma position_eq (hvalid : validChapterIndex document.chapters document.size = true)
    (hlow : 0 ≤ units) (hhigh : units ≤ 10000) (hsize : 0 < document.size.toInt) :
    ∃ target : Int64, target.toInt = percentTarget document units ∧
      positionForPercentUnits document units =
        (document.chapters.findIdx? fun chapter =>
          chapter.start ≤ target && target < chapter.end_).bind
            fun index => document.readingTarget index target := by
  have hbyte := toInt_percentByte hsize hlow hhigh
  have hmax : (maxPercentUnits : ℤ) = 10000 := rfl
  unfold positionForPercentUnits percentTarget textStart
  rcases hchapters : document.chapters with _ | ⟨first, rest⟩
  · rw [hchapters] at hvalid
    cases hvalid
  dsimp only
  have hzero : ¬document.size ≤ 0 := by
    rw [Int64.le_iff_toInt_le]
    exact not_le.mpr hsize
  rw [if_neg (by simp only [Bool.or_eq_true, decide_eq_true_eq, hzero, false_or]; omega)]
  refine ⟨_, ?_, rfl⟩
  split
  · rename_i hlt
    rw [Int64.lt_iff_toInt_lt, hbyte] at hlt
    omega
  rename_i hle
  rw [Int64.lt_iff_toInt_lt, hbyte, not_lt] at hle
  omega

structure Jumps (document : Document) : Prop where
  byte : ∀ units : ℤ, 0 ≤ units → units ≤ 10000 → 0 < document.size.toInt →
    (percentByte document.size units).toInt =
      min (document.size.toInt * units / 10000) (document.size.toInt - 1)
  found : ∀ units : ℤ, 0 ≤ units → units ≤ 10000 →
    ((positionForPercentUnits document units).isSome ↔
      (textStart document).toInt < document.size.toInt ∧ ∃ i, Readable document i)
  lands : ∀ (units : ℤ) (i : ℕ) (offset : Int64),
    positionForPercentUnits document units = some (i, offset) →
      ∃ (s : ℕ) (chapter : Chapter), document.chapters[s]? = some chapter ∧
        Holds startOf endOf (percentTarget document units) chapter ∧
        Lands document s (percentTarget document units) i offset.toInt
  inside : ∀ (units : ℤ) (i : ℕ) (offset : Int64),
    positionForPercentUnits document units = some (i, offset) → Readable document i ∧
      ∃ chapter, document.chapters[i]? = some chapter ∧ Inside offset.toInt chapter
  mono : ∀ (units units' : ℤ) (i j : ℕ) (offset offset' : Int64), units ≤ units' →
    positionForPercentUnits document units = some (i, offset) →
      positionForPercentUnits document units' = some (j, offset') → offset.toInt ≤ offset'.toInt

lemma percentTarget_bounds (hlt : (textStart document).toInt < document.size.toInt) :
    (textStart document).toInt ≤ percentTarget document units ∧
      percentTarget document units < document.size.toInt := by
  unfold percentTarget
  omega

lemma percentTarget_mono {units' : ℤ} (hsize : 0 < document.size.toInt) (h : units ≤ units') :
    percentTarget document units ≤ percentTarget document units' := by
  have hle : document.size.toInt * units / 10000 ≤ document.size.toInt * units' / 10000 :=
    Int.ediv_le_ediv (by omega) (mul_le_mul_of_nonneg_left h hsize.le)
  unfold percentTarget
  omega

lemma guards {i : ℕ} {offset : Int64}
    (h : positionForPercentUnits document units = some (i, offset)) :
    0 ≤ units ∧ units ≤ 10000 ∧ 0 < document.size.toInt := by
  unfold positionForPercentUnits at h
  split at h
  · cases h
  split at h
  · cases h
  rename_i hguards
  have hmax : (maxPercentUnits : ℤ) = 10000 := rfl
  simp only [Bool.or_eq_true, decide_eq_true_eq, not_or, Int64.not_le,
    Int64.lt_iff_toInt_lt] at hguards
  have hsize : 0 < document.size.toInt := hguards.1.1
  omega

/-- **Where a jump leads.** -/
theorem jumps (hvalid : validChapterIndex document.chapters document.size = true) :
    Jumps document := by
  have htiles := tiles_of_valid hvalid
  have hlands : ∀ (units : ℤ) (i : ℕ) (offset : Int64),
      positionForPercentUnits document units = some (i, offset) →
        ∃ (s : ℕ) (chapter : Chapter), document.chapters[s]? = some chapter ∧
          Holds startOf endOf (percentTarget document units) chapter ∧
          Lands document s (percentTarget document units) i offset.toInt := by
    intro units i offset h
    obtain ⟨hlow, hhigh, hsize⟩ := guards h
    obtain ⟨target, htarget, heq⟩ := position_eq hvalid hlow hhigh hsize
    rw [heq] at h
    obtain ⟨s, hs, hread⟩ := Option.bind_eq_some_iff.mp h
    obtain ⟨chapter, hchapter, hholds⟩ := (find_section htiles).2 s hs
    rw [← htarget]
    exact ⟨s, chapter, hchapter, hholds, readingTarget_lands hread⟩
  refine ⟨fun units hlow hhigh hsize => toInt_percentByte hsize hlow hhigh,
    fun units hlow hhigh => ⟨fun h => ?_, fun h => ?_⟩, hlands, ?_, ?_⟩
  · obtain ⟨⟨i, offset⟩, hsome⟩ := Option.isSome_iff_exists.mp h
    obtain ⟨s, chapter, hchapter, hholds, hland⟩ := hlands units i offset hsome
    have hbounds := htiles.bounds (List.mem_of_getElem? hchapter)
    refine ⟨?_, i, hland.readable⟩
    unfold Holds at hholds
    omega
  · obtain ⟨hlt, hread⟩ := h
    have hstart := textStart_nonneg hvalid
    obtain ⟨target, htarget, heq⟩ := position_eq hvalid hlow hhigh (by omega)
    have hbounds := @percentTarget_bounds units document hlt
    obtain ⟨s, hs⟩ := (find_section htiles).1 (htarget ▸ hbounds)
    obtain ⟨chapter, hchapter, -⟩ := (find_section htiles).2 s hs
    rw [heq, hs, Option.bind_some]
    exact (readingTarget_isSome (List.getElem?_eq_some_iff.mp hchapter).1 target).mpr hread
  · intro units i offset h
    obtain ⟨s, chapter, hchapter, hholds, hland⟩ := hlands units i offset h
    exact ⟨hland.readable, hland.inside htiles hchapter hholds⟩
  · intro units units' i j offset offset' hle h h'
    obtain ⟨s, chapter, hchapter, hholds, hland⟩ := hlands units i offset h
    obtain ⟨t, chapter', hchapter', hholds', hland'⟩ := hlands units' j offset' h'
    have hmono := percentTarget_mono (guards h).2.2 hle
    have hst : s ≤ t := by
      obtain ⟨hs, rfl⟩ := List.getElem?_eq_some_iff.mp hchapter
      obtain ⟨ht, rfl⟩ := List.getElem?_eq_some_iff.mp hchapter'
      exact htiles.index_mono hs ht hholds hholds' hmono
    exact hland.mono htiles hchapter hholds hchapter' hholds' hst hmono hland'

/-- What the keys leave in the dialog, and how it is read. -/
structure Edited (draft : Draft) : Prop where
  written : draft.input = [] ∨ ∃ units, Decimal draft.input units
  parsed : ∀ units, parsePercentInput draft.input = some units ↔
    Decimal draft.input units ∧ units ≤ maxPercentUnits
  value : draft.value ≤ maxPercentUnits

/-- **The jump to a percentage.** Where it leads in every document, and for every sequence of keys
what the draft is. -/
theorem percent_jump (toLower : Char → Char) (document : Document)
    (hvalid : validChapterIndex document.chapters document.size = true) :
    Jumps document ∧
      (∀ (value : ℤ) (events : List Event), Edited ((Draft.opened value).run toLower events)) ∧
      ∀ units ≤ maxPercentUnits, parsePercentInput (formatPercentUnits units) = some units := by
  refine ⟨jumps hvalid, fun value events => ?_, fun units hle => parse_format hle⟩
  have hkept : Kept ((Draft.opened value).run toLower events) := kept_run value events
  refine ⟨hkept.input.imp_right ?_, fun units => parsePercentInput_iff, hkept.value⟩
  rintro ⟨whole, fraction, hparts⟩
  exact ⟨_, whole, fraction, hparts, rfl⟩

/-- A chapter behind a byte order mark, and a volume without a body at the end. -/
def markedDocument : Document where
  size := 20
  chapters := [⟨['第', '一', '章'], 3, 10, true⟩, ⟨['卷', '一'], 10, 20, false⟩]

theorem percent_jump_marked : Jumps markedDocument ∧
    (∀ (value : ℤ) (events : List Event), Edited ((Draft.opened value).run Char.toLower events)) ∧
    ∀ units ≤ maxPercentUnits, parsePercentInput (formatPercentUnits units) = some units :=
  percent_jump Char.toLower markedDocument (by decide +kernel)

example : [0, 2500, 10000].map (positionForPercentUnits markedDocument) =
    [some (0, 3), some (0, 5), some (0, 9)] := by decide

def emptyChapter : Document where
  size := 10
  chapters := [⟨['第', '一', '章'], 0, 0, false⟩, ⟨['卷', '一'], 0, 10, false⟩]

/-- Behind a byte order mark the target is not the quotient, and the last readable chapter may have
no byte. -/
theorem percent_jump_fails : ¬∀ (document : Document) (units : ℤ),
    validChapterIndex document.chapters document.size = true → 0 ≤ units → units ≤ 10000 →
      (∃ i, Readable document i) → ∃ (i : ℕ) (offset : Int64) (chapter : Chapter),
        positionForPercentUnits document units = some (i, offset) ∧
          document.chapters[i]? = some chapter ∧ Holds startOf endOf offset.toInt chapter := by
  intro h
  have hread : Readable emptyChapter 0 := ⟨by decide, by decide +kernel⟩
  obtain ⟨i, offset, chapter, hposition, hchapter, hholds⟩ :=
    h emptyChapter 0 (by decide) le_rfl (by omega) ⟨0, hread⟩
  have hempty : positionForPercentUnits emptyChapter 0 = some (0, 0) := by decide +kernel
  rw [hempty] at hposition
  obtain ⟨rfl, rfl⟩ := Prod.mk.inj (Option.some.inj hposition)
  obtain rfl := Option.some.inj hchapter
  exact absurd hholds.2 (by decide)

end C1auncher.BookReader.Percent
