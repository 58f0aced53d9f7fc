import C1auncher.Desktop.SummaryGrammar

/-!
The summary in its file and in the count: what was accepted is kept, and what is new is counted.
-/

namespace C1auncher.Desktop.SummaryCache

open CString Utf8Bytes Lines List Option
open Ui.LockText
open Desktop.Summary Desktop.SummaryFields Desktop.SummaryGrammar

variable {widths : ℕ → UInt8}

/-! ### The cache -/

lemma validIds_iff {slots : List (CharArray 33)} {last : Option Bytes} : validIds last slots ↔
    (∀ a ∈ slots, a.terminated ∧ validId a.text) ∧
      (last.toList ++ slots.map CharArray.text).IsChain Before := by
  induction slots generalizing last with
  | nil => cases last <;> simp [validIds]
  | cons a slots ih =>
    have hge : ∀ l, (strcmp l a.text).isGE = false ↔ Before l a.text := by
      intro l
      unfold Before
      cases strcmp l a.text <;> simp [Ordering.isGE]
    rw [validIds]
    simp only [Bool.and_eq_true, Bool.not_eq_true', ih, forall_mem_cons, toList_some, map_cons]
    cases last with
    | none =>
      simp only [any_none, toList_none, nil_append, singleton_append]
      tauto
    | some l =>
      simp only [any_some, hge, toList_some, singleton_append, isChain_cons_cons]
      tauto

lemma addIds_fields (d : Data) (ids : List Bytes) : (addIds d ids).date = d.date ∧
    (addIds d ids).quoteZh = d.quoteZh ∧ (addIds d ids).quoteEn = d.quoteEn ∧
      (addIds d ids).sequence = d.sequence := by
  induction ids generalizing d with
  | nil => exact ⟨rfl, rfl, rfl, rfl⟩
  | cons id ids ih => exact ih (d.addId id)

lemma quoteValid_strcpy {quote : Bytes} (h : IsQuote widths quote) :
    quoteValid widths ((CharArray.zero lockTextBytes).strcpy quote).bytes := by
  obtain ⟨text, htext, hquote⟩ := h
  exact quoteValid_iff.mpr ⟨text, htext, (text_quote ⟨text, htext, hquote⟩).trans hquote⟩

/-- **What was accepted is a valid cache** with any source. -/
lemma validCache_data {s : Content} (h : Accepts widths s) {source : CharArray 1025}
    (hterminated : source.terminated) (hsource : source.text ≠ []) :
    validCache widths { s.data with source := source } := by
  obtain ⟨hcount, htext, hterm⟩ := taken_after (d := s.fields) rfl h.packages
  rw [show (after s.fields s.packages).parsed = s.data from rfl] at hcount htext hterm
  obtain ⟨hdate, hzh, hen, hsequence⟩ := addIds_fields s.fields s.ids
  have hlen : s.date.length < 11 := by
    rw [length_of_isDate h.date]
    decide
  have hdateText : (s.fields.date).text = s.date :=
    text_strcpy _ hlen (control_of_isDate h.date (.inl rfl))
  have hids : validIds none (taken s.data) := by
    rw [validIds_iff]
    refine ⟨fun a ha => ⟨hterm a ha, ?_⟩, ?_⟩
    · have hmem : a.text ∈ (taken s.data).map CharArray.text := List.mem_map_of_mem ha
      rw [htext] at hmem
      exact h.packages.valid _ (mem_of_mem_filter hmem)
    · rw [toList_none, nil_append, htext]
      exact (h.packages.increasing.filter external).isChain
  simp only [validCache, Bool.and_eq_true, decide_eq_true_eq, bne_iff_ne, ne_eq]
  refine ⟨⟨⟨⟨⟨⟨⟨⟨?_, ?_⟩, hterminated⟩, hsource⟩, ?_⟩, ?_⟩, ?_⟩, ?_⟩, hids⟩
  · rw [hcount]
    exact h.packages.count
  · rw [Content.data, hsequence]
    exact h.sequence
  · rw [Content.data, hdate]
    exact terminated_strcpy _ hlen
  · rw [Content.data, hdate, hdateText]
    exact validDate_iff.mpr h.date
  · rw [Content.data, hzh]
    exact quoteValid_strcpy h.zh
  · rw [Content.data, hen]
    exact quoteValid_strcpy h.en

lemma load_save {d : Data} {pathLength : ℕ} {ops : Saving} {file file' : Option File}
    (h : save widths d pathLength ops file = (true, file')) {reading : Loading}
    (hreading : reading.opened && reading.stated && transfer 0 reading.reads) :
    load widths reading file' = some d := by
  have hmagic : (recordOf d).magic.bytes = cacheMagic ++ replicate 4 0 := by
    show ((CharArray.zero 16).strcpy cacheMagic).bytes = _
    decide
  unfold save at h
  split_ifs at h with hbad hok
  all_goals rw [Prod.mk.injEq] at h
  · exact absurd h.1 (by simp)
  · simp only [Bool.or_eq_true, Bool.not_eq_true', not_or, Bool.not_eq_false] at hbad
    obtain rfl : some ⟨true, true, true, some (recordOf d)⟩ = file' := h.2
    simp only [Bool.and_eq_true] at hreading
    obtain ⟨⟨hopened, hstated⟩, hreads⟩ := hreading
    have hdata : (recordOf d).data = d := rfl
    simp only [load, bind_eq_bind, bind_some, hopened, hstated, hreads, hmagic, hdata,
      hbad.1.1, beq_self_eq_true, Bool.and_self, if_true]
  · exact absurd h.1 (by simp)

/-! ### The count -/

lemma before_of_validCache {d : Data} (h : validCache widths d) : d.idTexts.Pairwise Before := by
  simp only [validCache, Bool.and_eq_true] at h
  have hchain := (validIds_iff.mp h.2).2
  rw [toList_none, nil_append] at hchain
  exact List.isChain_iff_pairwise.mp hchain

lemma count_of_validCache {d : Data} (h : validCache widths d) : d.count ≤ desktopPackages := by
  simp only [validCache, Bool.and_eq_true, decide_eq_true_eq] at h
  exact h.1.1.1.1.1.1.1.1

/-- The identifiers of a record that are applications of their own and not in another one. -/
def newIds (current seen : Data) : Finset Bytes :=
  (current.idTexts.toFinset.filter fun id => external id) \ seen.idTexts.toFinset

lemma newCount_eq {current seen : Data} (hcurrent : validCache widths current)
    (hseen : validCache widths seen) : newCount current seen =
      if current.source.text = seen.source.text ∧ seen.sequence ≤ current.sequence then
        (newIds current seen).card else 0 := by
  have hcmp : strcmp current.source.text seen.source.text = .eq ↔
      current.source.text = seen.source.text := Std.LawfulEqCmp.compare_eq_iff_eq
  have hnodup : current.idTexts.Nodup := (before_of_validCache hcurrent).imp ne_of_before
  have hcard : (newIds current seen).card =
      (current.idTexts.filter fun id =>
        !internalPackageId id && !seen.idTexts.contains id).length := by
    rw [← toFinset_card_of_nodup (hnodup.filter _)]
    congr 1
    ext id
    simp [newIds, external, and_assoc]
  unfold newCount
  rw [hcard]
  by_cases hsame : current.source.text = seen.source.text ∧ seen.sequence ≤ current.sequence
  · rw [if_pos hsame, if_neg]
    simp only [Bool.or_eq_true, decide_eq_true_eq, bne_iff_ne, ne_eq, not_or, not_not, not_lt,
      hcmp, UInt64.not_lt]
    exact ⟨⟨⟨count_of_validCache hcurrent, count_of_validCache hseen⟩, hsame.1⟩, hsame.2⟩
  rw [if_neg hsame, if_pos]
  simp only [Bool.or_eq_true, decide_eq_true_eq, bne_iff_ne, ne_eq, hcmp]
  by_cases hsource : current.source.text = seen.source.text
  · exact .inr (UInt64.not_le.mp fun hle => hsame ⟨hsource, hle⟩)
  · exact .inl (.inr hsource)

/-- **The desktop summary.** What the parser accepts is a text of the grammar, except that records
of the internal package may differ in letter case alone; every text of the grammar is accepted. Its
identifiers are those of its packages without the internal one. With a source it is a valid cache,
which is saved when the operations succeed, and what was saved is loaded. Of two caches of one
source the count is that of the identifiers of the newer one, without the internal package, that
the other has not. -/
theorem desktop_summary (widths : ℕ → UInt8) :
    (∀ data d, parse widths data = some d → ∃ s : Content, Shape widths s ∧ Distinct s.ids ∧
      ((s.packages.filter internalPackageId).length ≤ 1 → Grammar widths s) ∧
      data = s.text ∧ d = s.data ∧ d.idTexts = s.ids) ∧
    (∀ s : Content, Grammar widths s → parse widths s.text = some s.data) ∧
    (∀ data d source, parse widths data = some d → CharArray.terminated source →
      source.text ≠ [] → ∀ pathLength, pathFits pathLength → ∀ file,
      (save widths { d with source := source } pathLength ⟨true, [], true, true, true⟩ file).1 =
        true ∧
      ∀ ops file', save widths { d with source := source } pathLength ops file = (true, file') →
        ∀ reading : Loading, reading.opened && reading.stated && transfer 0 reading.reads →
        load widths reading file' = some { d with source := source }) ∧
    ∀ current seen, validCache widths current → validCache widths seen →
      newCount current seen =
        if current.source.text = seen.source.text ∧ seen.sequence ≤ current.sequence then
          (newIds current seen).card else 0 := by
  refine ⟨fun data d h => ?_, fun s hs => ?_, fun data d source h hterminated hsource pathLength
    hpath file => ?_, fun current seen hcurrent hseen => newCount_eq hcurrent hseen⟩
  · obtain ⟨s, hs, hsize, rfl, rfl⟩ := parse_iff.mp h
    have hshape := hs.shape hsize
    obtain ⟨-, htext, -⟩ := taken_after (d := s.fields) rfl hs.packages
    exact ⟨s, hshape, hs.packages.unique_ids,
      fun hone => ⟨hshape, hs.packages.unique_of_one hone⟩, rfl, rfl, htext⟩
  · exact parse_iff.mpr ⟨s, hs.accepts, hs.size, rfl, rfl⟩
  · obtain ⟨s, hs, hsize, rfl, rfl⟩ := parse_iff.mp h
    have hvalid := validCache_data hs hterminated hsource
    refine ⟨?_, fun ops file' hsave reading hreading => load_save hsave hreading⟩
    simp [save, hvalid, hpath, transfer]

def sample (packages : List Bytes) : Content :=
  ⟨dateBytes 2026 9 20, 41, ascii "a", ascii "b", packages⟩

def cache (ids : List Bytes) : Data :=
  { addIds (sample []).fields ids with source := (CharArray.zero 1025).strcpy (ascii "s") }

/-- The internal package is not counted, and two records of it may differ in letter case alone. -/
theorem desktop_summary_internal :
    (¬ ∀ (widths : ℕ → UInt8) (current seen : Data), validCache widths current →
      validCache widths seen → current.source.text = seen.source.text →
      seen.sequence ≤ current.sequence →
      newCount current seen = (current.idTexts.toFinset \ seen.idTexts.toFinset).card) ∧
    ¬ ∀ (widths : ℕ → UInt8) (s : Content), (parse widths s.text).isSome → Distinct s.packages := by
  constructor
  · intro h
    have hcount := h (fun _ => 8) (cache [ascii "c1-ime"]) (cache []) (by decide +kernel)
      (by decide +kernel) rfl (by decide +kernel)
    exact absurd hcount (by decide +kernel)
  · intro h
    have hparse := h (fun _ => 8) (sample [ascii "C1-IME", ascii "a", ascii "c1-ime"])
      (by decide +kernel)
    exact absurd hparse (by unfold Distinct; decide +kernel)

end C1auncher.Desktop.SummaryCache
