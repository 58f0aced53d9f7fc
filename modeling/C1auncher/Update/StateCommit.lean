import C1auncher.Update.StateStore

/-!
What a commit to the update state store leaves behind, however it is cut short.

The store is looked at through two functions, the target of its link and the generation
directories by name; a commit moves it along a short chain of points, and a load sees the
old state at all of them but the last.
-/

namespace C1auncher.Update.StateCommit

open Durable CString Update.StateStore List

/-! ### The text written is read back -/

def InLine (c : Char) : Prop := c ≠ '\n' ∧ forbidden c = false

lemma inLine_of_plain {c : Char} (h : Plain c) : InLine c := by
  obtain ⟨h1, h2⟩ := h
  have hsp : ¬c < ' ' := not_lt.mpr (le_trans (by decide) h1)
  have hti : ¬c > '~' := not_lt.mpr h2
  exact ⟨fun hc => by subst hc; exact absurd h1 (by decide), by simp [forbidden, hsp, hti]⟩

lemma tab_notMem_of_plain {text : Text} (h : ∀ c ∈ text, Plain c) : '\t' ∉ text := fun hc =>
  absurd (h _ hc).1 (by decide)

lemma splitLines_append {line : Text} (h : ∀ c ∈ line, InLine c) (rest cur : Text)
    (lines : List Text) :
    splitLines (line ++ rest) cur lines = splitLines rest (cur ++ line) lines := by
  induction line generalizing cur with
  | nil => simp
  | cons c line ih =>
    obtain ⟨hn, hf⟩ := h c mem_cons_self
    rw [cons_append, splitLines, if_neg (by simpa using hn), if_neg (by simp [hf]),
      ih fun x hx => h x (mem_cons_of_mem _ hx)]
    simp

lemma splitLines_line {line : Text} (h : ∀ c ∈ line, InLine c) (hne : line ≠ [])
    (rest : Text) {lines : List Text} (hl : lines.length < 6) :
    splitLines (line ++ '\n' :: rest) [] lines = splitLines rest [] (lines ++ [line]) := by
  rw [splitLines_append h, splitLines, if_pos (by simp), if_neg (by simp [hne]; omega)]
  simp

lemma splitLines_tagLine {tag : Char} {value : Text} (ht : InLine tag)
    (hv : ∀ c ∈ value, InLine c) (rest : Text) {lines : List Text} (hl : lines.length < 6) :
    splitLines (tagLine tag value ++ rest) [] lines
      = splitLines rest [] (lines ++ [tag :: '\t' :: value]) := by
  have hin : ∀ c ∈ tag :: '\t' :: value, InLine c := by
    rintro c (_ | ⟨_, _ | ⟨_, hc⟩⟩)
    · exact ht
    · exact ⟨by decide, by decide⟩
    · exact hv c hc
  have := splitLines_line hin (by simp) rest hl
  simpa [tagLine] using this

lemma taggedValue_eq {tag : Char} {value : Text} (h : '\t' ∉ value) :
    taggedValue tag (tag :: '\t' :: value) = some value := by
  simp [taggedValue, h]

lemma plain_phaseName (phase : Phase) : ∀ c ∈ phaseName phase, Plain c := by
  cases phase <;> simp [phaseName, Plain]

lemma phaseParse_phaseName (phase : Phase) : phaseParse (phaseName phase) = some phase := by
  cases phase <;> decide

/-- A state a commit may write: every field is of the form the reader asks for. -/
structure Writable (s : State) : Prop where
  sequence : s.sequence ≠ 0
  securityEpoch : s.securityEpoch ≠ 0
  release : safeToken s.release
  digest : validDigest s.digest

variable {s previous : State} {d0 d : Store}

lemma stateText_length (h : Writable s) : (stateText s).length < stateFileMax := by
  have h1 := decimal_length_le s.sequence
  have h2 := decimal_length_le s.securityEpoch
  have h3 := length_of_safeToken h.release
  have h4 := length_of_validDigest h.digest
  have h5 : (phaseName s.phase).length ≤ 12 := by cases s.phase <;> decide
  have h6 : magic.length = 14 := by decide
  simp only [stateText, tagLine, stateFileMax, length_append, length_cons, length_nil]
  omega

/-- **The text written for a state is read back as this state.** -/
theorem parseStateData_stateText (h : Writable s) :
    parseStateData (stateText s) s.generation = some s := by
  have hin {text : Text} (ht : ∀ c ∈ text, Plain c) : ∀ c ∈ text, InLine c :=
    fun c hc => inLine_of_plain (ht c hc)
  have hrel := plain_of_safeToken h.release
  have hdig := plain_of_validDigest h.digest
  have hmagic : ∀ c ∈ magic, InLine c := by simp [magic, InLine, forbidden]
  have hlines : splitLines (stateText s) [] []
      = some [magic, 'P' :: '\t' :: phaseName s.phase, 'S' :: '\t' :: decimal s.sequence,
        'E' :: '\t' :: decimal s.securityEpoch, 'R' :: '\t' :: s.release,
        'D' :: '\t' :: s.digest] := by
    have htag : ∀ c ∈ ['P', 'S', 'E', 'R', 'D'], InLine c := by simp [InLine, forbidden]
    have happ : stateText s = magic ++ '\n' :: (tagLine 'P' (phaseName s.phase) ++
        (tagLine 'S' (decimal s.sequence) ++ (tagLine 'E' (decimal s.securityEpoch) ++
          (tagLine 'R' s.release ++ (tagLine 'D' s.digest ++ []))))) := by
      simp [stateText]
    rw [happ, splitLines_line hmagic (by decide) _ (by simp),
      splitLines_tagLine (htag _ (by simp)) (hin (plain_phaseName _)) _ (by simp),
      splitLines_tagLine (htag _ (by simp)) (hin (plain_decimal _)) _ (by simp),
      splitLines_tagLine (htag _ (by simp)) (hin (plain_decimal _)) _ (by simp),
      splitLines_tagLine (htag _ (by simp)) (hin hrel) _ (by simp),
      splitLines_tagLine (htag _ (by simp)) (hin hdig) _ (by simp)]
    simp [splitLines]
  simp only [parseStateData, hlines, Option.bind_eq_bind, Option.bind_some,
    taggedValue_eq (tab_notMem_of_plain (plain_phaseName _)), phaseParse_phaseName,
    taggedValue_eq (tab_notMem_of_plain (plain_decimal _)),
    taggedValue_eq (tab_notMem_of_plain hrel), taggedValue_eq (tab_notMem_of_plain hdig),
    parseU64_decimal true fun _ => h.sequence, parseU64_decimal true fun _ => h.securityEpoch,
    guard, if_pos h.release, if_pos h.digest]
  rfl

lemma loadGenerationState_stateText (h : Writable s) :
    loadGenerationState ⟨some (stateText s)⟩ s.generation = some s := by
  have hlen := (stateText_length h).le
  simp only [loadGenerationState, Option.bind_eq_bind, Option.bind_some, guard, if_pos hlen,
    parseStateData_stateText h]
  rfl

lemma parseGenerationTarget_eq {generation : UInt64} (h : generation ≠ 0) :
    parseGenerationTarget (generationTarget generation)
      = some (decimal generation, generation) := by
  have hlen := decimal_length_le generation
  have hslash : '/' ∉ decimal generation := fun hc =>
    absurd (decimal_isDigit hc) (by decide)
  have hpre : generationPrefix.isPrefixOf (generationTarget generation) := by
    simp [generationTarget]
  have hshort : (generationTarget generation).length < 128 := by
    simp only [generationTarget, generationPrefix, length_append, length_cons, length_nil]
    omega
  have hdrop : (generationTarget generation).drop generationPrefix.length = decimal generation := by
    simp [generationTarget]
  simp [parseGenerationTarget, hpre, hshort, hdrop, hslash, parseU64_decimal true fun _ => h]

/-! ### Looking at a store -/

/-- The target of the `current` link. -/
def Store.link (d : Store) : Option Text := d.bind StateRoot.current

lemma readState_eq (d : Store) : readState d = match Store.link d with
    | none => some .initial
    | some target => (parseGenerationTarget target).bind fun x =>
        (Store.generation? d x.1).bind (loadGenerationState · x.2) := by
  rcases d with _ | ⟨_ | ⟨c, ds⟩, _ | target, ts⟩
  · rfl
  · rfl
  · cases h : parseGenerationTarget target <;>
      simp [readState, Store.link, Store.generation?]
  · rfl
  · cases h : parseGenerationTarget target <;>
      simp [readState, Store.link, Store.generation?, h]

/-- Two stores a load cannot tell apart. -/
def Kept (d0 d : Store) : Prop :=
  Store.link d = Store.link d0 ∧ ∀ name, d.generation? name = d0.generation? name

lemma Kept.refl (d : Store) : Kept d d := ⟨rfl, fun _ => rfl⟩

lemma Kept.readState (h : Kept d0 d) : readState d = readState d0 := by
  rw [readState_eq, readState_eq, h.1]
  simp only [h.2]

/-- The new generation is in place, but not selected. -/
def Written (next : State) (d0 d : Store) : Prop :=
  d0.generation? (decimal next.generation) = none ∧ Store.link d = Store.link d0 ∧
    ∀ name, d.generation? name =
      if name = decimal next.generation then some ⟨some (stateText next)⟩
      else d0.generation? name

def Selected (next : State) (d0 d : Store) : Prop :=
  Store.link d = some (generationTarget next.generation) ∧
    (∃ directory, d.generation? (decimal next.generation) = some directory ∧
      loadGenerationState directory next.generation = some next) ∧
    ∀ name, name ≠ decimal next.generation → d.generation? name = d0.generation? name

lemma Written.readState {next : State} (h : Written next d0 d)
    (hs : readState d0 = some s) : readState d = some s := by
  obtain ⟨hnone, hlink, hgen⟩ := h
  rw [← hs, readState_eq d, readState_eq d0, hlink]
  rw [readState_eq d0] at hs
  rcases hl : Store.link d0 with _ | target
  · rfl
  rcases hp : parseGenerationTarget target with _ | ⟨name, generation⟩
  · simp [hp]
  have hname : name ≠ decimal next.generation := by
    rintro rfl
    simp [hl, hp, hnone] at hs
  simp [hp, hgen, hname]

lemma Selected.readState {next : State} (h : Selected next d0 d)
    (hg : next.generation ≠ 0) : readState d = some next := by
  obtain ⟨hlink, ⟨directory, hdir, hload⟩, -⟩ := h
  rw [readState_eq, hlink]
  simp only [parseGenerationTarget_eq hg, Option.bind_some, hdir, hload]

/-! ### The points a commit passes -/

lemma kept_makeRoot (d : Store) : Kept d d.makeRoot := by
  rcases d with _ | r <;> exact Kept.refl _

lemma makeGenerations_makeRoot (d : Store) : ∃ drafts ts,
    d.makeRoot.makeGenerations = some ⟨some ⟨d.generation?, drafts⟩, Store.link d, ts⟩ := by
  rcases d with _ | ⟨_ | ⟨c, ds⟩, cur, ts⟩
  · exact ⟨[], [], rfl⟩
  · exact ⟨[], ts, rfl⟩
  · exact ⟨ds, ts, rfl⟩

lemma writable_of_accepts {next : State} (h : commitAccepts previous next) :
    Writable next := by
  simp only [commitAccepts, Bool.and_eq_true, bne_iff_ne] at h
  exact ⟨h.1.1.1.1.1.2, h.1.1.1.1.2, h.1.1.2, h.1.2⟩

lemma generation_lt_of_accepts {next : State} (h : commitAccepts previous next) :
    previous.generation < next.generation := by
  simp only [commitAccepts, Bool.and_eq_true, decide_eq_true_eq] at h
  exact h.1.1.1.1.1.1

lemma generation_ne_zero_of_accepts {next : State} (h : commitAccepts previous next) :
    next.generation ≠ 0 := by
  have := generation_lt_of_accepts h
  rw [UInt64.lt_iff_toNat_lt] at this
  intro h0
  rw [h0] at this
  simp at this

/-- Where a commit can stop: nothing changed that a load sees, or the new generation is in
place, or it is selected. -/
inductive CommitPoint (previous next : State) (d0 d : Store) : Prop
  | kept (h : Kept d0 d)
  | written (accepts : commitAccepts previous next) (load : readState d0 = some previous)
      (h : Written next d0 d)
  | selected (accepts : commitAccepts previous next) (load : readState d0 = some previous)
      (h : Selected next d0 d)

def Committed (previous next : State) (d0 d : Store) : Prop :=
  commitAccepts previous next ∧ ((readState d0 = some next ∧ Kept d0 d) ∨
    (readState d0 = some previous ∧ Selected next d0 d))

open Prog

lemma wp_updateStateLoad {Q : State → Store → Prop} {E C : Store → Prop}
    (hQ : ∀ s, readState d = some s → Q s d) (hE : E d) (hC : C d) :
    wp updateStateLoad Q E C d :=
  wp_bind (wp_look (wp_get hQ fun _ => hE) hE hC)

section

variable {c : Text → Option Generation} {ds : List Generation} {cur : Option Text}
  {ts : List Text} {next : State}

lemma wp_replaceLink {target : Text} {Q : Unit → Store → Prop} {P : Store → Prop}
    (hold : ∀ ts, P (some ⟨some ⟨c, ds⟩, cur, ts⟩))
    (hnew : ∀ ts, P (some ⟨some ⟨c, ds⟩, some target, ts⟩))
    (hQ : ∀ ts, Q () (some ⟨some ⟨c, ds⟩, some target, ts⟩)) :
    wp (replaceLink target) Q P P (some ⟨some ⟨c, ds⟩, cur, ts⟩) := by
  refine wp_bind (wp_tick ?_ (hold ts) (hold ts))
  refine wp_bind (wp_act ?_ (hold ts) (hold ts))
  refine wp_bind (wp_orElse (wp_act ?_ (wp_act (hold _) (hold _) (hold _)) (hold _)))
  exact wp_tick (hQ ts) (hnew ts) (hnew ts)

lemma wp_writeGeneration {Q : Unit → Store → Prop} {P : Store → Prop}
    (hold : ∀ ds, P (some ⟨some ⟨c, ds⟩, cur, ts⟩))
    (hQ : ∀ ds, Q () (some ⟨some ⟨Function.update c (decimal next.generation)
      (some ⟨some (stateText next)⟩), ds⟩, cur, ts⟩)) :
    wp (writeGeneration next) Q P P (some ⟨some ⟨c, ds⟩, cur, ts⟩) := by
  have hclean : ∀ ds, wp (do
      let _ ← attempt (tick : Prog Store Unit)
      act Store.removeDraft) (fun _ => P) P P (some ⟨some ⟨c, ds⟩, cur, ts⟩) := fun ds =>
    wp_bind (wp_attempt (wp_tick (wp_act (hold _) (hold _) (hold _))
      (wp_act (hold _) (hold _) (hold _)) (hold _)))
  refine wp_bind (wp_act ?_ (hold ds) (hold ds))
  refine wp_orElse (wp_bind (wp_require (fun _ => ?_) fun _ => hclean _))
  refine wp_bind (wp_tick ?_ (hclean _) (hold _))
  refine wp_bind (wp_act ?_ (hclean _) (hold _))
  refine wp_bind (wp_tick ?_ (hclean _) (hold _))
  refine wp_bind (wp_tick ?_ (hclean _) (hold _))
  exact wp_act (hQ ds) (hclean _) (hold _)

end

/-- **Every run of a commit** stops at one of these points, and at the last one if it
returns. -/
theorem wp_updateStateCommit (previous next : State) (d0 : Store) :
    wp (updateStateCommit previous next) (fun _ => Committed previous next d0)
      (CommitPoint previous next d0) (CommitPoint previous next d0) d0 := by
  have hkept : CommitPoint previous next d0 d0 := .kept (Kept.refl d0)
  refine wp_bind (wp_require (fun hacc => ?_) fun _ => hkept)
  refine wp_bind (wp_updateStateLoad (fun actual hload => ?_) hkept hkept)
  split_ifs with hnext
  · exact wp_tick ⟨hacc, .inl ⟨hnext ▸ hload, Kept.refl d0⟩⟩ hkept hkept
  refine wp_bind (wp_require (fun hprev => ?_) fun _ => hkept)
  subst hprev
  have hk1 : CommitPoint actual next d0 d0.makeRoot := .kept (kept_makeRoot d0)
  refine wp_bind (wp_act ?_ hkept hkept)
  refine wp_bind (wp_act ?_ hk1 hk1)
  obtain ⟨ds, ts, hd⟩ := makeGenerations_makeRoot d0
  rw [hd]
  have hold : ∀ ds ts, CommitPoint actual next d0
      (some ⟨some ⟨d0.generation?, ds⟩, Store.link d0, ts⟩) := fun ds ts =>
    .kept ⟨rfl, fun _ => rfl⟩
  refine wp_bind (wp_look ?_ (hold ds ts) (hold ds ts))
  have hlook : (Store.generation? (some ⟨some ⟨d0.generation?, ds⟩, Store.link d0, ts⟩)
      (decimal next.generation)) = d0.generation? (decimal next.generation) := rfl
  rw [hlook]
  rcases hg : d0.generation? (decimal next.generation) with _ | directory
  · -- the generation has to be written
    have hw : Writable next := writable_of_accepts hacc
    have hwritten : ∀ ds ts, CommitPoint actual next d0
        (some ⟨some ⟨Function.update d0.generation? (decimal next.generation)
          (some ⟨some (stateText next)⟩), ds⟩, Store.link d0, ts⟩) := fun ds ts =>
      .written hacc hload ⟨hg, rfl, fun name => by
        simp [Store.generation?, Function.update_apply]⟩
    have hselected : ∀ ds ts, Selected next d0
        (some ⟨some ⟨Function.update d0.generation? (decimal next.generation)
          (some ⟨some (stateText next)⟩), ds⟩,
          some (generationTarget next.generation), ts⟩) := fun ds ts =>
      ⟨rfl, ⟨_, by simp [Store.generation?], loadGenerationState_stateText hw⟩,
        fun name hname => by simp [Store.generation?, Function.update_of_ne hname]⟩
    refine wp_bind (wp_writeGeneration (hold · ts) fun ds => ?_)
    refine wp_bind (wp_tick ?_ (hwritten ds ts) (hwritten ds ts))
    exact wp_replaceLink (hwritten ds) (fun ts => .selected hacc hload (hselected ds ts))
      fun ts => ⟨hacc, .inr ⟨hload, hselected ds ts⟩⟩
  · -- a generation of this number is there and has to be this very state
    refine wp_bind (wp_require (fun hsame => ?_) fun _ => hold ds ts)
    have hselected : ∀ ts, Selected next d0
        (some ⟨some ⟨d0.generation?, ds⟩, some (generationTarget next.generation), ts⟩) :=
      fun ts => ⟨rfl, ⟨directory, hg, hsame⟩, fun _ _ => rfl⟩
    refine wp_bind (wp_tick ?_ (hold ds ts) (hold ds ts))
    exact wp_replaceLink (hold ds) (fun ts => .selected hacc hload (hselected ts))
      fun ts => ⟨hacc, .inr ⟨hload, hselected ts⟩⟩

end C1auncher.Update.StateCommit
