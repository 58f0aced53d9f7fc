import C1auncher.Generations
import C1auncher.Update.Log

/-!
What the log files keep: however the blocks fall, whatever the calls of `write` take and wherever
a file operation fails, they end with what the sink was given last, in order and without a gap.
-/

namespace C1auncher.Update.LogRetention

open Function Durable Durable.Prog Generations List
open Utf8Bytes Update.Log

variable {limit rotations : ℕ}

def textOf (files : Files) (i : ℕ) : Bytes := ((files i).map File.bytes).getD []

/-- The files from the oldest rotation to the active one, in one piece. -/
def content (rotations : ℕ) (files : Files) : Bytes := joined (textOf files) (rotations + 1)

/-- The files without those that are longer than the limit. -/
def kept (limit : ℕ) (files : Files) (i : ℕ) : Option File :=
  (files i).filter fun file => file.bytes.length ≤ limit

variable {i : ℕ} {file : File} {E C : Files → Prop} {given : Bytes} {sink : Sink}

lemma textOf_of_none {files : Files} (h : files i = none) : textOf files i = [] := by
  simp [textOf, h]

lemma textOf_of_some {files : Files} (h : files i = some file) :
    textOf files i = file.bytes := by
  simp [textOf, h]

lemma textOf_update (files : Files) (i : ℕ) (file : Option File) :
    textOf (update files i file) = update (textOf files) i ((file.map File.bytes).getD []) := by
  funext j
  by_cases hj : j = i
  · subst hj
    simp [textOf]
  · simp [textOf, update_of_ne hj]

lemma textOf_unlink (files : Files) (i : ℕ) :
    textOf (unlink i files) = update (textOf files) i [] :=
  textOf_update files i none

lemma textOf_rename {files : Files} (h : files (i + 1) = none) :
    textOf (rename i files) = update (update (textOf files) (i + 1) (textOf files i)) i [] := by
  rcases hi : files i with _ | file
  · have htext := textOf_of_none hi
    have hnext := textOf_of_none h
    rw [rename, hi, htext, ← hnext, update_eq_self, hnext, ← htext, update_eq_self]
  · rw [rename, hi, textOf_update, textOf_update, textOf_of_some hi]
    rfl

lemma textOf_create (files : Files) : textOf (create files) = textOf files := by
  rcases h0 : files 0 with _ | file
  · rw [create, h0, textOf_update]
    exact (congrArg (update _ 0) (textOf_of_none h0).symm).trans (update_eq_self 0 _)
  · rw [create, h0]

lemma textOf_append {files : Files} (h : files 0 = some file) (data : Bytes) :
    textOf (append data files) = update (textOf files) 0 (textOf files 0 ++ data) := by
  rw [append, textOf_update, h, textOf_of_some h]
  rfl

lemma create_of_ne {files : Files} (hi : i ≠ 0) : create files i = files i := by
  rcases h0 : files 0 with _ | file
  · rw [create, h0]
    exact update_of_ne hi _ _
  · rw [create, h0]

lemma rename_of_lt {files : Files} {j : ℕ} (h : i + 1 < j) : rename i files j = files j := by
  rcases hi : files i with _ | file
  · rw [rename, hi]
  rw [rename, hi]
  simp only
  rw [update_of_ne (by omega), update_of_ne (by omega)]

/-! ### What holds at every moment -/

/-- The files with other numbers are as they were found, none of the log's is too long, and what
is in them is the end of `all`. -/
structure Kept (limit rotations : ℕ) (found : Files) (all : Bytes) (files : Files) : Prop where
  others : ∀ i, rotations < i → files i = found i
  within : ∀ i ≤ rotations, (textOf files i).length ≤ limit
  tail : content rotations files <:+ all

/-- The older files are full up to the number `k` and empty behind it; unless all of them are full,
nothing has been dropped. -/
structure Chain (limit rotations : ℕ) (all : Bytes) (k : ℕ) (files : Files) : Prop where
  bound : k ≤ rotations
  full : ∀ i, 0 < i → i ≤ k → (textOf files i).length = limit
  empty : ∀ i, k < i → i ≤ rotations → textOf files i = []
  whole : k = rotations ∨ content rotations files = all

/-- What holds of an enabled sink; `P` is what is known of the files that were found. -/
structure Ready (limit rotations : ℕ) (P : Prop) (found : Files) (all : Bytes) (used : ℕ)
    (files : Files) : Prop extends Kept limit rotations found all files where
  active : ∃ file, files 0 = some file ∧ file.bytes.length = used
  chain : P → ∃ k, Chain limit rotations all k files

variable {P : Prop} {found files : Files} {all data : Bytes} {used : ℕ}

lemma Ready.length_active (h : Ready limit rotations P found all used files) :
    (textOf files 0).length = used := by
  obtain ⟨file, h0, hused⟩ := h.active
  rw [textOf_of_some h0, hused]

lemma Chain.length_le {k : ℕ} (h : Chain limit rotations all k files) :
    min all.length (rotations * limit) ≤ (content rotations files).length := by
  rcases h.whole with rfl | hall
  · exact (Nat.min_le_right _ _).trans (mul_le_length_joined h.full)
  · rw [hall]
    exact Nat.min_le_left _ _

lemma Kept.unlink (h : Kept limit rotations found all files) :
    Kept limit rotations found all (Log.unlink rotations files) where
  others i hi := (update_of_ne (by omega) _ _).trans (h.others i hi)
  within i hi := by
    rw [textOf_unlink]
    rcases eq_or_ne i rotations with rfl | hne
    · rw [update_self]
      exact Nat.zero_le _
    · rw [update_of_ne hne]
      exact h.within i hi
  tail := by
    have hsuffix : content rotations (Log.unlink rotations files) <:+ content rotations files := by
      rw [content, content, textOf_unlink, joined_clear_oldest, joined]
      exact suffix_append _ _
    exact hsuffix.trans h.tail

lemma Kept.rename (h : Kept limit rotations found all files) (hi : i < rotations)
    (hfree : files (i + 1) = none) : Kept limit rotations found all (Log.rename i files) where
  others j hj := (rename_of_lt (by omega)).trans (h.others j hj)
  within j hj := by
    rw [textOf_rename hfree]
    rcases eq_or_ne j i with rfl | hne
    · rw [update_self]
      exact Nat.zero_le _
    rw [update_of_ne hne]
    rcases eq_or_ne j (i + 1) with rfl | hne'
    · rw [update_self]
      exact h.within i (by omega)
    · rw [update_of_ne hne']
      exact h.within j hj
  tail := by
    rw [content, textOf_rename hfree, joined_move (by omega) (textOf_of_none hfree)]
    exact h.tail

lemma Kept.create (h : Kept limit rotations found all files) :
    Kept limit rotations found all (Log.create files) where
  others i hi := (create_of_ne (by omega)).trans (h.others i hi)
  within i hi := by
    rw [textOf_create]
    exact h.within i hi
  tail := by
    rw [content, textOf_create]
    exact h.tail

/-! ### The operations of the sink -/

lemma wp_validateNames {Q : Unit → Files → Prop} (hQ : Q () files)
    (hE : E files) (hC : C files) (indices : List ℕ) :
    wp (validateNames limit false indices) Q E C files := by
  induction indices with
  | nil => exact wp_pure hQ
  | cons index indices ih =>
    refine wp_bind (wp_bind (wp_look ?_ hE hC))
    rcases files index with _ | file
    · exact wp_pure ih
    · refine wp_bind (wp_require (fun _ => wp_when (fun _ => ?_) fun _ => ih) fun _ => hE)
      exact wp_bind (wp_require (fun h => absurd h (by simp)) fun _ => hE)

lemma wp_validateFiles {Q : Unit → Files → Prop} (hQ : Q () files)
    (hE : E files) (hC : C files) : wp (validateFiles limit rotations false) Q E C files :=
  wp_bind (wp_tick (wp_validateNames hQ hE hC _) hE hC)

lemma wp_openLog {Q : ℕ → Files → Prop}
    (hQ : ∀ file, create files 0 = some file → file.bytes.length ≤ limit →
      Q file.bytes.length (create files))
    (hE : E files) (hC : C files) (hE' : E (create files)) (hC' : C (create files)) :
    wp (openLog limit) Q E C files := by
  refine wp_bind (wp_act (wp_bind (wp_look ?_ hE' hC')) hE hC)
  refine wp_bind (wp_get (fun file h0 => ?_) fun _ => hE')
  exact wp_bind (wp_require (fun h => wp_pure (hQ file h0 h.2)) fun _ => hE')

/-- **The chain of renames**: wherever it ends, what is in the files is what was in them, and
behind a whole chain each file stands one number higher. -/
lemma wp_renames {n : ℕ} (h : Kept limit rotations found all files) (hn : n ≤ rotations)
    (hfree : files n = none) :
    wp (renames n)
      (fun _ files' => Kept limit rotations found all files' ∧
        (∀ i ≤ n, textOf files' i = aged (textOf files) i) ∧ ∀ i, n < i → files' i = files i)
      (Kept limit rotations found all) (Kept limit rotations found all) files := by
  induction n generalizing files with
  | zero =>
    refine wp_pure ⟨h, fun i hi => ?_, fun _ _ => rfl⟩
    obtain rfl := Nat.le_zero.mp hi
    exact textOf_of_none hfree
  | succ n ih =>
    refine wp_bind (wp_act ?_ h h)
    have hmoved : textOf (rename n files) =
        update (update (textOf files) (n + 1) (textOf files n)) n [] := textOf_rename hfree
    have hnone : rename n files n = none := by
      rcases hi : files n with _ | file
      · rw [rename, hi]
        exact hi
      · rw [rename, hi]
        exact update_self ..
    refine wp_mono (ih (h.rename (by omega) hfree) (by omega) hnone) ?_ (fun _ h => h) fun _ h => h
    rintro _ files' ⟨hkept, hbelow, habove⟩
    refine ⟨hkept, fun i hi => ?_, fun i hi => ?_⟩
    · rcases Nat.lt_or_ge n i with hlt | hle
      · obtain rfl : i = n + 1 := by omega
        have hsame : textOf files' (n + 1) = textOf (rename n files) (n + 1) := by
          rw [textOf, habove _ hlt, textOf]
        rw [hsame, hmoved, update_of_ne (by omega), update_self, aged]
      rw [hbelow i hle]
      rcases i with _ | i
      · rfl
      · rw [aged, aged, hmoved, update_of_ne (by omega), update_of_ne (by omega)]
    · rw [habove i (by omega), rename_of_lt (by omega)]

/-- **A rotation** never keeps anything but an end of what was there; when it returns, it has
dropped the oldest file, and the active one is empty. -/
lemma wp_rotate (h : Kept limit rotations found all files) :
    wp (rotate limit rotations)
      (fun used files' => Kept limit rotations found all files' ∧
        (∃ file, files' 0 = some file ∧ file.bytes.length = used) ∧
        ∀ i ≤ rotations, textOf files' i = aged (textOf files) i)
      (Kept limit rotations found all) (Kept limit rotations found all) files := by
  have hfree : unlink rotations files rotations = none := update_self ..
  have hbefore : ∀ i ≤ rotations,
      aged (textOf (unlink rotations files)) i = aged (textOf files) i := by
    rintro (_ | i) hi
    · rfl
    · rw [aged, aged, textOf_unlink, update_of_ne (by omega)]
  refine wp_bind (wp_validateFiles ?_ h h)
  refine wp_bind (wp_act (wp_bind ?_) h h)
  refine wp_mono (wp_renames h.unlink le_rfl hfree) ?_ (fun _ h => h) fun _ h => h
  rintro _ files' ⟨hkept, haged, -⟩
  refine wp_openLog (fun file h0 _ => ⟨hkept.create, ⟨file, h0, rfl⟩, fun i hi => ?_⟩)
    hkept hkept hkept.create hkept.create
  rw [textOf_create, haged i hi, hbefore i hi]

lemma Chain.rotate {k : ℕ} {files' : Files} (h : Chain limit rotations all k files)
    (hfull : (textOf files 0).length = limit)
    (haged : ∀ i ≤ rotations, textOf files' i = aged (textOf files) i) :
    ∃ k, Chain limit rotations all k files' := by
  have hlength : ∀ i, 0 < i → i ≤ rotations → i ≤ k + 1 → (textOf files' i).length = limit := by
    rintro (_ | _ | i) hpos hi hk
    · omega
    · rw [haged 1 hi, aged, hfull]
    · rw [haged _ hi, aged, h.full (i + 1) (by omega) (by omega)]
  rcases h.bound.lt_or_eq with hlt | rfl
  · have hlast : textOf files rotations = [] := h.empty rotations hlt le_rfl
    have hcontent : content rotations files' = content rotations files := by
      rw [content, content, joined_eq_aged (textOf files), hlast, nil_append]
      exact joined_congr fun i hi => haged i (by omega)
    refine ⟨k + 1, hlt, fun i hpos hi => hlength i hpos (by omega) hi, fun i hi hle => ?_, ?_⟩
    · obtain ⟨i, rfl⟩ : ∃ j, i = j + 1 := ⟨i - 1, by omega⟩
      rw [haged _ hle, aged, h.empty i (by omega) (by omega)]
    rcases h.whole with heq | hall
    · omega
    · exact .inr (hcontent.trans hall)
  · exact ⟨k, le_rfl, fun i hpos hi => hlength i hpos hi (by omega), fun i hi hle => by omega,
      .inl rfl⟩

lemma wp_makeRoom (h : Ready limit rotations P found all used files) :
    wp (makeRoom limit rotations used) (Ready limit rotations P found all)
      (Kept limit rotations found all) (Kept limit rotations found all) files := by
  unfold makeRoom
  split_ifs with hfull
  · refine wp_mono (wp_rotate h.toKept) ?_ (fun _ h => h) fun _ h => h
    rintro used' files' ⟨hkept, hactive, haged⟩
    refine ⟨hkept, hactive, fun hP => ?_⟩
    obtain ⟨k, hchain⟩ := h.chain hP
    exact hchain.rotate (h.length_active.trans hfull) haged
  · exact wp_pure h

/-- **What is written is added behind everything**, and fits. -/
lemma Ready.append (h : Ready limit rotations P found all used files)
    (hfits : used + data.length ≤ limit) :
    Ready limit rotations P found (all ++ data) (used + data.length) (Log.append data files) := by
  obtain ⟨file, h0, hused⟩ := h.active
  have htext := textOf_append h0 data
  have hcontent : content rotations (Log.append data files) = content rotations files ++ data := by
    rw [content, htext, joined_append, content]
  refine ⟨⟨fun i hi => ?_, fun i hi => ?_, ?_⟩, ⟨_, by rw [Log.append, h0]; exact update_self ..,
    by simp [hused]⟩, fun hP => ?_⟩
  · rw [Log.append, update_of_ne (by omega)]
    exact h.others i hi
  · rw [htext]
    rcases eq_or_ne i 0 with rfl | hne
    · rw [update_self, length_append, h.length_active]
      exact hfits
    · rw [update_of_ne hne]
      exact h.within i hi
  · obtain ⟨front, hfront⟩ := h.tail
    exact ⟨front, by rw [hcontent, ← append_assoc, hfront]⟩
  · obtain ⟨k, hchain⟩ := h.chain hP
    refine ⟨k, hchain.bound, fun i hpos hi => ?_, fun i hi hle => ?_, ?_⟩
    · rw [htext, update_of_ne (by omega)]
      exact hchain.full i hpos hi
    · rw [htext, update_of_ne (by omega)]
      exact hchain.empty i hi hle
    · exact hchain.whole.imp_right fun hall => by rw [hcontent, hall]

/-- What has been written of a block when its loop ends early. -/
def Cut (limit rotations : ℕ) (found : Files) (all data : Bytes) (files : Files) : Prop :=
  ∃ written, written <+: data ∧ Kept limit rotations found (all ++ written) files

lemma Kept.cut (h : Kept limit rotations found all files) (data : Bytes) :
    Cut limit rotations found all data files :=
  ⟨[], nil_prefix, by rwa [append_nil]⟩

lemma Cut.of_drop {n : ℕ} (h : Cut limit rotations found (all ++ data.take n) (data.drop n) files) :
    Cut limit rotations found all data files := by
  obtain ⟨written, hprefix, hkept⟩ := h
  refine ⟨data.take n ++ written, ?_, by rwa [← append_assoc]⟩
  calc data.take n ++ written <+: data.take n ++ data.drop n :=
        (prefix_append_right_inj _).mpr hprefix
    _ = data := take_append_drop n data

/-- **A block that is written whole** is behind everything; one that is not has been written up to
some byte of it. -/
lemma wp_collectLoop (writes : List Written) (h : Ready limit rotations P found all used files) :
    wp (collectLoop limit rotations writes used data)
      (Ready limit rotations P found (all ++ data)) (Cut limit rotations found all data)
      (Cut limit rotations found all data) files := by
  induction writes generalizing used data all files with
  | nil =>
    cases data with
    | nil => exact wp_pure (by rwa [append_nil])
    | cons b data => exact wp_fail (h.toKept.cut _)
  | cons outcome writes ih =>
    cases data with
    | nil => exact wp_pure (by rwa [append_nil])
    | cons b data =>
      refine wp_bind (wp_mono (wp_makeRoom h) ?_ (fun _ h => h.cut _) fun _ h => h.cut _)
      intro used files h
      have hcut := h.toKept.cut (b :: data)
      cases outcome with
      | interrupted => exact ih h
      | took k =>
        obtain ⟨n, hn⟩ : ∃ n, n = min (k + 1) (min (limit - used) (b :: data).length) := ⟨_, rfl⟩
        have hlength : ((b :: data).take n).length = n := length_take_of_le (by omega)
        refine wp_bind (wp_require (fun hpos => wp_bind (wp_act ?_ hcut hcut)) fun _ => hcut)
        rw [← hn]
        have hready : Ready limit rotations P found (all ++ (b :: data).take n)
            (used + ((b :: data).take n).length) (append ((b :: data).take n) files) :=
          h.append (by omega)
        rw [hlength] at hready
        refine wp_mono (ih hready) (fun used files h => ?_)
          (fun _ h => h.of_drop) fun _ h => h.of_drop
        rwa [append_assoc, take_append_drop] at h

lemma wp_collectBlock (writes : List Written)
    (h : Ready limit rotations P found all used files) :
    wp (collectBlock limit rotations writes used data)
      (Ready limit rotations P found (all ++ data)) (Cut limit rotations found all data)
      (Cut limit rotations found all data) files := by
  have hcut := h.toKept.cut data
  refine wp_bind (wp_validateFiles ?_ hcut hcut)
  refine wp_bind (wp_look (wp_bind (wp_get (fun file _ => ?_) fun _ => hcut)) hcut hcut)
  refine wp_bind (wp_tick (wp_bind ?_) hcut hcut)
  exact wp_require (fun _ => wp_collectLoop writes h) fun _ => hcut

/-! ### The beginning -/

/-- Files that are too long may be gone, and nothing else has changed. -/
structure Thinned (limit rotations : ℕ) (found files : Files) : Prop where
  others : ∀ i, rotations < i → files i = found i
  within : ∀ i file, files i = some file → file.bytes.length ≤ limit ∨ found i = some file

lemma Thinned.unlink (h : Thinned limit rotations found files) (hi : i ≤ rotations) :
    Thinned limit rotations found (Log.unlink i files) where
  others j hj := (update_of_ne (by omega) _ _).trans (h.others j hj)
  within j file hj := by
    rcases eq_or_ne j i with rfl | hne
    · rw [Log.unlink, update_self] at hj
      exact absurd hj (by simp)
    · rw [Log.unlink, update_of_ne hne] at hj
      exact h.within j file hj

lemma Thinned.create (h : Thinned limit rotations found files) :
    Thinned limit rotations found (Log.create files) where
  others i hi := (create_of_ne (by omega)).trans (h.others i hi)
  within i file hi := by
    rcases h0 : files 0 with _ | active
    · rw [Log.create, h0] at hi
      simp only at hi
      rcases eq_or_ne i 0 with rfl | hne
      · rw [update_self] at hi
        obtain rfl := Option.some.inj hi
        exact .inl (Nat.zero_le _)
      · rw [update_of_ne hne] at hi
        exact h.within i file hi
    · rw [Log.create, h0] at hi
      exact h.within i file hi

lemma kept_of_le (hi : files i = some file)
    (hle : file.bytes.length ≤ limit) : kept limit files i = files i := by
  simp [kept, hi, hle]

lemma kept_of_lt (hi : files i = some file)
    (hlt : limit < file.bytes.length) : kept limit files i = none := by
  simp [kept, hi, hlt]

lemma kept_of_none (hi : files i = none) : kept limit files i = files i := by
  simp [kept, hi]

lemma wp_trimNames (indices : List ℕ) (hindices : ∀ i ∈ indices, i ≤ rotations)
    (h : Thinned limit rotations found files) :
    wp (validateNames limit true indices)
      (fun _ files' => Thinned limit rotations found files' ∧
        ∀ i, files' i = if i ∈ indices then kept limit files i else files i)
      (Thinned limit rotations found) (Thinned limit rotations found) files := by
  induction indices generalizing files with
  | nil => exact wp_pure ⟨h, fun i => by simp⟩
  | cons index indices ih =>
    have hrest : ∀ i ∈ indices, i ≤ rotations := fun i hi => hindices i (mem_cons_of_mem _ hi)
    -- Where the turn leaves the name as the check wants it, the rest of the loop can go on.
    have hgo : ∀ files₁, Thinned limit rotations found files₁ →
        (∀ i, files₁ i = if i = index then kept limit files i else files i) →
        wp (validateNames limit true indices)
          (fun _ files' => Thinned limit rotations found files' ∧
            ∀ i, files' i = if i ∈ index :: indices then kept limit files i else files i)
          (Thinned limit rotations found) (Thinned limit rotations found) files₁ := by
      intro files₁ h₁ hturn
      refine wp_mono (ih hrest h₁) ?_ (fun _ h => h) fun _ h => h
      rintro _ files' ⟨hthin, hall⟩
      refine ⟨hthin, fun i => ?_⟩
      rw [hall i]
      by_cases hi : i = index
      · have hsame : kept limit files₁ i = files₁ i := by
          rw [kept, hturn i, if_pos hi, kept, Option.filter_filter]
          simp
        rw [hsame, ite_self, hturn i, if_pos hi, if_pos (by simp [hi])]
      · have hsame : files₁ i = files i := by rw [hturn i, if_neg hi]
        simp [kept, hsame, hi]
    refine wp_bind (wp_bind (wp_look ?_ h h))
    rcases hfile : files index with _ | file
    · refine wp_pure (hgo files h fun i => ?_)
      split_ifs with hi
      · rw [hi, kept_of_none hfile]
      · rfl
    refine wp_bind (wp_require (fun _ => wp_when (fun hlt => ?_) fun hle => ?_) fun _ => h)
    · refine wp_bind (wp_require (fun _ => wp_act (hgo _ ?_ fun i => ?_) h h) fun _ => h)
      · exact h.unlink (hindices index mem_cons_self)
      split_ifs with hi
      · rw [hi, kept_of_lt hfile hlt, unlink, update_self]
      · exact update_of_ne hi _ _
    · refine hgo files h fun i => ?_
      split_ifs with hi
      · rw [hi, kept_of_le hfile (not_lt.mp hle)]
      · rfl

/-- What the condition on the files that are found says: the older ones are full, up to one behind
which there are none or empty ones. -/
def Full (limit rotations : ℕ) (files : Files) : Prop :=
  ∃ k ≤ rotations, (∀ i, 0 < i → i ≤ k → (textOf files i).length = limit) ∧
    ∀ i, k < i → i ≤ rotations → textOf files i = []

lemma length_textOf_kept (files : Files) (i : ℕ) :
    (textOf (kept limit files) i).length ≤ limit := by
  rcases hi : files i with _ | file
  · simp [textOf, kept, hi]
  rcases Nat.lt_or_ge limit file.bytes.length with hlt | hle
  · rw [textOf_of_none (kept_of_lt hi hlt)]
    exact Nat.zero_le _
  · rw [textOf_of_some ((kept_of_le hi hle).trans hi)]
    exact hle

/-- **A sink that has been set up** has left what was found and is not too long. -/
lemma wp_initializeSink (limit rotations : ℕ) (found : Files) :
    wp (do validateFiles limit rotations true; openLog limit : Prog Files ℕ)
      (Ready limit rotations (Full limit rotations (kept limit found)) found
        (content rotations (kept limit found)))
      (Thinned limit rotations found) (Thinned limit rotations found) found := by
  have hstart : Thinned limit rotations found found := ⟨fun _ _ => rfl, fun _ _ => .inr⟩
  refine wp_bind (wp_bind (wp_tick (wp_mono (wp_trimNames _ (fun i hi => ?_) hstart) ?_
    (fun _ h => h) fun _ h => h) hstart hstart))
  · exact Nat.lt_succ_iff.mp (List.mem_range.mp hi)
  rintro _ files ⟨hthin, hall⟩
  have htext : ∀ i ≤ rotations, textOf (create files) i = textOf (kept limit found) i := by
    intro i hi
    rw [textOf_create, textOf, hall i, if_pos (List.mem_range.mpr (by omega)), textOf]
  have hcontent : content rotations (create files) = content rotations (kept limit found) :=
    joined_congr fun i hi => htext i (by omega)
  refine wp_openLog (fun file h0 _ => ⟨⟨hthin.create.others, fun i hi => ?_, ?_⟩, ⟨file, h0, rfl⟩,
    ?_⟩) hthin hthin hthin.create hthin.create
  · rw [htext i hi]
    exact length_textOf_kept found i
  · rw [hcontent]
  rintro ⟨k, hk, hfull, hempty⟩
  refine ⟨k, hk, fun i hpos hi => ?_, fun i hi hle => ?_, .inr hcontent⟩
  · rw [htext i (by omega)]
    exact hfull i hpos hi
  · rw [htext i hle]
    exact hempty i hi hle

/-! ### Whole runs -/

/-- What holds of a sink that had been set up, when it has been given some bytes. -/
structure Retained (limit rotations : ℕ) (P : Prop) (found : Files) (all given : Bytes)
    (sink : Sink) : Prop where
  cut : Cut limit rotations found all given sink.files
  ready : ∀ used, sink.used = some used →
    Ready limit rotations P found (all ++ given) used sink.files

lemma leave_of_ends {r : Outcome ℕ × Files × List Reply}
    (h : Ends (Ready limit rotations P found (all ++ given)) (Cut limit rotations found all given)
      (Cut limit rotations found all given) r) :
    Retained limit rotations P found all given (leave r) := by
  rcases r with ⟨used | _ | _, files, replies⟩
  · refine ⟨⟨given, prefix_rfl, h.toKept⟩, ?_⟩
    rintro _ ⟨⟩
    exact h
  · exact ⟨h, by rintro _ ⟨⟩⟩
  · exact ⟨h, by rintro _ ⟨⟩⟩

lemma Retained.collect (h : Retained limit rotations P found all given sink) (call : Call) :
    Retained limit rotations P found all (given ++ call.data)
      (Log.collect limit rotations sink call) := by
  rcases hused : sink.used with _ | used
  · obtain ⟨written, hprefix, hkept⟩ := h.cut
    rw [Log.collect, hused]
    exact ⟨⟨written, hprefix.trans (prefix_append _ _), hkept⟩, by simp [hused]⟩
  have hready := h.ready used hused
  rw [Log.collect, hused]
  refine leave_of_ends ?_
  have hblock : wp (collectBlock limit rotations call.writes used call.data)
      (Ready limit rotations P found (all ++ given ++ call.data))
      (Cut limit rotations found (all ++ given) call.data)
      (Cut limit rotations found (all ++ given) call.data) sink.files :=
    wp_collectBlock call.writes hready
  rw [← append_assoc]
  have hcut : ∀ files, Cut limit rotations found (all ++ given) call.data files →
      Cut limit rotations found all (given ++ call.data) files := by
    rintro files ⟨written, hprefix, hkept⟩
    exact ⟨given ++ written, (prefix_append_right_inj given).mpr hprefix,
      by rwa [← append_assoc]⟩
  exact (hblock call.replies).mono (fun _ _ h => h) hcut hcut

lemma Retained.collects (h : Retained limit rotations P found all given sink) (calls : List Call) :
    Retained limit rotations P found all (given ++ calls.flatMap Call.data)
      (Log.collects limit rotations sink calls) := by
  induction calls generalizing sink given with
  | nil => simpa [Log.collects] using h
  | cons call calls ih =>
    have hrest := ih (h.collect call)
    rwa [append_assoc] at hrest

lemma collects_of_disabled (h : sink.used = none) (calls : List Call) :
    collects limit rotations sink calls = sink := by
  induction calls with
  | nil => rfl
  | cons call calls ih =>
    have hsame : collect limit rotations sink call = sink := by rw [collect, h]
    rw [collects, foldl_cons, hsame]
    exact ih

lemma length_of_kept (h : Kept limit rotations found all files)
    (hi : i ≤ rotations) (hfile : files i = some file) : file.bytes.length ≤ limit := by
  have hwithin := h.within i hi
  rwa [textOf_of_some hfile] at hwithin

lemma initializeSink_cases (limit rotations : ℕ) (found : Files) (replies : List Reply) :
    ((initializeSink limit rotations found replies).used = none ∧
      Thinned limit rotations found (initializeSink limit rotations found replies).files) ∨
    Retained limit rotations (Full limit rotations (kept limit found)) found
      (content rotations (kept limit found)) [] (initializeSink limit rotations found replies) := by
  have hends := wp_initializeSink limit rotations found replies
  unfold initializeSink
  revert hends
  generalize (do validateFiles limit rotations true; openLog limit : Prog Files ℕ) replies found = r
  rcases r with ⟨used | _ | _, files, rest⟩
  · intro h
    have hready : Ready limit rotations (Full limit rotations (kept limit found)) found
        (content rotations (kept limit found) ++ []) used files := by
      rw [append_nil]
      exact h
    refine .inr ⟨⟨[], nil_prefix, hready.toKept⟩, ?_⟩
    rintro _ ⟨⟩
    exact hready
  · exact fun h => .inl ⟨rfl, h⟩
  · exact fun h => .inl ⟨rfl, h⟩

/-- **The log keeps an end of what it was given.** From any files, with any failure of a file
operation while the sink is set up and while it is given blocks, and with the process dying at any
of them, so that every moment in between is one where a run ends:

files with numbers above the rotations are never touched; no log file is longer than the limit,
except one that was found so and that the sink, which then was never enabled, did not remove; the
files are an end of what was found, without the files that were too long, followed by bytes that
were given, and while the sink is enabled by all of them; if the older files that were found were
full, without a gap between them, and the sink is enabled, at least the rotations are kept full;
and a sink that is disabled writes nothing more. -/
theorem log_retention (limit rotations : ℕ) (found : Files) (replies : List Reply)
    (calls : List Call) :
    let start := initializeSink limit rotations found replies
    let sink := collects limit rotations start calls
    let given := calls.flatMap Call.data
    let before := content rotations (kept limit found)
    (∀ i, rotations < i → sink.files i = found i) ∧
    (∀ i file, i ≤ rotations → sink.files i = some file →
      file.bytes.length ≤ limit ∨ start.used = none ∧ found i = some file) ∧
    (start.used ≠ none →
      ∃ written, written <+: given ∧ content rotations sink.files <:+ before ++ written) ∧
    (sink.used ≠ none → content rotations sink.files <:+ before ++ given) ∧
    (sink.used ≠ none → Full limit rotations (kept limit found) →
      min (before ++ given).length (rotations * limit) ≤ (content rotations sink.files).length) ∧
    (sink.used = none → ∀ more, collects limit rotations sink more = sink) := by
  intro start sink given before
  rcases initializeSink_cases limit rotations found replies with ⟨hnone, hthin⟩ | hstart
  · have hsame : sink = start := collects_of_disabled hnone calls
    have hused : sink.used = none := by rw [hsame]; exact hnone
    refine ⟨?_, ?_, fun h => absurd hnone h, fun h => absurd hused h, fun h => absurd hused h,
      collects_of_disabled⟩
    · rw [hsame]
      exact hthin.others
    · rw [hsame]
      exact fun i file _ hfile => (hthin.within i file hfile).imp_right fun h => ⟨hnone, h⟩
  · have hsink : Retained limit rotations (Full limit rotations (kept limit found)) found before
        given sink := hstart.collects calls
    obtain ⟨written, hprefix, hkept⟩ := hsink.cut
    refine ⟨hkept.others, fun i file hi hfile => .inl (length_of_kept hkept hi hfile),
      fun _ => ⟨written, hprefix, hkept.tail⟩, fun h => ?_, fun h hfull => ?_,
      collects_of_disabled⟩
    · obtain ⟨used, hused⟩ := Option.ne_none_iff_exists'.mp h
      exact (hsink.ready used hused).tail
    · obtain ⟨used, hused⟩ := Option.ne_none_iff_exists'.mp h
      obtain ⟨k, hchain⟩ := (hsink.ready used hused).chain hfull
      exact hchain.length_le

/-- Files found under a smaller limit than the one they were written with: with one byte for each
file, the middle one is too long. -/
def longFiles : Files
  | 0 => some ⟨true, [3]⟩
  | 1 => some ⟨true, [2, 2]⟩
  | 2 => some ⟨true, [1]⟩
  | _ => none

def gapFiles : Files
  | 0 => some ⟨true, [2, 2]⟩
  | 2 => some ⟨true, [1, 1]⟩
  | _ => none

/-- A file that is found too long stays too long where it cannot be removed, and where it is
removed, what is left is no end of what was found, though the sink is enabled. A file found under a
number above the rotations is one file more. And full files that are found with a gap between them
come to less than the rotations could keep. -/
theorem log_retention_found :
    (initializeSink 1 2 longFiles [.ok, .ok, .ok, .fail]).files 1 = some ⟨true, [2, 2]⟩ ∧
      (initializeSink 1 2 longFiles []).used = some 1 ∧
      ¬content 2 (initializeSink 1 2 longFiles []).files <:+ content 2 longFiles ∧
      (initializeSink 1 0 longFiles []).used = some 1 ∧
      ((initializeSink 1 0 longFiles []).files 2).isSome ∧
      (collect 2 2 (initializeSink 2 2 gapFiles []) ⟨[3], [.took 0], []⟩).used = some 1 ∧
      ¬min (content 2 gapFiles ++ [3]).length (2 * 2) ≤
        (content 2 (collect 2 2 (initializeSink 2 2 gapFiles []) ⟨[3], [.took 0], []⟩).files).length
      := by
  decide

end C1auncher.Update.LogRetention
