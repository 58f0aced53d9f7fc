import C1auncher.Package.Version

/-!
The list of what can be downloaded: the packages of the index merged with what is installed.
-/

namespace C1auncher.Package.DownloadList

open CString Package.Version List
open Std (TransCmp OrientedCmp LawfulEqCmp)

def strcmp : Text → Text → Ordering := List.compareLex compare

/-- `C1PKG_MAX_PACKAGES` -/
def maxPackages : ℕ := 128

/-- `C1PKG_MAX_DOWNLOAD_ITEMS` -/
def maxDownloadItems : ℕ := maxPackages * 2

/-- `C1PKG_PACKAGE_NONE` -/
def packageNone : ℕ := maxPackages

structure Package where
  id : Text
  version : Text
  name : Text
  author : Text
  deriving DecidableEq

structure Installed where
  id : Text
  version : Text
  deriving DecidableEq

inductive Status
  | notInstalled
  | current
  | updateAvailable
  | installedNewer
  | versionUnknown
  | removed
  deriving DecidableEq

structure Item where
  id : Text
  name : Text
  author : Text
  installedVersion : Text
  availableVersion : Text
  packageIndex : ℕ
  status : Status
  deriving DecidableEq

def installedStatus (installed available : Text) : Status :=
  if strcmp installed available = .eq then .current
  else
    match versionCompare available installed with
    | none => .versionUnknown
    | some .eq => .current
    | some .gt => .updateAvailable
    | some .lt => .installedNewer

/-- `add_repository_item` -/
def repositoryItem (package : Package) (packageIndex : ℕ) (installed : Option Installed) :
    Item where
  id := package.id
  name := package.name
  author := if package.author ≠ [] then package.author else "Unknown".toList
  installedVersion := (installed.map Installed.version).getD []
  availableVersion := package.version
  packageIndex := packageIndex
  status :=
    match installed with
    | none => .notInstalled
    | some i => installedStatus i.version package.version

/-- `add_removed_item` -/
def removedItem (installed : Installed) : Item where
  id := installed.id
  name := installed.id
  author := "Unknown".toList
  installedVersion := installed.version
  availableVersion := []
  packageIndex := packageNone
  status := .removed

/-- The loop, from two cursors on; `none` when the list is full. -/
def buildFrom (packageIndex count : ℕ) : List Package → List Installed → Option (List Item)
  | [], [] => some []
  | [], i :: installed =>
    if maxDownloadItems ≤ count then none
    else (buildFrom packageIndex (count + 1) [] installed).map (removedItem i :: ·)
  | p :: packages, [] =>
    if maxDownloadItems ≤ count then none
    else (buildFrom (packageIndex + 1) (count + 1) packages []).map
      (repositoryItem p packageIndex none :: ·)
  | p :: packages, i :: installed =>
    if maxDownloadItems ≤ count then none
    else
      match strcmp p.id i.id with
      | .lt => (buildFrom (packageIndex + 1) (count + 1) packages (i :: installed)).map
          (repositoryItem p packageIndex none :: ·)
      | .gt => (buildFrom packageIndex (count + 1) (p :: packages) installed).map
          (removedItem i :: ·)
      | .eq => (buildFrom (packageIndex + 1) (count + 1) packages installed).map
          (repositoryItem p packageIndex (some i) :: ·)
  termination_by packages installed => packages.length + installed.length

def downloadListBuild (index : List Package) (installed : List Installed) : Option (List Item) :=
  buildFrom 0 0 index installed

/-! ### Names in order -/

instance : TransCmp strcmp := inferInstanceAs (TransCmp (List.compareLex compare))

instance : LawfulEqCmp strcmp := inferInstanceAs (LawfulEqCmp (List.compareLex compare))

def Increasing (ids : List Text) : Prop := ids.Pairwise fun a b => strcmp a b = .lt

instance (ids : List Text) : Decidable (Increasing ids) :=
  inferInstanceAs (Decidable (ids.Pairwise _))

lemma lt_trans_strcmp {a b c : Text} (h : strcmp a b = .lt) (h' : strcmp b c = .lt) :
    strcmp a c = .lt := TransCmp.lt_trans h h'

lemma ne_of_lt_strcmp {a b : Text} (h : strcmp a b = .lt) : a ≠ b := by
  rintro rfl
  have hrefl : strcmp a a = .eq := Std.ReflCmp.compare_self
  rw [hrefl] at h
  cases h

/-! ### The merge -/

/-- The item of a name in the index from a cursor on, or installed, or both. -/
inductive Listed (packageIndex : ℕ) (packages : List Package) (installed : List Installed) :
    Item → Prop
  | repository (k : ℕ) (p : Package) (hp : packages[k]? = some p)
      (hi : ∀ i ∈ installed, i.id ≠ p.id) :
      Listed packageIndex packages installed (repositoryItem p (packageIndex + k) none)
  | both (k : ℕ) (p : Package) (i : Installed) (hp : packages[k]? = some p) (hi : i ∈ installed)
      (hid : i.id = p.id) :
      Listed packageIndex packages installed (repositoryItem p (packageIndex + k) (some i))
  | removed (i : Installed) (hi : i ∈ installed) (hp : ∀ p ∈ packages, p.id ≠ i.id) :
      Listed packageIndex packages installed (removedItem i)

structure Merges (packageIndex : ℕ) (packages : List Package) (installed : List Installed)
    (items : List Item) : Prop where
  increasing : Increasing (items.map Item.id)
  ids : ∀ id, id ∈ items.map Item.id ↔
    id ∈ packages.map Package.id ∨ id ∈ installed.map Installed.id
  listed : ∀ item ∈ items, Listed packageIndex packages installed item

section Merges

variable {packageIndex count : ℕ} {packages : List Package} {installed : List Installed}
  {items : List Item} {p : Package} {i : Installed}

lemma Merges.nil (packageIndex : ℕ) : Merges packageIndex [] [] [] :=
  ⟨Pairwise.nil, fun id => by simp, fun item h => (by cases h)⟩

lemma listed_cons_package {item : Item} (h : Listed (packageIndex + 1) packages installed item)
    (hne : p.id ≠ item.id) : Listed packageIndex (p :: packages) installed item := by
  cases h with
  | repository k q hq hi =>
    rw [show packageIndex + 1 + k = packageIndex + (k + 1) by omega]
    exact .repository (k + 1) q hq hi
  | both k q i hq hi hid =>
    rw [show packageIndex + 1 + k = packageIndex + (k + 1) by omega]
    exact .both (k + 1) q i hq hi hid
  | removed i hi hp =>
    refine .removed i hi fun q hq => ?_
    rcases List.mem_cons.mp hq with rfl | hq
    · exact hne
    · exact hp q hq

lemma listed_cons_installed {item : Item} (h : Listed packageIndex packages installed item)
    (hne : i.id ≠ item.id) : Listed packageIndex packages (i :: installed) item := by
  cases h with
  | repository k q hq hi =>
    refine .repository k q hq fun j hj => ?_
    rcases List.mem_cons.mp hj with rfl | hj
    · exact hne
    · exact hi j hj
  | both k q j hq hj hid => exact .both k q j hq (mem_cons_of_mem _ hj) hid
  | removed j hj hp => exact .removed j (mem_cons_of_mem _ hj) hp

lemma Merges.lt_items (h : Merges packageIndex packages installed items) {id : Text}
    (hp : ∀ p ∈ packages, strcmp id p.id = .lt) (hi : ∀ i ∈ installed, strcmp id i.id = .lt)
    (item : Item) (hitem : item ∈ items) : strcmp id item.id = .lt := by
  rcases (h.ids item.id).mp (mem_map_of_mem hitem) with hmem | hmem
  · obtain ⟨p, hmem, heq⟩ := mem_map.mp hmem
    rw [← heq]
    exact hp p hmem
  obtain ⟨i, hmem, heq⟩ := mem_map.mp hmem
  rw [← heq]
  exact hi i hmem

lemma Merges.increasing_cons (h : Merges packageIndex packages installed items) {item : Item}
    (hlt : ∀ next ∈ items, strcmp item.id next.id = .lt) :
    Increasing ((item :: items).map Item.id) := by
  refine List.pairwise_cons.mpr ⟨fun id hid => ?_, h.increasing⟩
  obtain ⟨next, hnext, rfl⟩ := mem_map.mp hid
  exact hlt next hnext

lemma Merges.package (h : Merges (packageIndex + 1) packages installed items)
    (hp : ∀ q ∈ packages, strcmp p.id q.id = .lt)
    (hi : ∀ i ∈ installed, strcmp p.id i.id = .lt) :
    Merges packageIndex (p :: packages) installed
      (repositoryItem p packageIndex none :: items) := by
  have hlt := h.lt_items hp hi
  refine ⟨h.increasing_cons hlt, fun id => ?_, fun item hitem => ?_⟩
  · rw [map_cons, mem_cons, h.ids, map_cons, mem_cons, or_assoc]
    rfl
  rcases List.mem_cons.mp hitem with rfl | hitem
  · exact .repository 0 p rfl fun i hmem => (ne_of_lt_strcmp (hi i hmem)).symm
  · exact listed_cons_package (h.listed item hitem) (ne_of_lt_strcmp (hlt item hitem))

lemma Merges.removed (h : Merges packageIndex packages installed items)
    (hp : ∀ q ∈ packages, strcmp i.id q.id = .lt)
    (hi : ∀ j ∈ installed, strcmp i.id j.id = .lt) :
    Merges packageIndex packages (i :: installed) (removedItem i :: items) := by
  have hlt := h.lt_items hp hi
  refine ⟨h.increasing_cons hlt, fun id => ?_, fun item hitem => ?_⟩
  · rw [map_cons, mem_cons, h.ids, map_cons, mem_cons, or_left_comm]
    rfl
  rcases List.mem_cons.mp hitem with rfl | hitem
  · exact .removed i mem_cons_self fun q hq => (ne_of_lt_strcmp (hp q hq)).symm
  · exact listed_cons_installed (h.listed item hitem) (ne_of_lt_strcmp (hlt item hitem))

lemma Merges.both (h : Merges (packageIndex + 1) packages installed items) (hid : p.id = i.id)
    (hp : ∀ q ∈ packages, strcmp p.id q.id = .lt)
    (hi : ∀ j ∈ installed, strcmp i.id j.id = .lt) :
    Merges packageIndex (p :: packages) (i :: installed)
      (repositoryItem p packageIndex (some i) :: items) := by
  have hlt := h.lt_items hp (hid ▸ hi)
  refine ⟨h.increasing_cons hlt, fun id => ?_, fun item hitem => ?_⟩
  · rw [map_cons, mem_cons, h.ids, map_cons, mem_cons, map_cons, mem_cons, ← hid]
    show id = p.id ∨ _ ↔ _
    tauto
  rcases List.mem_cons.mp hitem with rfl | hitem
  · exact .both 0 p i rfl mem_cons_self hid.symm
  · have hne := ne_of_lt_strcmp (hlt item hitem)
    exact listed_cons_installed (listed_cons_package (h.listed item hitem) hne) (hid ▸ hne)

/-- **The loop merges what is left.** -/
theorem buildFrom_merges (hp : Increasing (packages.map Package.id))
    (hi : Increasing (installed.map Installed.id))
    (hcount : count + packages.length + installed.length ≤ maxDownloadItems) :
    ∃ items, buildFrom packageIndex count packages installed = some items ∧
      Merges packageIndex packages installed items := by
  induction packageIndex, count, packages, installed using buildFrom.induct with
  | case1 packageIndex count => exact ⟨[], by rw [buildFrom], Merges.nil packageIndex⟩
  | case2 packageIndex count i installed hfull =>
    simp only [length_nil, length_cons] at hcount
    omega
  | case3 packageIndex count i installed hfull ih =>
    have hcons := List.pairwise_cons.mp hi
    have hlt : ∀ j ∈ installed, strcmp i.id j.id = .lt := fun j hj =>
      hcons.1 _ (mem_map_of_mem hj)
    obtain ⟨items, hitems, hmerges⟩ := ih hp hcons.2 (by simp at hcount ⊢; omega)
    refine ⟨_, ?_, hmerges.removed (fun q hq => by cases hq) hlt⟩
    rw [buildFrom, if_neg hfull, hitems]
    rfl
  | case4 packageIndex count p packages hfull =>
    simp only [length_nil, length_cons] at hcount
    omega
  | case5 packageIndex count p packages hfull ih =>
    have hcons := List.pairwise_cons.mp hp
    have hlt : ∀ q ∈ packages, strcmp p.id q.id = .lt := fun q hq =>
      hcons.1 _ (mem_map_of_mem hq)
    obtain ⟨items, hitems, hmerges⟩ := ih hcons.2 hi (by simp at hcount ⊢; omega)
    refine ⟨_, ?_, hmerges.package hlt fun j hj => (by cases hj)⟩
    rw [buildFrom, if_neg hfull, hitems]
    rfl
  | case6 packageIndex count p packages i installed hfull =>
    simp only [length_cons] at hcount
    omega
  | case7 packageIndex count p packages i installed hfull horder ih =>
    have hcons := List.pairwise_cons.mp hp
    have hcons' := List.pairwise_cons.mp hi
    have hlt : ∀ q ∈ packages, strcmp p.id q.id = .lt := fun q hq =>
      hcons.1 _ (mem_map_of_mem hq)
    have hlt' : ∀ j ∈ i :: installed, strcmp p.id j.id = .lt := by
      intro j hj
      rcases List.mem_cons.mp hj with rfl | hj
      · exact horder
      · exact lt_trans_strcmp horder (hcons'.1 _ (mem_map_of_mem hj))
    obtain ⟨items, hitems, hmerges⟩ := ih hcons.2 hi (by simp at hcount ⊢; omega)
    refine ⟨_, ?_, hmerges.package hlt hlt'⟩
    rw [buildFrom, if_neg hfull, horder, hitems]
    rfl
  | case8 packageIndex count p packages i installed hfull horder ih =>
    have hcons := List.pairwise_cons.mp hp
    have hcons' := List.pairwise_cons.mp hi
    have horder' : strcmp i.id p.id = .lt := OrientedCmp.gt_iff_lt.mp horder
    have hlt : ∀ q ∈ p :: packages, strcmp i.id q.id = .lt := by
      intro q hq
      rcases List.mem_cons.mp hq with rfl | hq
      · exact horder'
      · exact lt_trans_strcmp horder' (hcons.1 _ (mem_map_of_mem hq))
    have hlt' : ∀ j ∈ installed, strcmp i.id j.id = .lt := fun j hj =>
      hcons'.1 _ (mem_map_of_mem hj)
    obtain ⟨items, hitems, hmerges⟩ := ih hp hcons'.2 (by simp at hcount ⊢; omega)
    refine ⟨_, ?_, hmerges.removed hlt hlt'⟩
    rw [buildFrom, if_neg hfull, horder, hitems]
    rfl
  | case9 packageIndex count p packages i installed hfull horder ih =>
    have hcons := List.pairwise_cons.mp hp
    have hcons' := List.pairwise_cons.mp hi
    have hlt : ∀ q ∈ packages, strcmp p.id q.id = .lt := fun q hq =>
      hcons.1 _ (mem_map_of_mem hq)
    have hlt' : ∀ j ∈ installed, strcmp i.id j.id = .lt := fun j hj =>
      hcons'.1 _ (mem_map_of_mem hj)
    obtain ⟨items, hitems, hmerges⟩ := ih hcons.2 hcons'.2 (by simp at hcount ⊢; omega)
    refine ⟨_, ?_, hmerges.both (LawfulEqCmp.eq_of_compare horder) hlt hlt'⟩
    rw [buildFrom, if_neg hfull, horder, hitems]
    rfl

end Merges

/-! ### What the list says -/

lemma Increasing.index_eq {packages : List Package} (h : Increasing (packages.map Package.id))
    {k k' : ℕ} {p p' : Package} (hk : packages[k]? = some p) (hk' : packages[k']? = some p')
    (hid : p.id = p'.id) : k = k' := by
  have hmono : ∀ {a b : ℕ} {x y : Package}, packages[a]? = some x → packages[b]? = some y →
      a < b → strcmp x.id y.id = .lt := by
    intro a b x y ha hb hab
    obtain ⟨halt, rfl⟩ := List.getElem?_eq_some_iff.mp ha
    obtain ⟨hblt, rfl⟩ := List.getElem?_eq_some_iff.mp hb
    have hpair := List.pairwise_iff_getElem.mp h a b (by simpa using halt) (by simpa using hblt) hab
    simpa using hpair
  rcases lt_trichotomy k k' with hlt | heq | hlt
  · exact absurd hid (ne_of_lt_strcmp (hmono hk hk' hlt))
  · exact heq
  · exact absurd hid.symm (ne_of_lt_strcmp (hmono hk' hk hlt))

lemma Increasing.installed_eq {installed : List Installed}
    (h : Increasing (installed.map Installed.id)) {i j : Installed} (hi : i ∈ installed)
    (hj : j ∈ installed) (hid : i.id = j.id) : i = j :=
  inj_on_of_nodup_map (h.imp ne_of_lt_strcmp) hi hj hid

/-- **The status and the decision agree** for versions that are not empty. -/
theorem installedStatus_decision {installed available : Text} (hi : installed ≠ [])
    (ha : available ≠ []) :
    (installedStatus installed available = .updateAvailable ↔
      installDecision installed available = 1) ∧
    (installedStatus installed available = .current ↔ installDecision installed available = 0) ∧
    (installedStatus installed available = .installedNewer ∨
      installedStatus installed available = .versionUnknown ↔
        installDecision installed available = -1) := by
  have hsame : strcmp installed available = .eq ↔ installed = available :=
    LawfulEqCmp.compare_eq_iff_eq
  unfold installedStatus installDecision
  rw [if_neg ha, if_neg hi]
  by_cases heq : installed = available
  · rw [if_pos (hsame.mpr heq), if_pos heq]
    decide
  · rw [if_neg (fun h => heq (hsame.mp h)), if_neg heq]
    rcases versionCompare available installed with _ | _ | _ | _ <;> decide

lemma installedStatus_ne (installed available : Text) :
    installedStatus installed available ≠ .removed ∧
      installedStatus installed available ≠ .notInstalled := by
  unfold installedStatus
  split_ifs
  · decide
  · split <;> decide

/-- What an item says about its name. -/
structure Describes (index : List Package) (installed : List Installed) (item : Item) : Prop where
  package : ∀ k p, index[k]? = some p → p.id = item.id →
    item.packageIndex = k ∧ item.availableVersion = p.version ∧ item.name = p.name
  noPackage : item.id ∉ index.map Package.id → item.packageIndex = packageNone
  version : ∀ i ∈ installed, i.id = item.id → item.installedVersion = i.version
  removed : item.status = .removed ↔ item.id ∉ index.map Package.id
  notInstalled : item.status = .notInstalled ↔ item.id ∉ installed.map Installed.id
  decided : ∀ p ∈ index, ∀ i ∈ installed, p.id = item.id → i.id = item.id →
    (item.status = .updateAvailable ↔ installDecision i.version p.version = 1) ∧
    (item.status = .current ↔ installDecision i.version p.version = 0) ∧
    (item.status = .installedNewer ∨ item.status = .versionUnknown ↔
      installDecision i.version p.version = -1)

section Describes

variable {index : List Package} {installed : List Installed}

lemma describes_repository (hindex : Increasing (index.map Package.id)) {k : ℕ} {p : Package}
    (hp : index[k]? = some p) (hi : ∀ i ∈ installed, i.id ≠ p.id) :
    Describes index installed (repositoryItem p k none) := by
  have hmem : p.id ∈ index.map Package.id := mem_map_of_mem (mem_of_getElem? hp)
  have hout : p.id ∉ installed.map Installed.id := by
    intro hin
    obtain ⟨i, hmem, heq⟩ := mem_map.mp hin
    exact hi i hmem heq
  refine ⟨fun k' q hq hid => ?_, fun hno => absurd hmem hno, fun i hmem heq =>
    absurd heq (hi i hmem), ?_, ?_, fun q _ i hmem _ heq => absurd heq (hi i hmem)⟩
  · obtain rfl := hindex.index_eq hq hp hid
    rw [hp] at hq
    cases hq
    exact ⟨rfl, rfl, rfl⟩
  · exact iff_of_false (fun h => by cases h) fun hno => hno hmem
  · exact iff_of_true rfl hout

lemma describes_both (hindex : Increasing (index.map Package.id))
    (hinstalled : Increasing (installed.map Installed.id))
    (hversions : ∀ p ∈ index, p.version ≠ []) (hversions' : ∀ i ∈ installed, i.version ≠ [])
    {k : ℕ} {p : Package} {i : Installed} (hp : index[k]? = some p) (hi : i ∈ installed)
    (hid : i.id = p.id) : Describes index installed (repositoryItem p k (some i)) := by
  have hp' := mem_of_getElem? hp
  have hmem : p.id ∈ index.map Package.id := mem_map_of_mem hp'
  have hmem' : p.id ∈ installed.map Installed.id := hid ▸ mem_map_of_mem hi
  have hstatus := installedStatus_ne i.version p.version
  refine ⟨fun k' q hq heq => ?_, fun hno => absurd hmem hno, fun j hj heq => ?_, ?_, ?_,
    fun q hq j hj heq heq' => ?_⟩
  · obtain rfl := hindex.index_eq hq hp heq
    rw [hp] at hq
    cases hq
    exact ⟨rfl, rfl, rfl⟩
  · rw [hinstalled.installed_eq hj hi (heq.trans hid.symm)]
    rfl
  · exact iff_of_false hstatus.1 fun hno => hno hmem
  · exact iff_of_false hstatus.2 fun hno => hno hmem'
  obtain ⟨k', hk'⟩ := getElem?_of_mem hq
  obtain rfl := hindex.index_eq hk' hp heq
  rw [hp] at hk'
  cases hk'
  rw [hinstalled.installed_eq hj hi (heq'.trans hid.symm)]
  exact installedStatus_decision (hversions' i hi) (hversions p hq)

lemma describes_removed (hinstalled : Increasing (installed.map Installed.id)) {i : Installed}
    (hi : i ∈ installed) (hp : ∀ p ∈ index, p.id ≠ i.id) :
    Describes index installed (removedItem i) := by
  have hmem : i.id ∈ installed.map Installed.id := mem_map_of_mem hi
  have hout : i.id ∉ index.map Package.id := by
    intro hin
    obtain ⟨p, hmem, heq⟩ := mem_map.mp hin
    exact hp p hmem heq
  refine ⟨fun k p hk heq => absurd heq (hp p (mem_of_getElem? hk)), fun _ => rfl,
    fun j hj heq => ?_, iff_of_true rfl hout, ?_, fun p hmem _ _ heq _ => absurd heq (hp p hmem)⟩
  · rw [hinstalled.installed_eq hj hi heq]
    rfl
  · exact iff_of_false (fun h => by cases h) fun hno => hno hmem

end Describes

/-- **The list is the merge** of the index and of what is installed: every name once and in order,
with its own package, version and status. -/
theorem download_list_merge {index : List Package} {installed : List Installed}
    (hindex : Increasing (index.map Package.id))
    (hinstalled : Increasing (installed.map Installed.id)) (hcount : index.length ≤ maxPackages)
    (hcount' : installed.length ≤ maxPackages) (hversions : ∀ p ∈ index, p.version ≠ [])
    (hversions' : ∀ i ∈ installed, i.version ≠ []) :
    ∃ items, downloadListBuild index installed = some items ∧ Increasing (items.map Item.id) ∧
      (∀ id, id ∈ items.map Item.id ↔
        id ∈ index.map Package.id ∨ id ∈ installed.map Installed.id) ∧
      ∀ item ∈ items, Describes index installed item := by
  have hroom : 0 + index.length + installed.length ≤ maxDownloadItems := by
    unfold maxDownloadItems
    omega
  obtain ⟨items, hitems, hmerges⟩ := buildFrom_merges hindex hinstalled hroom
  refine ⟨items, hitems, hmerges.increasing, hmerges.ids, fun item hitem => ?_⟩
  cases hmerges.listed item hitem with
  | repository k p hp hi =>
    rw [Nat.zero_add]
    exact describes_repository hindex hp hi
  | both k p i hp hi hid =>
    rw [Nat.zero_add]
    exact describes_both hindex hinstalled hversions hversions' hp hi hid
  | removed i hi hp => exact describes_removed hinstalled hi hp

def editor : Package := ⟨"editor".toList, "1.2".toList, "Editor".toList, []⟩

def reader : Installed := ⟨"reader".toList, "0.9".toList⟩

/-- A package that can be updated, and one that is gone from the index. -/
theorem download_list_merge_update : ∃ items, downloadListBuild [editor]
    [⟨"editor".toList, "1.1".toList⟩, reader] = some items ∧
      items.map Item.status = [.updateAvailable, .removed] := by
  have hindex : Increasing ([editor].map Package.id) := by decide
  have hinstalled : Increasing
      ([⟨"editor".toList, "1.1".toList⟩, reader].map Installed.id) := by decide
  obtain ⟨items, hitems, -⟩ := download_list_merge hindex hinstalled (by decide) (by decide)
    (by decide) (by decide)
  refine ⟨items, hitems, ?_⟩
  have hlist : (downloadListBuild [editor] [⟨"editor".toList, "1.1".toList⟩, reader]).map
      (map Item.status) = some [.updateAvailable, .removed] := by decide +kernel
  rw [hitems] at hlist
  exact Option.some.inj hlist

/-- An empty version that is installed: the status is unknown, the decision is to install. -/
theorem download_list_merge_fails : ¬∀ (index : List Package) (installed : List Installed),
    Increasing (index.map Package.id) → Increasing (installed.map Installed.id) →
    index.length ≤ maxPackages → installed.length ≤ maxPackages →
    ∃ items, downloadListBuild index installed = some items ∧
      ∀ item ∈ items, Describes index installed item := by
  intro h
  obtain ⟨items, hitems, hall⟩ := h [editor] [⟨"editor".toList, []⟩] (pairwise_singleton _ _)
    (pairwise_singleton _ _) (by decide) (by decide)
  have hlist : downloadListBuild [editor] [⟨"editor".toList, []⟩] =
      some [repositoryItem editor 0 (some ⟨"editor".toList, []⟩)] := by decide +kernel
  rw [hlist] at hitems
  cases hitems
  have hdecided := (hall _ mem_cons_self).decided editor mem_cons_self
    ⟨"editor".toList, []⟩ mem_cons_self rfl rfl
  exact absurd (hdecided.1.mpr (by decide)) (by decide)

end C1auncher.Package.DownloadList
