import C1auncher.Package.Store

/-!
Recovery of the package store: what the journal stands for.

A sound disk has intact directories behind its links, and a journal whose payload has not
been moved yet or is in place. Recovery takes it to `settle d`, a function of the disk, and
each of its steps leaves the settled disk as it is. What an interrupted operation has done
is what the settled disk shows.
-/

namespace C1auncher.Package.Recovery

open Durable Durable.Prog CString Package.Version Function Returns Option
open Package.Store

/-! ### The catalogue -/

/-- The two links of an application with the directories they name. -/
structure Shelf where
  current : Option (Text × Option Directory)
  previous : Option (Text × Option Directory)

/-- What the store is for: the shelf of each application. -/
abbrev Catalogue := Text → Shelf

def named (d : Disk) (id : Text) (target : Option Text) : Option (Text × Option Directory) :=
  target.map fun text => (text, d.version id (text.drop versionsPrefix.length))

def catalogue (d : Disk) : Catalogue := fun id =>
  ⟨named d id (d.link id .current), named d id (d.link id .previous)⟩

/-- The payloads that have been verified, by application and version. -/
abbrev Verified := Text → Text → Directory → Prop

variable {V : Verified} {d d' : Disk} {id v : Text} {name : Pointer}
  {tx : StoreTransaction} {P : Disk → Prop}

lemma catalogue_congr (hlink : ∀ id name, d'.link id name = d.link id name)
    (hversion : ∀ id name v, d.link id name = linkTo v → d'.version id v = d.version id v)
    (hlinked : ∀ id name, ∃ v, d.link id name = linkTo v) : catalogue d' = catalogue d := by
  have hnamed : ∀ id name, named d' id (d'.link id name) = named d id (d.link id name) := by
    intro id name
    obtain ⟨v, hv⟩ := hlinked id name
    rw [hlink, hv]
    unfold named linkTo
    split_ifs with hnil
    · rfl
    · simp only [map_some, List.drop_left, hversion id name v hv]
  funext id
  simp only [catalogue, hnamed]

/-! ### Soundness -/

def Intact (V : Verified) (d : Disk) (id version : Text) : Prop :=
  ∃ directory, d.version id version = some directory ∧ V id version directory

def Linked (V : Verified) (d : Disk) (id version : Text) : Prop :=
  version = [] ∨ safeVersion version ∧ Intact V d id version

/-- How far the links have got: none of them is written, the first one or both. -/
def Progress (d : Disk) (tx : StoreTransaction) : Prop :=
  d.link tx.id .current = linkTo tx.oldCurrent ∧ d.link tx.id .previous = linkTo tx.oldPrevious ∨
  d.link tx.id .current = linkTo tx.oldCurrent ∧ d.link tx.id .previous = linkTo tx.oldCurrent ∨
  d.link tx.id .current = linkTo tx.version ∧ d.link tx.id .previous = linkTo tx.oldCurrent

/-- A journal that can be finished. -/
structure Pending (V : Verified) (d : Disk) (tx : StoreTransaction) : Prop where
  valid : validTransaction tx
  made : (d.versions tx.id).isSome
  /-- Its inode is that of a verified payload, and of the version once it is there. -/
  bound : ∃ directory, V tx.id tx.version directory ∧ directory.device = tx.device ∧
    directory.inode = tx.inode ∧
    ∀ target, d.version tx.id tx.version = some target → target = directory
  /-- Before the payload is moved no link is written. -/
  unmoved : d.version tx.id tx.version = none → tx.installing = true ∧
    d.link tx.id .current = linkTo tx.oldCurrent ∧ d.link tx.id .previous = linkTo tx.oldPrevious
  progress : Progress d tx

structure Sound (V : Verified) (d : Disk) : Prop where
  stored : ∀ id v directory, d.version id v = some directory →
    directory.content = none ∨ V id v directory
  linked : ∀ id name, ∃ v, d.link id name = linkTo v ∧ Linked V d id v
  pending : ∀ tx, d.journal = some tx → Pending V d tx

lemma sound_empty : Sound V Disk.empty where
  stored := by
    intro id v directory h
    cases h
  linked := fun id name => ⟨[], rfl, .inl rfl⟩
  pending := by
    intro tx h
    cases h

lemma Sound.links (h : Sound V d) (id : Text) (name : Pointer) :
    ∃ v, d.link id name = linkTo v :=
  (h.linked id name).imp fun _ h => h.1

lemma Sound.linked_of (h : Sound V d) (hv : d.link id name = linkTo v) : Linked V d id v := by
  obtain ⟨w, hw, hlinked⟩ := h.linked id name
  obtain rfl : v = w := linkTo_injective (hv.symm.trans hw)
  exact hlinked

lemma Linked.readable (h : Linked V d id v) : v = [] ∨ safeVersion v := h.imp_right And.left

lemma Linked.congr (h : Linked V d id v) (hversion : d'.version id v = d.version id v) :
    Linked V d' id v := by
  rcases h with rfl | ⟨hsafe, directory, hdir, hV⟩
  · exact .inl rfl
  · exact .inr ⟨hsafe, directory, hversion.trans hdir, hV⟩

lemma Sound.congr (h : Sound V d) (hlink : ∀ id name, d'.link id name = d.link id name)
    (hversion : ∀ id v, d'.version id v = d.version id v)
    (hpending : ∀ tx, d'.journal = some tx → Pending V d' tx) : Sound V d' where
  stored := fun id v directory hdir => h.stored id v directory ((hversion id v).symm.trans hdir)
  linked := fun id name => by
    obtain ⟨v, hv, hlinked⟩ := h.linked id name
    exact ⟨v, (hlink id name).trans hv, hlinked.congr (hversion id v)⟩
  pending := hpending

/-! ### The settled disk -/

def settle (d : Disk) : Disk :=
  match d.journal with
  | none => d
  | some tx =>
    match d.version tx.id tx.version with
    | none => d.setJournal none
    | some _ =>
      ((d.setLink tx.id .previous (linkTo tx.oldCurrent)).setLink tx.id .current
        (linkTo tx.version)).setJournal none

lemma settle_of_none (h : d.journal = none) : settle d = d := by
  unfold settle
  rw [h]

lemma settle_of_unmoved (h : d.journal = some tx) (hv : d.version tx.id tx.version = none) :
    settle d = d.setJournal none := by
  unfold settle
  simp only [h, hv]

lemma settle_of_moved (h : d.journal = some tx) (hv : (d.version tx.id tx.version).isSome) :
    settle d = ((d.setLink tx.id .previous (linkTo tx.oldCurrent)).setLink tx.id .current
      (linkTo tx.version)).setJournal none := by
  obtain ⟨target, ht⟩ := isSome_iff_exists.mp hv
  unfold settle
  simp only [h, ht]

lemma journal_settle : (settle d).journal = none := by
  unfold settle
  split
  · assumption
  · split <;> rfl

lemma setLink_setLink {target target' : Option Text} :
    (d.setLink id name target).setLink id name target' = d.setLink id name target' := by
  simp only [Disk.setLink, Disk.updateApp, update_self, update_idem,
    map_map, Disk.mk.injEq, and_true]
  congr 2
  funext app
  simp only [comp_apply, update_idem]

lemma setLink_comm {name' : Pointer} {target target' : Option Text} (hne : name ≠ name') :
    (d.setLink id name target).setLink id name' target' =
      (d.setLink id name' target').setLink id name target := by
  simp only [Disk.setLink, Disk.updateApp, update_self, update_idem,
    map_map, Disk.mk.injEq, and_true]
  congr 2
  funext app
  simp only [comp_apply, App.mk.injEq, true_and]
  exact update_comm hne _ _ _

lemma settle_previous (htx : d.journal = some tx)
    (hmoved : (d.version tx.id tx.version).isSome) :
    settle (d.setLink tx.id .previous (linkTo tx.oldCurrent)) = settle d := by
  rw [settle_of_moved (d := d.setLink _ _ _) htx (by rwa [Disk.version_setLink]),
    settle_of_moved htx hmoved, setLink_setLink]

lemma settle_current (htx : d.journal = some tx)
    (hmoved : (d.version tx.id tx.version).isSome) :
    settle (d.setLink tx.id .current (linkTo tx.version)) = settle d := by
  have hcomm : (d.setLink tx.id .current (linkTo tx.version)).setLink tx.id .previous
      (linkTo tx.oldCurrent) = (d.setLink tx.id .previous (linkTo tx.oldCurrent)).setLink tx.id
      .current (linkTo tx.version) := setLink_comm (by simp)
  rw [settle_of_moved (d := d.setLink _ _ _) htx (by rwa [Disk.version_setLink]), hcomm,
    setLink_setLink, settle_of_moved htx hmoved]

/-! ### One link after the other -/

lemma Sound.setLink (h : Sound V d) (happ : (d.apps id).isSome) (hv : Linked V d id v)
    (hpending : ∀ tx, d.journal = some tx → Pending V (d.setLink id name (linkTo v)) tx) :
    Sound V (d.setLink id name (linkTo v)) where
  stored := fun id' v' directory hdir => by
    rw [Disk.version_setLink] at hdir
    exact h.stored id' v' directory hdir
  linked := fun id' name' => by
    rw [Disk.link_setLink happ]
    split_ifs with heq
    · rw [heq.1]
      exact ⟨v, rfl, hv.congr Disk.version_setLink⟩
    · obtain ⟨v', hv', hlinked⟩ := h.linked id' name'
      exact ⟨v', hv', hlinked.congr Disk.version_setLink⟩
  pending := hpending

lemma Sound.finish (h : Sound V d) : Sound V (d.setJournal none) :=
  h.congr (fun _ _ => rfl) (fun _ _ => rfl) (by
    intro tx htx
    cases htx)

section Moved

variable (h : Sound V d) (htx : d.journal = some tx)

include h htx

lemma linked_oldCurrent : Linked V d tx.id tx.oldCurrent := by
  rcases (h.pending tx htx).progress with ⟨hc, -⟩ | ⟨hc, -⟩ | ⟨-, hp⟩
  · exact h.linked_of hc
  · exact h.linked_of hc
  · exact h.linked_of hp

variable (hmoved : (d.version tx.id tx.version).isSome)

include hmoved

lemma linked_version : Linked V d tx.id tx.version := by
  obtain ⟨target, ht⟩ := isSome_iff_exists.mp hmoved
  obtain ⟨directory, hV, -, -, hall⟩ := (h.pending tx htx).bound
  obtain rfl := hall target ht
  exact .inr ⟨(h.pending tx htx).valid.2.1, target, ht, hV⟩

lemma Pending.of_progress (hversions : ∀ id, d'.versions id = d.versions id)
    (hprogress : Progress d' tx) : Pending V d' tx := by
  have hversion : d'.version tx.id tx.version = d.version tx.id tx.version := by
    rw [Disk.version, hversions, Disk.version]
  have hp := h.pending tx htx
  refine ⟨hp.valid, by rw [hversions]; exact hp.made, ?_, ?_, hprogress⟩
  · rw [hversion]
    exact hp.bound
  intro hnone
  rw [hversion] at hnone
  simp [hnone] at hmoved

lemma sound_previous : Sound V (d.setLink tx.id .previous (linkTo tx.oldCurrent)) := by
  have happ := Disk.isSome_apps (h.pending tx htx).made
  refine h.setLink happ (linked_oldCurrent h htx) fun tx' htx' => ?_
  obtain rfl : tx = tx' := some.inj (htx.symm.trans htx')
  refine Pending.of_progress h htx hmoved (fun _ => Disk.versions_setLink) ?_
  have hprogress := (h.pending tx htx).progress
  unfold Progress at hprogress ⊢
  simp only [Disk.link_setLink happ, reduceCtorEq, and_false, if_false, and_self, if_true, and_true]
  tauto

lemma sound_current (hprevious : d.link tx.id .previous = linkTo tx.oldCurrent) :
    Sound V (d.setLink tx.id .current (linkTo tx.version)) := by
  have happ := Disk.isSome_apps (h.pending tx htx).made
  refine h.setLink happ (linked_version h htx hmoved) fun tx' htx' => ?_
  obtain rfl : tx = tx' := some.inj (htx.symm.trans htx')
  refine Pending.of_progress h htx hmoved (fun _ => Disk.versions_setLink) (.inr (.inr ?_))
  simp only [Disk.link_setLink happ, reduceCtorEq, and_false, if_false, and_self, if_true,
    hprevious]

end Moved

/-! ### What every recovery does -/

lemma wp_pointerVersion {Q : Text → Disk → Prop} (h : Sound V d)
    (hQ : ∀ v, d.link id name = linkTo v → Linked V d id v → Q v d) (hP : P d) :
    wp (pointerVersion id name) Q P P d := by
  obtain ⟨v, hv, hlinked⟩ := h.linked id name
  refine wp_bind (wp_look (wp_get (fun w hw => ?_) fun _ => hP) hP hP)
  rw [hv, linkVersion_linkTo hlinked.readable] at hw
  obtain rfl := some.inj hw
  exact hQ _ hv hlinked

lemma wp_writePointer {Q : Unit → Disk → Prop} (hQ : Q () (d.setLink id name (linkTo v)))
    (hP : P d) (hP' : P (d.setLink id name (linkTo v))) :
    wp (writePointer id name v) Q P P d := by
  refine wp_bind (wp_attempt (wp_tick ?_ ?_ hP))
  all_goals
    refine wp_bind (wp_orElse (wp_bind (wp_when (fun _ => wp_tick ?_ ?_ hP) fun _ => ?_)))
    · exact wp_act (wp_tick hQ hP' hP') (wp_tick hP hP hP) hP
    · exact wp_tick hP hP hP
    · exact wp_act (wp_tick hQ hP' hP') (wp_tick hP hP hP) hP

lemma wp_finishTransaction {Q : Unit → Disk → Prop} (hQ : Q () (d.setJournal none)) (hP : P d)
    (hP' : P (d.setJournal none)) : wp finishTransaction Q P P d :=
  wp_bind (wp_act (wp_tick hQ hP' hP') hP hP)

def Toward (V : Verified) (d d' : Disk) : Prop := Sound V d' ∧ settle d' = settle d

lemma Sound.settle (h : Sound V d) : Sound V (settle d) := by
  cases htx : d.journal with
  | none => rwa [settle_of_none htx]
  | some tx =>
    cases hv : d.version tx.id tx.version with
    | none =>
      rw [settle_of_unmoved htx hv]
      exact h.finish
    | some target =>
      have hmoved : (d.version tx.id tx.version).isSome := by simp [hv]
      have happ := Disk.isSome_apps (h.pending tx htx).made
      rw [settle_of_moved htx hmoved]
      refine (sound_current (sound_previous h htx hmoved) htx ?_ ?_).finish
      · rwa [Disk.version_setLink]
      · simp [Disk.link_setLink happ]

lemma settle_settle : settle (settle d) = settle d := settle_of_none journal_settle

/-- **Recovery converges.** Wherever it is cut short or fails, the next one goes on to the
same disk, and where it returns it has reached it. -/
theorem wp_recoverTransaction (h : Sound V d) :
    wp recoverTransaction (fun _ d' => d' = settle d) (Toward V d) (Toward V d) d := by
  have hP : Toward V d d := ⟨h, rfl⟩
  have hsettled : Toward V d (settle d) := ⟨h.settle, settle_settle⟩
  refine wp_bind (wp_look ?_ hP hP)
  cases htx : d.journal with
  | none => exact wp_pure (settle_of_none htx).symm
  | some tx =>
    refine wp_bind (wp_require (fun _ => ?_) fun _ => hP)
    refine wp_bind (wp_look ?_ hP hP)
    refine wp_bind (wp_require (fun _ => ?_) fun _ => hP)
    refine wp_bind (wp_look ?_ hP hP)
    refine wp_bind (wp_require (fun _ => ?_) fun _ => hP)
    refine wp_bind (wp_look ?_ hP hP)
    cases hv : d.version tx.id tx.version with
    | none =>
      have hfinish := settle_of_unmoved htx hv
      refine wp_bind (wp_require (fun _ => ?_) fun _ => hP)
      refine wp_bind (wp_pointerVersion h (fun _ _ _ => ?_) hP)
      refine wp_bind (wp_pointerVersion h (fun _ _ _ => ?_) hP)
      refine wp_bind (wp_require (fun _ => ?_) fun _ => hP)
      exact wp_finishTransaction hfinish.symm hP (hfinish ▸ hsettled)
    | some target =>
      have hmoved : (d.version tx.id tx.version).isSome := by simp [hv]
      have happ := Disk.isSome_apps (h.pending tx htx).made
      -- the disks after the first and after the second link
      have hprevious : Toward V d (d.setLink tx.id .previous (linkTo tx.oldCurrent)) :=
        ⟨sound_previous h htx hmoved, settle_previous htx hmoved⟩
      have hmoved' : ((d.setLink tx.id .previous (linkTo tx.oldCurrent)).version tx.id
          tx.version).isSome := by rwa [Disk.version_setLink]
      have hcurrent : Toward V d ((d.setLink tx.id .previous (linkTo tx.oldCurrent)).setLink
          tx.id .current (linkTo tx.version)) :=
        ⟨sound_current hprevious.1 htx hmoved' (by simp [Disk.link_setLink happ]),
          (settle_current (d := d.setLink _ _ _) htx hmoved').trans hprevious.2⟩
      have hfinish := settle_of_moved htx hmoved
      refine wp_bind (wp_require (fun _ => ?_) fun _ => hP)
      refine wp_bind (wp_when (fun _ => wp_tick ?_ hP hP) fun _ => ?_)
      all_goals
        refine wp_bind (wp_tick ?_ hP hP)
        refine wp_bind (wp_tick ?_ hP hP)
        refine wp_bind (wp_tick ?_ hP hP)
        refine wp_bind (wp_tick ?_ hP hP)
        refine wp_bind (wp_writePointer ?_ hP hprevious)
        refine wp_bind (wp_writePointer ?_ hprevious hcurrent)
        exact wp_finishTransaction hfinish.symm hcurrent (hfinish ▸ hsettled)

lemma wp_acquireLock (h : Sound V d) :
    wp acquireLock (fun _ d' => d' = settle d) (Toward V d) (Toward V d) d := by
  have hP : Toward V d d := ⟨h, rfl⟩
  refine wp_bind (wp_tick ?_ hP hP)
  refine wp_bind (wp_tick ?_ hP hP)
  refine wp_bind (wp_tick ?_ hP hP)
  refine wp_bind (wp_tick ?_ hP hP)
  refine wp_bind (wp_tick ?_ hP hP)
  exact wp_recoverTransaction h

/-! ### Recovery with every file operation succeeding -/

lemma returns_pointerVersion (hv : d.link id name = linkTo v) (hread : v = [] ∨ safeVersion v) :
    Returns (pointerVersion id name) d v d :=
  look.bind (get (by rw [hv, linkVersion_linkTo hread]))

lemma returns_writePointer :
    Returns (writePointer id name v) d () (d.setLink id name (linkTo v)) := by
  have hwrite : Returns (do
      (tick : Prog Disk Unit).when (v ≠ [])
      act fun d => d.setLink id name (linkTo v)) d () (d.setLink id name (linkTo v)) := by
    by_cases hv : v ≠ []
    · exact (tick.when hv).bind act
    · exact (when_not hv).bind act
  exact tick.attempt.bind (hwrite.orElse.bind tick)

lemma returns_finishTransaction : Returns finishTransaction d () (d.setJournal none) :=
  act.bind tick

/-- **The store is never blocked.** Recovery of a sound disk returns. -/
theorem returns_recoverTransaction (h : Sound V d) :
    Returns recoverTransaction d () (settle d) := by
  refine look.bind ?_
  cases htx : d.journal with
  | none =>
    rw [settle_of_none htx]
    exact pure
  | some tx =>
    have hp := h.pending tx htx
    refine (require hp.valid).bind ?_
    refine look.bind ((require (Disk.isSome_apps hp.made)).bind ?_)
    refine look.bind ((require hp.made).bind ?_)
    refine look.bind ?_
    cases hv : d.version tx.id tx.version with
    | none =>
      obtain ⟨hinstalling, hcurrent, hprevious⟩ := hp.unmoved hv
      rw [settle_of_unmoved htx hv]
      refine (require hinstalling).bind ?_
      refine (returns_pointerVersion hcurrent hp.valid.2.2.1).bind ?_
      refine (returns_pointerVersion hprevious hp.valid.2.2.2).bind ?_
      exact (require ⟨rfl, rfl⟩).bind returns_finishTransaction
    | some target =>
      obtain ⟨directory, -, hdevice, hinode, hall⟩ := hp.bound
      obtain rfl := hall target hv
      rw [settle_of_moved htx (by simp [hv])]
      refine (require ⟨hdevice, hinode⟩).bind ?_
      have hseal : Returns ((tick : Prog Disk Unit).when (tx.installing = true)) d () d := by
        by_cases hi : tx.installing = true
        · exact tick.when hi
        · exact when_not hi
      refine hseal.bind (tick.bind (tick.bind (tick.bind
        (tick.bind ?_))))
      exact returns_writePointer.bind (returns_writePointer.bind returns_finishTransaction)

lemma returns_acquireLock (h : Sound V d) : Returns acquireLock d () (settle d) :=
  tick.bind (tick.bind (tick.bind (tick.bind
    (tick.bind (returns_recoverTransaction h)))))

end C1auncher.Package.Recovery
