import C1auncher.Package.Recovery

/-!
Clean-up of the package store removes nothing a link names.

It runs behind a recovery, so no journal owns a version that no link names yet. Every state
it goes through is sound and shows the same catalogue.
-/

namespace C1auncher.Package.Cleanup

open Durable Durable.Prog CString Package.Version
open Package.Store Package.Recovery

variable {V : Verified} {d d' d₀ : Disk} {id v : Text} {P : Disk → Prop}

/-! ### What stages and trash do not matter for -/

def Blind (P : Disk → Prop) : Prop :=
  ∀ d d', d'.apps = d.apps → d'.journal = d.journal → P d → P d'

section Congr

variable (happs : d'.apps = d.apps)

include happs

lemma versions_congr : d'.versions id = d.versions id := by
  unfold Disk.versions
  rw [happs]

lemma version_congr : d'.version id v = d.version id v := by
  unfold Disk.version
  rw [versions_congr happs]

lemma link_congr {name : Pointer} : d'.link id name = d.link id name := by
  unfold Disk.link
  rw [happs]

lemma catalogue_of_apps : catalogue d' = catalogue d := by
  funext id
  simp only [catalogue, named, link_congr happs, version_congr happs]

lemma settle_apps (hjournal : d'.journal = d.journal) : (settle d').apps = (settle d).apps := by
  unfold settle
  rw [hjournal]
  cases d.journal with
  | none => exact happs
  | some tx =>
    simp only [version_congr happs]
    cases d.version tx.id tx.version with
    | none => exact happs
    | some target => simp only [Disk.setLink, Disk.updateApp, Disk.setJournal, happs]

end Congr

lemma pending_congr {tx : StoreTransaction} (hlink : ∀ id name, d'.link id name = d.link id name)
    (hversions : ∀ id, d'.versions id = d.versions id) (h : Pending V d tx) :
    Pending V d' tx := by
  have hversion : ∀ id v, d'.version id v = d.version id v := fun id v => by
    rw [Disk.version, hversions, Disk.version]
  refine ⟨h.valid, by rw [hversions]; exact h.made, ?_, ?_, ?_⟩
  · rw [hversion]
    exact h.bound
  · rw [hversion, hlink, hlink]
    exact h.unmoved
  unfold Progress
  rw [hlink, hlink]
  exact h.progress

lemma blind_sound : Blind (Sound V) := by
  intro d d' happs hjournal h
  refine h.congr (fun _ _ => link_congr happs) (fun _ _ => version_congr happs) ?_
  intro tx htx
  exact pending_congr (fun _ _ => link_congr happs) (fun _ => versions_congr happs)
    (h.pending tx (hjournal.symm.trans htx))

/-! ### Clean-up keeps the catalogue -/

/-- Still sound, without a journal, and with the same links and the same catalogue. -/
structure Kept (V : Verified) (d d' : Disk) : Prop where
  sound : Sound V d'
  journal : d'.journal = none
  links : ∀ id name, d'.link id name = d.link id name
  catalogue : catalogue d' = catalogue d

lemma Kept.refl (h : Sound V d) (hjournal : d.journal = none) : Kept V d d :=
  ⟨h, hjournal, fun _ _ => rfl, rfl⟩

lemma blind_kept : Blind (Kept V d₀) := fun _ _ happs hjournal h =>
  ⟨blind_sound _ _ happs hjournal h.sound, hjournal.trans h.journal,
    fun id name => (link_congr happs).trans (h.links id name),
    (catalogue_of_apps happs).trans h.catalogue⟩

lemma Kept.setVersion {directory : Option Directory} (h : Kept V d₀ d)
    (hfree : ∀ name, d.link id name ≠ linkTo v)
    (hdamaged : ∀ dir, directory = some dir → dir.content = none) :
    Kept V d₀ (d.setVersion id v directory) := by
  have hnamed : ∀ id' name v', d.link id' name = linkTo v' →
      (d.setVersion id v directory).version id' v' = d.version id' v' := by
    intro id' name v' hlink
    rw [Disk.version_setVersion, if_neg]
    rintro ⟨rfl, rfl, -⟩
    exact hfree name hlink
  refine ⟨⟨?_, ?_, ?_⟩, h.journal, ?_, ?_⟩
  · intro id' v' dir hdir
    rw [Disk.version_setVersion] at hdir
    split_ifs at hdir
    · exact .inl (hdamaged dir hdir)
    · exact h.sound.stored id' v' dir hdir
  · intro id' name
    obtain ⟨v', hv', hlinked⟩ := h.sound.linked id' name
    exact ⟨v', by rw [Disk.link_setVersion, hv'], hlinked.congr (hnamed id' name v' hv')⟩
  · intro tx htx
    rw [Disk.journal_setVersion, h.journal] at htx
    cases htx
  · intro id' name
    rw [Disk.link_setVersion, h.links]
  · rw [← h.catalogue]
    exact catalogue_congr (fun _ _ => Disk.link_setVersion) hnamed h.sound.links

lemma wp_removePackageTree {present : Disk → Bool} {discard remove : Disk → Disk} (hP : P d)
    (hdiscard : P (discard d)) (hremove : P (remove (discard d))) :
    wp (removePackageTree present discard remove) (fun _ => P) P P d :=
  wp_bind (wp_look (wp_when (fun _ => wp_bind (wp_act (wp_act hremove hdiscard hdiscard) hP hP))
    fun _ => hP) hP hP)

lemma wp_removeStage {pid : ℕ} (hb : Blind P) (hP : P d) :
    wp (removeStage pid) (fun _ => P) P P d :=
  wp_removePackageTree hP (hb d _ rfl rfl hP) (hb d _ rfl rfl hP)

lemma wp_removeTrash {name : Text} (hb : Blind P) (hP : P d) :
    wp (removeTrash name) (fun _ => P) P P d :=
  wp_removePackageTree hP hP (hb d _ rfl rfl hP)

lemma wp_removeVersion (h : Kept V d₀ d) (hfree : ∀ name, d.link id name ≠ linkTo v) :
    wp (removeVersion id v) (fun _ => Kept V d₀) (Kept V d₀) (Kept V d₀) d := by
  have hdiscard : Kept V d₀ (d.setVersion id v
      ((d.version id v).map fun dir => { dir with content := none })) := by
    refine h.setVersion hfree fun dir hdir => ?_
    obtain ⟨dir', -, rfl⟩ := Option.map_eq_some_iff.mp hdir
    rfl
  refine wp_removePackageTree h hdiscard (hdiscard.setVersion (fun name => ?_) (by simp))
  rw [Disk.link_setVersion]
  exact hfree name

lemma wp_forEach {α : Type} {xs : List α} {f : α → Prog Disk Unit} (hP : P d)
    (h : ∀ x ∈ xs, ∀ d, P d → wp (f x) (fun _ => P) P P d) :
    wp (forEach xs f) (fun _ => P) P P d := by
  induction xs generalizing d with
  | nil => exact wp_pure hP
  | cons x xs ih =>
    exact wp_attempt_then (h x List.mem_cons_self d hP) fun d hd =>
      ih hd fun y hy => h y (List.mem_cons_of_mem x hy)

lemma wp_cleanupWorkDirectory {α : Type} {names : List α} {safe : α → Bool}
    {remove : α → Prog Disk Unit} (hP : P d)
    (h : ∀ name d, P d → wp (remove name) (fun _ => P) P P d) :
    wp (cleanupWorkDirectory names safe remove) (fun _ => P) P P d :=
  wp_bind (wp_tick (wp_forEach hP fun name _ d hd => wp_when (fun _ => h name d hd) fun _ => hd)
    hP hP)

lemma wp_currentVersion {name : Pointer} {Q : Text → Disk → Prop} (h : Sound V d)
    (hQ : ∀ v, d.link id name = linkTo v → safeVersion v → Intact V d id v → Q v d) (hP : P d) :
    wp (currentVersion id name) Q P P d := by
  refine wp_bind (wp_pointerVersion h (fun v hv hlinked => ?_) hP)
  refine wp_bind (wp_require (fun hne => wp_pure ?_) fun _ => hP)
  rcases hlinked with rfl | ⟨hsafe, hintact⟩
  · exact absurd rfl hne
  · exact hQ v hv hsafe hintact

lemma wp_cleanupApp {listed : List Text} (h : Kept V d₀ d) :
    wp (cleanupApp listed id) (fun _ => Kept V d₀) (Kept V d₀) (Kept V d₀) d := by
  refine wp_bind (wp_require (fun _ => ?_) fun _ => h)
  refine wp_bind (wp_look (wp_bind (wp_require (fun _ => ?_) fun _ => h)) h h)
  refine wp_bind (wp_currentVersion h.sound (fun current hcurrent _ _ => ?_) h)
  refine wp_bind (wp_pointerVersion h.sound (fun previous hprevious _ => ?_) h)
  refine wp_bind (wp_look (wp_bind (wp_require (fun _ => ?_) fun _ => h)) h h)
  refine wp_bind (wp_tick ?_ h h)
  refine wp_bind (wp_mono (wp_forEach h fun version _ d' hd' => ?_) (fun _ d' hd' =>
    wp_tick hd' hd' hd') (fun _ hd' => hd') fun _ hd' => hd')
  -- the links have not changed since they were read
  refine wp_when (fun ⟨_, hne, hne'⟩ => wp_removeVersion hd' fun name heq => ?_) fun _ => hd'
  rw [hd'.links, ← h.links] at heq
  cases name with
  | current => exact hne (linkTo_injective (heq.symm.trans hcurrent))
  | previous => exact hne' (linkTo_injective (heq.symm.trans hprevious))

/-- **Clean-up keeps what is named.** However it ends, the links are the same, and the
directories they name are intact and the same. -/
theorem wp_cleanupAbandonedWork {listing : Listing} (hkept : Kept V d₀ d) :
    wp (cleanupAbandonedWork listing) (fun _ => Kept V d₀) (Kept V d₀) (Kept V d₀) d := by
  refine wp_bind (wp_attempt (wp_tick ?_ (wp_pure hkept) hkept))
  refine wp_attempt_then (P := Kept V d₀) ?_ fun d hd => ?_
  · exact wp_cleanupWorkDirectory hkept fun _ _ hd => wp_removeStage blind_kept hd
  refine wp_attempt_then (P := Kept V d₀) ?_ fun d hd => ?_
  · exact wp_cleanupWorkDirectory hd fun _ _ hd => wp_removeTrash blind_kept hd
  refine wp_attempt_then (P := Kept V d₀) ?_ fun d hd => wp_pure hd
  exact wp_bind (wp_tick (wp_forEach hd fun _ _ _ hd => wp_cleanupApp hd) hd hd)

end C1auncher.Package.Cleanup
