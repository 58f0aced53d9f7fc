import C1auncher.Package.Cleanup

/-!
Crash safety of the package store: every operation is atomic.

Cut short at any moment or failing anywhere, an operation leaves a disk that the next
recovery settles, and the settled catalogue is the one before the operation or the one the
operation is there for.
-/

namespace C1auncher.Package.CrashSafety

open Durable Durable.Prog CString Package.Version Option List Function
open Package.Store Package.Recovery Package.Cleanup

/-! ### What an operation is there for -/

/-- The old current version becomes the previous one. -/
def switch (c : Catalogue) (id : Text) (entry : Text × Option Directory) : Catalogue :=
  Function.update c id ⟨some entry, (c id).current⟩

/-- An operation as its caller sees it: it happens at once or not at all. -/
inductive Atomic : Op → Catalogue → Catalogue → Prop
  | keep (op : Op) (c : Catalogue) : Atomic op c c
  | install {package pid payload before after} (c : Catalogue) (directory : Directory)
      (heq : directory.content = some payload.content) :
      Atomic (.install package pid payload before after) c
        (switch c package.id (versionsPrefix ++ package.version, some directory))
  | rollback {id listing} (c : Catalogue) (entry : Text × Option Directory)
      (hprevious : (c id).previous = some entry) :
      Atomic (.rollback id listing) c (switch c id entry)
  | remove {id trash listing} (c : Catalogue) :
      Atomic (.remove id trash listing) c (Function.update c id ⟨none, none⟩)

variable {V : Verified} {A : Catalogue → Prop} {d d' d₀ : Disk} {app version : Text}
  {tx : StoreTransaction} {P : Disk → Prop}

/-- A sound disk that recovery takes to one of these catalogues. -/
def Within (V : Verified) (A : Catalogue → Prop) (d : Disk) : Prop :=
  Sound V d ∧ A (catalogue (settle d))

lemma blind_within : Blind (Within V A) := by
  rintro d d' happs hjournal ⟨h, hA⟩
  refine ⟨blind_sound d d' happs hjournal h, ?_⟩
  rwa [catalogue_of_apps (settle_apps happs hjournal)]

lemma within_of_none (h : Sound V d) (hjournal : d.journal = none) (hA : A (catalogue d)) :
    Within V A d := by
  refine ⟨h, ?_⟩
  rwa [settle_of_none hjournal]

lemma within_of_kept (h : Kept V d₀ d) (hA : A (catalogue d₀)) : Within V A d :=
  within_of_none h.sound h.journal (h.catalogue ▸ hA)

lemma within_of_toward (h : Within V A d) (ht : Toward V d d') : Within V A d' :=
  ⟨ht.1, ht.2 ▸ h.2⟩

/-! ### The switch -/

/-- A journal as it is read off the disk. -/
structure Begun (d : Disk) (info : Directory) (tx : StoreTransaction) : Prop where
  valid : validTransaction tx
  app : (d.apps tx.id).isSome
  device : info.device = tx.device
  inode : info.inode = tx.inode
  current : d.link tx.id .current = linkTo tx.oldCurrent
  previous : d.link tx.id .previous = linkTo tx.oldPrevious

lemma wp_beginTransaction {payload : Disk → Option Directory} {installing : Bool}
    {Q : Unit → Disk → Prop} (h : Sound V d) (hP : P d)
    (hbegun : ∀ info tx, payload d = some info → tx.id = app → tx.version = version →
      tx.installing = installing → Begun d info tx →
      Q () (d.setJournal (some tx)) ∧ P (d.setJournal (some tx))) :
    wp (beginTransaction app version payload installing) Q P P d := by
  refine wp_bind (wp_look (wp_bind (wp_require (fun _ => ?_) fun _ => hP)) hP hP)
  refine wp_bind (wp_require (fun ⟨hid, hversion⟩ => ?_) fun _ => hP)
  refine wp_bind (wp_look (wp_bind (wp_require (fun happ => ?_) fun _ => hP)) hP hP)
  refine wp_bind (wp_look (wp_bind (wp_get (fun info hinfo => ?_) fun _ => hP)) hP hP)
  refine wp_bind (wp_pointerVersion h (fun oldCurrent hcurrent hlinked => ?_) hP)
  refine wp_bind (wp_pointerVersion h (fun oldPrevious hprevious hlinked' => ?_) hP)
  refine wp_attempt_then (P := (· = d)) (wp_tick rfl rfl hP) fun d' hd' => ?_
  subst hd'
  refine wp_bind (wp_tick ?_ hP hP)
  obtain ⟨hQ, hP'⟩ := hbegun info ⟨app, version, oldCurrent, oldPrevious, info.device, info.inode,
    installing⟩ hinfo rfl rfl rfl
    ⟨⟨hid, hversion, hlinked.readable, hlinked'.readable⟩, happ, rfl, rfl, hcurrent, hprevious⟩
  exact wp_bind (wp_act (wp_tick hQ hP' hP') hP hP)

lemma sound_setJournal (h : Sound V d) (hpending : Pending V (d.setJournal (some tx)) tx) :
    Sound V (d.setJournal (some tx)) :=
  h.congr (fun _ _ => rfl) (fun _ _ => rfl) fun tx' htx' => by
    obtain rfl : tx = tx' := some.inj htx'
    exact hpending

lemma Begun.pending_of_version {info : Directory} (h : Begun d info tx)
    (hinfo : d.version tx.id tx.version = some info) (hV : V tx.id tx.version info) :
    Pending V (d.setJournal (some tx)) tx := by
  refine ⟨h.valid, ?_, ⟨info, hV, h.device, h.inode, ?_⟩, ?_, .inl ⟨h.current, h.previous⟩⟩
  · exact Disk.isSome_versions (v := tx.version) (by simp [hinfo])
  · intro target ht
    exact some.inj (ht.symm.trans hinfo)
  intro hnone
  rw [Disk.version_setJournal, hinfo] at hnone
  cases hnone

lemma Begun.pending_of_payload {info : Directory} (h : Begun d info tx)
    (hmade : (d.versions tx.id).isSome) (hinstalling : tx.installing = true)
    (habsent : d.version tx.id tx.version = none) (hV : V tx.id tx.version info) :
    Pending V (d.setJournal (some tx)) tx := by
  refine ⟨h.valid, hmade, ⟨info, hV, h.device, h.inode, ?_⟩, ?_, .inl ⟨h.current, h.previous⟩⟩
  · intro target ht
    rw [Disk.version_setJournal, habsent] at ht
    cases ht
  · exact fun _ => ⟨hinstalling, h.current, h.previous⟩

lemma catalogue_of_moved {info : Directory} (h : Sound V d) (htx : d.journal = some tx)
    (hinfo : d.version tx.id tx.version = some info)
    (hcurrent : d.link tx.id .current = linkTo tx.oldCurrent) :
    catalogue (settle d) =
      switch (catalogue d) tx.id (versionsPrefix ++ tx.version, some info) := by
  have happ := Disk.isSome_apps (h.pending tx htx).made
  have hne : tx.version ≠ [] := ne_nil_of_safeVersion (h.pending tx htx).valid.2.1
  rw [settle_of_moved htx (by simp [hinfo])]
  funext id
  unfold switch
  by_cases hid : id = tx.id
  · subst hid
    simp only [catalogue, named, update_self, Disk.link_setJournal,
      Disk.version_setJournal, Disk.version_setLink, Disk.link_setLink happ,
      Disk.link_setLink
        (show ((d.setLink tx.id .previous _).apps tx.id).isSome by simpa using happ),
      hcurrent, reduceCtorEq, and_false, if_false, and_self, if_true]
    simp [linkTo, hne, hinfo]
  · simp only [catalogue, named, update_of_ne hid, Disk.link_setJournal,
      Disk.version_setJournal, Disk.version_setLink, Disk.link_setLink happ,
      Disk.link_setLink
        (show ((d.setLink tx.id .previous _).apps tx.id).isSome by simpa using happ),
      hid, false_and, if_false]

lemma wp_recover_within (h : Within V A d) : wp recoverTransaction
    (fun _ d' => Within V A d' ∧ d'.journal = none) (Within V A) (Within V A) d := by
  have hto : ∀ d', Toward V d d' → Within V A d' := fun d' => within_of_toward h
  refine wp_mono (wp_recoverTransaction h.1) (fun _ d' hd' => ?_) hto hto
  rw [hd']
  exact ⟨hto _ ⟨h.1.settle, settle_settle⟩, journal_settle⟩

lemma wp_switchCurrent {info : Directory} (h : Sound V d) (hjournal : d.journal = none)
    (hinfo : d.version app version = some info) (hV : V app version info)
    (hkeep : A (catalogue d))
    (hswitch : A (switch (catalogue d) app (versionsPrefix ++ version, some info))) :
    wp (switchCurrent app version) (fun _ d' => Within V A d' ∧ d'.journal = none)
      (Within V A) (Within V A) d := by
  have hP := within_of_none h hjournal hkeep
  refine wp_bind (wp_beginTransaction h hP ?_)
  rintro info' tx hinfo' rfl rfl - hb
  obtain rfl : info = info' := some.inj (hinfo.symm.trans hinfo')
  have hs := sound_setJournal h (hb.pending_of_version hinfo hV)
  have hwithin : Within V A (d.setJournal (some tx)) := by
    refine ⟨hs, ?_⟩
    rw [catalogue_of_moved hs rfl hinfo hb.current]
    exact hswitch
  exact ⟨wp_recover_within hwithin, hwithin⟩

/-! ### Installation -/

section Move

variable {directory : Directory} (h : Sound V d) (htx : d.journal = some tx)
  (habsent : d.version tx.id tx.version = none) (hV : V tx.id tx.version directory)

include h htx habsent

lemma version_of_move {id v : Text} {name : Pointer} (hlink : d.link id name = linkTo v) :
    (d.setVersion tx.id tx.version (some directory)).version id v = d.version id v := by
  rw [Disk.version_setVersion, if_neg]
  rintro ⟨rfl, rfl, -⟩
  rcases h.linked_of hlink with hnil | ⟨-, dir, hdir, -⟩
  · exact ne_nil_of_safeVersion (h.pending tx htx).valid.2.1 hnil
  · simp [habsent] at hdir

lemma catalogue_move :
    catalogue (d.setVersion tx.id tx.version (some directory)) = catalogue d :=
  catalogue_congr (fun _ _ => Disk.link_setVersion)
    (fun _ _ _ hlink => version_of_move h htx habsent hlink) h.links

include hV

lemma sound_move (hdevice : directory.device = tx.device) (hinode : directory.inode = tx.inode) :
    Sound V (d.setVersion tx.id tx.version (some directory)) := by
  have hp := h.pending tx htx
  have hmoved : (d.setVersion tx.id tx.version (some directory)).version tx.id tx.version =
      some directory := by
    rw [Disk.version_setVersion, if_pos ⟨rfl, rfl, hp.made⟩]
  refine ⟨?_, ?_, ?_⟩
  · intro id v dir hdir
    rw [Disk.version_setVersion] at hdir
    split_ifs at hdir with heq
    · obtain rfl := some.inj hdir
      rw [heq.1, heq.2.1]
      exact .inr hV
    · exact h.stored id v dir hdir
  · intro id name
    obtain ⟨v, hv, hlinked⟩ := h.linked id name
    exact ⟨v, by rw [Disk.link_setVersion, hv],
      hlinked.congr (version_of_move h htx habsent hv)⟩
  · intro tx' htx'
    obtain rfl : tx = tx' := some.inj (htx.symm.trans htx')
    refine ⟨hp.valid, ?_, ⟨directory, hV, hdevice, hinode, ?_⟩, ?_, ?_⟩
    · rw [Disk.isSome_versions_setVersion]
      exact hp.made
    · intro target ht
      exact some.inj (ht.symm.trans hmoved)
    · intro hnone
      rw [hmoved] at hnone
      cases hnone
    unfold Progress
    simp only [Disk.link_setVersion]
    exact hp.progress

lemma within_move (hdevice : directory.device = tx.device) (hinode : directory.inode = tx.inode)
    (hA : A (switch (catalogue d) tx.id (versionsPrefix ++ tx.version, some directory))) :
    Within V A (d.setVersion tx.id tx.version (some directory)) := by
  have hs := sound_move h htx habsent hV hdevice hinode
  have hmoved : (d.setVersion tx.id tx.version (some directory)).version tx.id tx.version =
      some directory := by
    rw [Disk.version_setVersion, if_pos ⟨rfl, rfl, (h.pending tx htx).made⟩]
  refine ⟨hs, ?_⟩
  rw [catalogue_of_moved hs htx hmoved, catalogue_move h htx habsent]
  · exact hA
  · rw [Disk.link_setVersion]
    exact ((h.pending tx htx).unmoved habsent).2.1

end Move

lemma wp_ticks {n : ℕ} {Q : Unit → Disk → Prop} (hQ : Q () d) (hP : P d) :
    wp (ticks n) Q P P d := by
  induction n with
  | zero => exact wp_pure hQ
  | succ n ih => exact wp_bind (wp_tick ih hP hP)

structure Installs (V : Verified) (A : Catalogue → Prop) (package : PackageEntry)
    (payload : Payload) (c : Catalogue) : Prop where
  verified : V package.id package.version payload.directory
  keep : A c
  switch : ∀ directory : Directory, directory.content = some payload.content →
    A (switch c package.id (versionsPrefix ++ package.version, some directory))

section Install

variable {package : PackageEntry} {payload : Payload} {pid : ℕ}

lemma wp_moveStage (hA : Installs V A package payload (catalogue d)) (h : Sound V d)
    (hjournal : d.journal = none) (hstage : d.staging pid = some payload.directory)
    (habsent : d.version package.id package.version = none)
    (hmade : (d.versions package.id).isSome) :
    wp (do
      beginTransaction package.id package.version (fun d => d.staging pid) true
      act fun d => (d.setVersion package.id package.version (d.staging pid)).setStage pid none
      recoverTransaction
      return InstallResult.ok) (fun _ d' => Within V A d' ∧ d'.journal = none)
      (Within V A) (Within V A) d := by
  have hP := within_of_none h hjournal hA.keep
  refine wp_bind (wp_beginTransaction h hP ?_)
  rintro info tx hinfo hid hversion hinstalling hb
  obtain rfl : payload.directory = info := some.inj (hstage.symm.trans hinfo)
  rw [← hid] at hmade
  rw [← hid, ← hversion] at habsent
  have hV : V tx.id tx.version payload.directory := by
    rw [hid, hversion]
    exact hA.verified
  have hs := sound_setJournal h (hb.pending_of_payload hmade hinstalling habsent hV)
  have hbegun : Within V A (d.setJournal (some tx)) := by
    refine ⟨hs, ?_⟩
    rw [settle_of_unmoved (d := d.setJournal (some tx)) rfl habsent]
    exact hA.keep
  have hmoved : Within V A ((d.setJournal (some tx)).setVersion tx.id tx.version
      (some payload.directory)) := by
    refine within_move hs rfl habsent hV hb.device hb.inode ?_
    rw [hid, hversion]
    exact hA.switch payload.directory rfl
  refine ⟨wp_bind (wp_act ?_ hbegun hbegun), hbegun⟩
  have hstage' : (d.setJournal (some tx)).staging pid = some payload.directory := hstage
  rw [← hid, ← hversion, hstage']
  refine wp_bind (wp_mono (wp_recover_within ?_) (fun _ _ hd => wp_pure hd) (fun _ hd => hd)
    fun _ hd => hd)
  exact blind_within (Disk.setVersion _ _ _ _) _ rfl rfl hmoved

lemma wp_installNew (hA : Installs V A package payload (catalogue d)) (h : Sound V d)
    (hjournal : d.journal = none) (hstage : d.staging pid = some payload.directory)
    (habsent : d.version package.id package.version = none) :
    wp (installNew package pid) (fun _ d' => Within V A d' ∧ d'.journal = none)
      (Within V A) (Within V A) d := by
  have hP := within_of_none h hjournal hA.keep
  -- making the directories changes neither a link nor a version
  have hmake : ∀ d', (∀ id name, d'.link id name = d.link id name) →
      (∀ id v, d'.version id v = d.version id v) → d'.journal = none →
      Sound V d' ∧ catalogue d' = catalogue d := fun d' hlink hversion hj =>
    ⟨h.congr hlink hversion (by simp [hj]),
      catalogue_congr hlink (fun id _ v _ => hversion id v) h.links⟩
  obtain ⟨hs₁, hc₁⟩ := hmake (d.makeApp package.id) (by simp) (by simp) hjournal
  obtain ⟨hs₂, hc₂⟩ := hmake ((d.makeApp package.id).makeVersions package.id) (by simp) (by simp)
    hjournal
  have hP₁ : Within V A (d.makeApp package.id) := within_of_none hs₁ hjournal (hc₁ ▸ hA.keep)
  have hP₂ : Within V A ((d.makeApp package.id).makeVersions package.id) :=
    within_of_none hs₂ hjournal (hc₂ ▸ hA.keep)
  refine wp_bind (wp_tick (wp_bind (wp_act ?_ hP hP)) hP hP)
  refine wp_bind (wp_act (wp_bind (wp_ticks ?_ hP₂)) hP₁ hP₁)
  exact wp_moveStage (hc₂ ▸ hA) hs₂ hjournal hstage (by simpa using habsent)
    Disk.isSome_versions_make

lemma wp_installRetained (hA : Installs V A package payload (catalogue d)) (h : Sound V d)
    (hjournal : d.journal = none) (hstage : d.staging pid = some payload.directory) :
    wp (installRetained package pid) (fun _ d' => Within V A d' ∧ d'.journal = none)
      (Within V A) (Within V A) d := by
  have hP := within_of_none h hjournal hA.keep
  refine wp_bind (wp_look ?_ hP hP)
  split_ifs with hequal
  · -- the retained version is intact: its content is that of the verified payload
    obtain ⟨retained, hretained, hcontent⟩ := (any_eq_true _ _).mp hequal
    simp only [hstage, any_some, Payload.directory, Bool.and_eq_true, beq_iff_eq]
      at hcontent
    have hV := (h.stored _ _ _ hretained).resolve_left (by simp [← hcontent.2])
    refine wp_bind (wp_mono (wp_switchCurrent h hjournal hretained hV hA.keep
      (hA.switch retained hcontent.2.symm)) (fun _ _ hd => wp_pure hd) (fun _ hd => hd)
      fun _ hd => hd)
  · exact wp_pure ⟨hP, hjournal⟩

lemma wp_stagePayload (hb : Blind P) (hP : P d) : wp (stagePayload pid payload)
    (fun _ d' => P d' ∧ d'.staging pid = some payload.directory) P P d := by
  refine wp_attempt_then (wp_removeStage hb hP) fun d hd => ?_
  refine wp_bind (wp_ticks (wp_bind (wp_act ?_ hd hd)) hd)
  have hstaged : P (d.setStage pid (some payload.directory)) := hb d _ rfl rfl hd
  exact wp_ticks ⟨hstaged, update_self _ _ _⟩ hstaged

lemma wp_decideInstall {Q : Int → Disk → Prop} (h : Sound V d) (hQ : ∀ decision, Q decision d)
    (hP : P d) : wp (decideInstall package) Q P P d := by
  refine wp_bind (wp_look ?_ hP hP)
  split
  · exact wp_pure (hQ 1)
  · exact wp_bind (wp_currentVersion h (fun _ _ _ _ => wp_pure (hQ _)) hP)

lemma wp_installBody (hA : Installs V A package payload (catalogue d)) (h : Sound V d)
    (hjournal : d.journal = none) : wp (installBody package pid payload)
      (fun _ d' => Within V A d' ∧ d'.journal = none) (Within V A) (Within V A) d := by
  have hP := within_of_none h hjournal hA.keep
  refine wp_bind (wp_ticks (wp_bind (wp_decideInstall h (fun decision => ?_) hP)) hP)
  split_ifs
  · exact wp_pure ⟨hP, hjournal⟩
  refine wp_bind (wp_require (fun _ => ?_) fun _ => hP)
  refine wp_bind (wp_look ?_ hP hP)
  refine wp_bind (wp_tick ?_ hP hP)
  -- nothing but the stage has changed when the payload is ready
  have hb : Blind fun d' => d'.apps = d.apps ∧ d'.journal = d.journal :=
    fun _ _ happs hj h => ⟨happs.trans h.1, hj.trans h.2⟩
  have hwithin : ∀ d', d'.apps = d.apps ∧ d'.journal = d.journal → Within V A d' :=
    fun d' hd' => blind_within _ _ hd'.1 hd'.2 hP
  refine wp_bind (wp_mono (wp_stagePayload hb ⟨rfl, rfl⟩) (fun _ d' hd' => ?_) hwithin hwithin)
  obtain ⟨⟨happs, hj⟩, hstage⟩ := hd'
  have hs : Sound V d' := blind_sound d d' happs hj h
  rw [← catalogue_of_apps happs] at hA
  split_ifs with hretained
  · exact wp_installRetained hA hs (hj.trans hjournal) hstage
  refine wp_installNew hA hs (hj.trans hjournal) hstage ?_
  rw [version_congr happs]
  simpa using hretained

end Install

/-! ### The operations -/

variable {listing : Listing} {id trash : Text}

lemma wp_enter {α : Type} {p : Prog Disk α} {Q : α → Disk → Prop}
    (h : Sound V d) (hkeep : A (catalogue (settle d)))
    (hp : ∀ d', Kept V (settle d) d' → wp p Q (Within V A) (Within V A) d') :
    wp (do
      tick
      acquireLock
      cleanupAbandonedWork listing
      p) Q (Within V A) (Within V A) d := by
  have hP : Within V A d := ⟨h, hkeep⟩
  have hto : ∀ d', Toward V d d' → Within V A d' := fun d' => within_of_toward hP
  have hkept : ∀ d', Kept V (settle d) d' → Within V A d' := fun d' hd' =>
    within_of_kept hd' hkeep
  refine wp_bind (wp_tick (wp_bind (wp_mono (wp_acquireLock h) (fun _ d' hd' => ?_) hto hto)) hP hP)
  rw [hd']
  exact wp_bind (wp_mono (wp_cleanupAbandonedWork (.refl h.settle journal_settle))
    (fun _ => hp) hkept hkept)

lemma wp_storeInstall {package : PackageEntry} {pid : ℕ} {payload : Payload}
    {before after : Listing} (h : Sound V d)
    (hA : Installs V A package payload (catalogue (settle d))) :
    wp (storeInstall package pid payload before after) (fun _ => Within V A) (Within V A)
      (Within V A) d := by
  refine wp_bind (wp_require (fun _ => ?_) fun _ => ⟨h, hA.keep⟩)
  refine wp_enter h hA.keep fun d' hd' => ?_
  rw [← hd'.catalogue] at hA
  refine wp_bind (wp_attempt (wp_mono (wp_installBody hA hd'.sound hd'.journal)
    (fun result d' hd' => ?_) (fun d' hd' => ?_) fun _ hd' => hd'))
  · -- the journal is gone when the clean-up begins
    have hb : Blind fun d => Within V A d ∧ d.journal = none := fun d e happs hj hd =>
      ⟨blind_within d e happs hj hd.1, hj.trans hd.2⟩
    refine wp_attempt_then (wp_mono (wp_removeStage hb hd') (fun _ _ hd => hd) (fun _ hd => hd)
      fun _ hd => hd.1) fun d' hd' => ?_
    refine wp_bind (wp_when (fun _ => ?_) fun _ => wp_get (fun _ _ => hd'.1) fun _ => hd'.1)
    have hA' : A (catalogue d') := by
      have := hd'.1.2
      rwa [settle_of_none hd'.2] at this
    have hkept : ∀ e, Kept V d' e → Within V A e := fun e he => within_of_kept he hA'
    exact wp_mono (wp_cleanupAbandonedWork (.refl hd'.1.1 hd'.2))
      (fun _ e he => wp_get (fun _ _ => hkept e he) fun _ => hkept e he) hkept hkept
  · refine wp_attempt_then (wp_removeStage blind_within hd') fun d' hd' => ?_
    refine wp_bind (wp_when (fun hok => ?_) fun _ => wp_get (fun _ _ => hd') fun _ => hd')
    cases hok

lemma wp_storeRollback (h : Sound V d)
    (hkeep : A (catalogue (settle d)))
    (hswitch : ∀ entry, (catalogue (settle d) id).previous = some entry →
      A (switch (catalogue (settle d)) id entry)) :
    wp (storeRollback id listing) (fun _ => Within V A) (Within V A) (Within V A) d := by
  refine wp_bind (wp_require (fun _ => ?_) fun _ => ⟨h, hkeep⟩)
  refine wp_enter h hkeep fun d' hd' => ?_
  rw [← hd'.catalogue] at hkeep hswitch
  have hP := within_of_none hd'.sound hd'.journal hkeep
  refine wp_bind (wp_currentVersion hd'.sound (fun v hv hsafe hintact => ?_) hP)
  obtain ⟨info, hinfo, hV⟩ := hintact
  have hprevious : (catalogue d' id).previous = some (versionsPrefix ++ v, some info) := by
    simp only [catalogue, named, hv, linkTo, if_neg (ne_nil_of_safeVersion hsafe),
      map_some, drop_left, hinfo]
  exact wp_mono (wp_switchCurrent hd'.sound hd'.journal hinfo hV hkeep (hswitch _ hprevious))
    (fun _ _ hd => hd.1) (fun _ hd => hd) fun _ hd => hd

lemma sound_trashApp (h : Sound V d) (hjournal : d.journal = none) :
    Sound V (d.trashApp id trash) := by
  refine ⟨?_, ?_, ?_⟩
  · intro id' v directory hdir
    rw [Disk.version_trashApp] at hdir
    split_ifs at hdir
    exact h.stored id' v directory hdir
  · intro id' name
    by_cases hid : id' = id
    · exact ⟨[], by rw [Disk.link_trashApp, if_pos hid]; rfl, .inl rfl⟩
    obtain ⟨v, hv, hlinked⟩ := h.linked id' name
    exact ⟨v, by rw [Disk.link_trashApp, if_neg hid, hv],
      hlinked.congr (by rw [Disk.version_trashApp, if_neg hid])⟩
  · intro tx htx
    have : d.journal = some tx := htx
    simp [hjournal] at this

lemma catalogue_trashApp :
    catalogue (d.trashApp id trash) = Function.update (catalogue d) id ⟨none, none⟩ := by
  funext id'
  by_cases hid : id' = id
  · subst hid
    simp only [catalogue, named, update_self, Disk.link_trashApp, if_true, map_none]
  · simp only [catalogue, named, update_of_ne hid, Disk.link_trashApp,
      Disk.version_trashApp, if_neg hid]

lemma wp_storeRemove (h : Sound V d)
    (hkeep : A (catalogue (settle d)))
    (hremove : A (Function.update (catalogue (settle d)) id ⟨none, none⟩)) :
    wp (storeRemove id trash listing) (fun _ => Within V A) (Within V A) (Within V A) d := by
  refine wp_bind (wp_require (fun _ => ?_) fun _ => ⟨h, hkeep⟩)
  refine wp_enter h hkeep fun d' hd' => ?_
  rw [← hd'.catalogue] at hkeep hremove
  have hP := within_of_none hd'.sound hd'.journal hkeep
  refine wp_bind (wp_tick (wp_bind (wp_look (wp_bind (wp_require (fun _ => ?_) fun _ => hP))
    hP hP)) hP hP)
  have hgone : Within V A (d'.trashApp id trash) :=
    within_of_none (sound_trashApp hd'.sound hd'.journal) hd'.journal
      (catalogue_trashApp ▸ hremove)
  refine wp_bind (wp_act (wp_bind (wp_ticks ?_ hgone)) hP hP)
  exact wp_attempt_then (wp_removeTrash blind_within hgone) fun _ hd => wp_pure hd

lemma wp_storeInit (h : Sound V d) (hkeep : A (catalogue (settle d))) :
    wp (storeInit listing) (fun _ => Within V A) (Within V A) (Within V A) d :=
  wp_enter h hkeep fun _ hd' => wp_pure (within_of_kept hd' hkeep)

/-! ### Runs -/

/-- The payload belongs to an installation of the run. -/
def verifiedBy (steps : List Step) : Verified := fun id version directory =>
  ∃ step ∈ steps, ∃ package pid payload before after,
    step.op = .install package pid payload before after ∧ package.id = id ∧
    package.version = version ∧ directory = payload.directory

lemma exec_within {step : Step} (h : Sound V d)
    (hV : ∀ id version directory, verifiedBy [step] id version directory →
      V id version directory) :
    Within V (Atomic step.op (catalogue (settle d))) (exec step d) := by
  have hkeep := Atomic.keep step.op (catalogue (settle d))
  unfold exec
  cases hop : step.op with
  | install package pid payload before after =>
    rw [hop] at hkeep
    refine wp_after (wp_storeInstall h ⟨?_, hkeep, Atomic.install _⟩) step.replies
    exact hV _ _ _ ⟨step, mem_singleton_self step, _, _, _, _, _, hop, rfl, rfl, rfl⟩
  | rollback id listing =>
    rw [hop] at hkeep
    exact wp_after (wp_storeRollback h hkeep (Atomic.rollback _)) step.replies
  | remove id trash listing =>
    rw [hop] at hkeep
    exact wp_after (wp_storeRemove h hkeep (Atomic.remove _)) step.replies
  | init listing =>
    rw [hop] at hkeep
    exact wp_after (wp_storeInit h hkeep) step.replies

lemma sound_final (steps : List Step) (hV : ∀ id version directory,
    verifiedBy steps id version directory → V id version directory) :
    Sound V (final exec Disk.empty steps) := by
  refine final_inv sound_empty fun step hstep d h => ?_
  refine (exec_within h fun id version directory hv => hV id version directory ?_).1
  obtain ⟨step', hmem, hv⟩ := hv
  rw [List.mem_singleton.mp hmem] at hv
  exact ⟨step, hstep, hv⟩

/-- Every link names a version that is there as an installation of the run verified it. -/
def LinksVerified (steps : List Step) (d : Disk) : Prop :=
  ∀ id name target, d.link id name = some target → ∃ version directory,
    target = versionsPrefix ++ version ∧ d.version id version = some directory ∧
    verifiedBy steps id version directory

/-- The journal is bound to the inode of a verified payload, and so is its version. -/
def JournalVerified (steps : List Step) (d : Disk) : Prop :=
  ∀ tx, d.journal = some tx → ∃ directory, verifiedBy steps tx.id tx.version directory ∧
    directory.device = tx.device ∧ directory.inode = tx.inode ∧
    ∀ target, d.version tx.id tx.version = some target → target = directory

lemma linksVerified_of_sound {steps : List Step} (h : Sound (verifiedBy steps) d) :
    LinksVerified steps d := by
  intro id name target hlink
  obtain ⟨v, hv, hlinked⟩ := h.linked id name
  rcases hlinked with rfl | ⟨hsafe, directory, hdir, hV⟩
  · rw [hv] at hlink
    cases hlink
  · rw [hv, linkTo, if_neg (ne_nil_of_safeVersion hsafe)] at hlink
    exact ⟨v, directory, (some.inj hlink).symm, hdir, hV⟩

/-- **The package store is crash safe.** Whatever operations have run, and wherever each of
them was cut short or failed, the next `acquireLock` whose file operations succeed returns
and leaves no journal. One operation more, cut short anywhere, shows its one effect in the
recovered catalogue or none. Every link names a verified version at every moment. -/
theorem package_store_crash_safe (steps : List Step) (step : Step) :
    ∃ s s', Returns acquireLock (final exec Disk.empty steps) () s ∧
      Returns acquireLock (exec step (final exec Disk.empty steps)) () s' ∧
      s.journal = none ∧ s'.journal = none ∧
      Atomic step.op (catalogue s) (catalogue s') ∧
      LinksVerified (steps ++ [step]) (exec step (final exec Disk.empty steps)) ∧
      JournalVerified (steps ++ [step]) (exec step (final exec Disk.empty steps)) ∧
      LinksVerified (steps ++ [step]) s' := by
  have hbefore : Sound (verifiedBy (steps ++ [step])) (final exec Disk.empty steps) :=
    sound_final steps fun id version directory ⟨step', hmem, hv⟩ =>
      ⟨step', mem_append_left [step] hmem, hv⟩
  have hV : ∀ id version directory, verifiedBy [step] id version directory →
      verifiedBy (steps ++ [step]) id version directory :=
    fun id version directory ⟨step', hmem, hv⟩ => ⟨step', mem_append_right steps hmem, hv⟩
  obtain ⟨hafter, hatomic⟩ := exec_within hbefore hV
  refine ⟨_, _, returns_acquireLock hbefore, returns_acquireLock hafter, journal_settle,
    journal_settle, hatomic, linksVerified_of_sound hafter, fun tx htx => ?_,
    linksVerified_of_sound hafter.settle⟩
  exact (hafter.pending tx htx).bound

def noListing : Listing := ⟨[], [], [], fun _ => []⟩

def someInstall : Step :=
  ⟨.install ⟨"app".toList, "1.0".toList, "app.tar.gz".toList, "bin/app".toList, 1⟩ 1
    ⟨1, 1, "payload".toList⟩ noListing noListing, []⟩

/-- A removal that dies after it has moved the application into the trash. -/
def cutRemove : Step :=
  ⟨.remove "app".toList "app.0.1".toList noListing, List.replicate 14 .ok ++ [.die]⟩

lemma link_someInstall :
    (final exec Disk.empty [someInstall]).link "app".toList .current = some "versions/1.0".toList ∧
      (final exec Disk.empty [someInstall]).journal = none := by decide

lemma link_cutRemove :
    (exec cutRemove (final exec Disk.empty [someInstall])).link "app".toList .current = none ∧
      (exec cutRemove (final exec Disk.empty [someInstall])).journal = none := by decide

/-- An interrupted removal leaves neither the old links nor those of a switch. -/
theorem package_store_crash_safe_fails :
    ¬ ∀ (steps : List Step) (step : Step) (s s' : Disk),
      Returns acquireLock (final exec Disk.empty steps) () s →
      Returns acquireLock (exec step (final exec Disk.empty steps)) () s' →
      ∀ id, catalogue s' id = catalogue s id ∨
        ∃ entry, catalogue s' id = ⟨some entry, (catalogue s id).current⟩ := by
  intro h
  have hbefore := sound_final [someInstall] fun _ _ _ => id
  have hafter : Sound (verifiedBy [someInstall, cutRemove])
      (exec cutRemove (final exec Disk.empty [someInstall])) :=
    sound_final [someInstall, cutRemove] fun _ _ _ => id
  have hcases := h [someInstall] cutRemove _ _ (returns_acquireLock hbefore)
    (returns_acquireLock hafter) "app".toList
  rw [settle_of_none link_someInstall.2, settle_of_none link_cutRemove.2] at hcases
  have hcurrent : (catalogue (exec cutRemove (final exec Disk.empty [someInstall]))
      "app".toList).current = none := by
    simp only [catalogue, named, link_cutRemove.1, map_none]
  rcases hcases with heq | ⟨entry, heq⟩
  · rw [heq] at hcurrent
    simp only [catalogue, named, link_someInstall.1, map_some, reduceCtorEq] at hcurrent
  · rw [heq] at hcurrent
    cases hcurrent

end C1auncher.Package.CrashSafety
