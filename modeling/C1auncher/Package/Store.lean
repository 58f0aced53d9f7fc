import C1auncher.Durable
import C1auncher.Package.Version

/-!
The package store: application directories, two version links for each of them, and a redo
journal.

Every file operation consumes one reply. Operations on temporary names, permissions, locks
and syncs are ticks, and so are the steps that verify an archive: a package that does not
pass is a step that fails. What `readdir` lists is an input, in any order and with any names.
-/

namespace C1auncher.Package.Store

open Durable Durable.Prog CString Package.Version Function Option

/-! ### The disk -/

/-- A directory of `versions/` with the tree below it. Its removal begins by making the root
writable, and `content` is `none` from then on. -/
structure Directory where
  device : ℕ
  inode : ℕ
  content : Option Text
  deriving DecidableEq

/-- The two version links of an application. -/
inductive Pointer
  | current
  | previous
  deriving DecidableEq

/-- An application directory: `versions/` once it is made, and the targets of the links. -/
structure App where
  versions : Option (Text → Option Directory)
  link : Pointer → Option Text

/-- `struct store_transaction`; the empty text stands for an absent link. -/
structure StoreTransaction where
  id : Text
  version : Text
  oldCurrent : Text
  oldPrevious : Text
  device : ℕ
  inode : ℕ
  installing : Bool
  deriving DecidableEq

/-- What survives the death of a process. -/
structure Disk where
  apps : Text → Option App
  /-- `TRANSACTION_PATH` -/
  journal : Option StoreTransaction
  /-- The payload below the stage of each process. -/
  staging : ℕ → Option Directory
  /-- The names of the trees in the trash. -/
  trash : Text → Bool

namespace Disk

def empty : Disk := ⟨fun _ => none, none, fun _ => none, fun _ => false⟩

variable (d : Disk)

def versions (id : Text) : Option (Text → Option Directory) := (d.apps id).bind App.versions

/-- `versions/` followed by a version, of one application. -/
def version (id version : Text) : Option Directory := (d.versions id).bind fun vs => vs version

def link (id : Text) (name : Pointer) : Option Text := (d.apps id).bind fun app => app.link name

def updateApp (id : Text) (f : App → App) : Disk :=
  { d with apps := Function.update d.apps id ((d.apps id).map f) }

def setLink (id : Text) (name : Pointer) (target : Option Text) : Disk :=
  d.updateApp id fun app => { app with link := Function.update app.link name target }

def setVersion (id version : Text) (directory : Option Directory) : Disk :=
  d.updateApp id fun app =>
    { app with versions := app.versions.map fun vs => Function.update vs version directory }

def setJournal (journal : Option StoreTransaction) : Disk := { d with journal := journal }

def setStage (pid : ℕ) (directory : Option Directory) : Disk :=
  { d with staging := Function.update d.staging pid directory }

/-- The steps of `c1pkg_mkdir_p` below the applications. -/
def makeApp (id : Text) : Disk :=
  { d with apps := Function.update d.apps id (some ((d.apps id).getD ⟨none, fun _ => none⟩)) }

def makeVersions (id : Text) : Disk :=
  d.updateApp id fun app => { app with versions := some (app.versions.getD fun _ => none) }

def trashApp (id trash : Text) : Disk :=
  { d with apps := Function.update d.apps id none, trash := Function.update d.trash trash true }

/-! ### What each change touches -/

section Frame

variable {d : Disk} {id id' v v' : Text} {name name' : Pointer} {target : Option Text}
  {directory : Option Directory} {journal : Option StoreTransaction} {pid : ℕ}

lemma apps_updateApp (f : App → App) :
    (d.updateApp id f).apps id' = if id' = id then (d.apps id).map f else d.apps id' := by
  simp only [updateApp, update_apply]

@[simp] lemma isSome_setLink :
    ((d.setLink id name target).apps id').isSome = (d.apps id').isSome := by
  rw [setLink, apps_updateApp]
  split_ifs with h
  · rw [h, isSome_map]
  · rfl

@[simp] lemma versions_setLink : (d.setLink id name target).versions id' = d.versions id' := by
  rw [setLink, versions, versions, apps_updateApp]
  split_ifs with h
  · subst h
    cases d.apps id' <;> rfl
  · rfl

@[simp] lemma version_setLink : (d.setLink id name target).version id' v = d.version id' v := by
  rw [version, versions_setLink, version]

lemma link_setLink (h : (d.apps id).isSome) : (d.setLink id name target).link id' name' =
    if id' = id ∧ name' = name then target else d.link id' name' := by
  obtain ⟨app, happ⟩ := Option.isSome_iff_exists.mp h
  rw [setLink, link, link, apps_updateApp]
  by_cases hid : id' = id
  · subst hid
    simp only [happ, map_some, if_true, bind_some, true_and, update_apply]
  · simp only [hid, if_false, false_and]

@[simp] lemma journal_setLink : (d.setLink id name target).journal = d.journal := rfl

@[simp] lemma link_setVersion :
    (d.setVersion id v directory).link id' name = d.link id' name := by
  rw [setVersion, link, link, apps_updateApp]
  split_ifs with h
  · subst h
    cases d.apps id' <;> rfl
  · rfl

@[simp] lemma isSome_versions_setVersion :
    ((d.setVersion id v directory).versions id').isSome = (d.versions id').isSome := by
  rw [setVersion, versions, versions, apps_updateApp]
  split_ifs with h
  · subst h
    rcases d.apps id' with _ | ⟨_ | _, _⟩ <;> rfl
  · rfl

lemma version_setVersion : (d.setVersion id v directory).version id' v' =
    if id' = id ∧ v' = v ∧ (d.versions id).isSome then directory else d.version id' v' := by
  rw [setVersion, version, version, versions, versions, apps_updateApp]
  by_cases hid : id' = id
  · subst hid
    rcases h : d.apps id' with _ | ⟨_ | vs, _⟩
    · simp [versions, h]
    · simp [versions, h]
    · simp [versions, h, update_apply]
  · simp only [hid, if_false, false_and, versions]

@[simp] lemma journal_setVersion : (d.setVersion id v directory).journal = d.journal := rfl

@[simp] lemma link_setJournal : (d.setJournal journal).link id name = d.link id name := rfl

@[simp] lemma version_setJournal : (d.setJournal journal).version id v = d.version id v := rfl

@[simp] lemma versions_setJournal : (d.setJournal journal).versions id = d.versions id := rfl

@[simp] lemma journal_setJournal : (d.setJournal journal).journal = journal := rfl

@[simp] lemma link_makeApp : (d.makeApp id).link id' name = d.link id' name := by
  simp only [makeApp, link, update_apply]
  split_ifs with h
  · subst h
    cases d.apps id' <;> rfl
  · rfl

@[simp] lemma version_makeApp : (d.makeApp id).version id' v = d.version id' v := by
  simp only [makeApp, version, versions, update_apply]
  split_ifs with h
  · subst h
    cases d.apps id' <;> rfl
  · rfl

@[simp] lemma link_makeVersions : (d.makeVersions id).link id' name = d.link id' name := by
  simp only [makeVersions, link, apps_updateApp]
  split_ifs with h
  · subst h
    cases d.apps id' <;> rfl
  · rfl

@[simp] lemma version_makeVersions : (d.makeVersions id).version id' v = d.version id' v := by
  simp only [makeVersions, version, versions, apps_updateApp]
  split_ifs with h
  · subst h
    rcases d.apps id' with _ | ⟨_ | _, _⟩ <;> rfl
  · rfl

lemma isSome_versions_make : (((d.makeApp id).makeVersions id).versions id).isSome := by
  simp [makeVersions, makeApp, versions, apps_updateApp]

lemma link_trashApp {trash : Text} :
    (d.trashApp id trash).link id' name = if id' = id then none else d.link id' name := by
  simp only [trashApp, link, update_apply]
  split_ifs <;> rfl

lemma version_trashApp {trash : Text} :
    (d.trashApp id trash).version id' v = if id' = id then none else d.version id' v := by
  simp only [trashApp, version, versions, update_apply]
  split_ifs <;> rfl

lemma isSome_apps (h : (d.versions id).isSome) : (d.apps id).isSome := by
  unfold versions at h
  cases hd : d.apps id with
  | none => simp [hd] at h
  | some app => rfl

lemma isSome_versions (h : (d.version id v).isSome) : (d.versions id).isSome := by
  unfold version at h
  cases hd : d.versions id with
  | none => simp [hd] at h
  | some vs => rfl

end Frame

end Disk

/-! ### Links -/

def versionsPrefix : Text := "versions/".toList

def linkTo (version : Text) : Option Text :=
  if version = [] then none else some (versionsPrefix ++ version)

/-- The version a link names, empty without a link; other targets are refused. -/
def linkVersion : Option Text → Option Text
  | none => some []
  | some target =>
    let version := target.drop versionsPrefix.length
    if target.take versionsPrefix.length = versionsPrefix ∧ safeVersion version then some version
    else none

lemma linkTo_injective : Injective linkTo := by
  intro v v' h
  unfold linkTo at h
  split_ifs at h with hv hv'
  · rw [hv, hv']
  · exact List.append_cancel_left (some.inj h)

lemma linkVersion_linkTo {version : Text} (h : version = [] ∨ safeVersion version) :
    linkVersion (linkTo version) = some version := by
  by_cases hv : version = []
  · simp [linkTo, linkVersion, hv]
  · have hsafe := h.resolve_left hv
    simp [linkTo, linkVersion, hv, hsafe]

def pointerVersion (app : Text) (name : Pointer) : Prog Disk Text := do
  let target ← look fun d => d.link app name
  get (linkVersion target)

def currentVersion (id : Text) (name : Pointer) : Prog Disk Text := do
  let version ← pointerVersion id name
  require (version ≠ [])
  return version

def writePointer (app : Text) (name : Pointer) (version : Text) : Prog Disk Unit := do
  let _ ← attempt tick
  orElse (do
    (tick : Prog Disk Unit).when (version ≠ [])
    act fun d => d.setLink app name (linkTo version)) tick
  tick

/-! ### The redo journal -/

def finishTransaction : Prog Disk Unit := do
  act fun d => d.setJournal none
  tick

/-- What a journal has to look like. -/
def validTransaction (tx : StoreTransaction) : Prop :=
  safeId tx.id ∧ safeVersion tx.version ∧ (tx.oldCurrent = [] ∨ safeVersion tx.oldCurrent) ∧
    (tx.oldPrevious = [] ∨ safeVersion tx.oldPrevious)

instance (tx : StoreTransaction) : Decidable (validTransaction tx) :=
  inferInstanceAs (Decidable (_ ∧ _))

def recoverTransaction : Prog Disk Unit := do
  match ← look fun d => d.journal with
  | none => pure ()
  | some tx =>
    require (validTransaction tx)
    require (← look fun d => (d.apps tx.id).isSome)
    require (← look fun d => (d.versions tx.id).isSome)
    match ← look fun d => d.version tx.id tx.version with
    | none =>
      -- power loss before the payload rename: no link was changed
      require (tx.installing = true)
      let current ← pointerVersion tx.id .current
      let previous ← pointerVersion tx.id .previous
      require (current = tx.oldCurrent ∧ previous = tx.oldPrevious)
      finishTransaction
    | some target =>
      require (target.device = tx.device ∧ target.inode = tx.inode)
      -- seal the payload
      (tick : Prog Disk Unit).when (tx.installing = true)
      -- sync the version, `versions`, the application and the applications
      tick
      tick
      tick
      tick
      writePointer tx.id .previous tx.oldCurrent
      writePointer tx.id .current tx.version
      finishTransaction

/-- The journal of a switch to a payload, written under a temporary name and renamed. -/
def beginTransaction (app version : Text) (payload : Disk → Option Directory)
    (installing : Bool) : Prog Disk Unit := do
  require (← look fun d => d.journal.isNone)
  require (safeId app ∧ safeVersion version)
  require (← look fun d => (d.apps app).isSome)
  let info ← get (← look payload)
  let oldCurrent ← pointerVersion app .current
  let oldPrevious ← pointerVersion app .previous
  let _ ← attempt tick
  tick
  act fun d => d.setJournal (some
    ⟨app, version, oldCurrent, oldPrevious, info.device, info.inode, installing⟩)
  tick

def switchCurrent (app version : Text) : Prog Disk Unit := do
  beginTransaction app version (fun d => d.version app version) false
  recoverTransaction

/-- Check the state directory, make it, open, check and take the lock, then recover. -/
def acquireLock : Prog Disk Unit := do
  tick
  tick
  tick
  tick
  tick
  recoverTransaction

/-! ### Clean-up -/

/-- Remove a tree that may be absent. `discard` is what the removal does to the disk until
only the root is left. -/
def removePackageTree (present : Disk → Bool) (discard remove : Disk → Disk) :
    Prog Disk Unit := do
  (do
    act discard
    act remove : Prog Disk Unit).when (← look present)

def removeStage (pid : ℕ) : Prog Disk Unit :=
  removePackageTree (fun d => (d.staging pid).isSome)
    (fun d => d.setStage pid ((d.staging pid).map fun dir => { dir with content := none }))
    (fun d => d.setStage pid none)

def removeTrash (name : Text) : Prog Disk Unit :=
  removePackageTree (fun d => d.trash name) id
    (fun d => { d with trash := Function.update d.trash name false })

def removeVersion (app version : Text) : Prog Disk Unit :=
  removePackageTree (fun d => (d.version app version).isSome)
    (fun d => d.setVersion app version
      ((d.version app version).map fun dir => { dir with content := none }))
    (fun d => d.setVersion app version none)

structure Listing where
  staging : List ℕ
  trash : List Text
  apps : List Text
  versions : Text → List Text

/-- Go through a list; a member that fails is skipped. -/
def forEach {α : Type} (xs : List α) (f : α → Prog Disk Unit) : Prog Disk Unit :=
  match xs with
  | [] => pure ()
  | x :: xs => do
    let _ ← attempt (f x)
    forEach xs f

def cleanupWorkDirectory {α : Type} (names : List α) (safe : α → Bool)
    (remove : α → Prog Disk Unit) : Prog Disk Unit := do
  tick
  forEach names fun name => (remove name).when (safe name)

/-- Remove the versions of an application that neither link names. -/
def cleanupApp (listed : List Text) (app : Text) : Prog Disk Unit := do
  require (safeId app)
  require (← look fun d => (d.apps app).isSome)
  let current ← currentVersion app .current
  let previous ← pointerVersion app .previous
  require (← look fun d => (d.versions app).isSome)
  tick
  forEach listed fun version =>
    (removeVersion app version).when (safeVersion version ∧ version ≠ current ∧
      version ≠ previous)
  tick

def cleanupAbandonedWork (listing : Listing) : Prog Disk Unit := do
  -- without the run lock nothing is removed
  match ← attempt (tick : Prog Disk Unit) with
  | none => pure ()
  | some _ =>
    let _ ← attempt (cleanupWorkDirectory listing.staging (fun _ => true) removeStage)
    let _ ← attempt (cleanupWorkDirectory listing.trash safeRelpath removeTrash)
    let _ ← attempt (do
      tick
      forEach listing.apps fun app => cleanupApp (listing.versions app) app)

/-! ### The operations -/

/-- `C1PKG_PACKAGE_MAX` -/
def packageMax : ℕ := 32 * 1024 * 1024

/-- The fields of `struct c1pkg_package` an installation reads. -/
structure PackageEntry where
  id : Text
  version : Text
  archive : Text
  entry : Text
  size : ℕ
  deriving DecidableEq

/-- The tree that passes verification and sealing, as the extraction leaves it. -/
structure Payload where
  device : ℕ
  inode : ℕ
  content : Text
  deriving DecidableEq

def Payload.directory (payload : Payload) : Directory :=
  ⟨payload.device, payload.inode, some payload.content⟩

/-- How an installation ends that does not fail. -/
inductive InstallResult
  | ok
  | skipped
  deriving DecidableEq

/-- The arguments an installation begins by checking. -/
def validPackage (package : PackageEntry) : Prop :=
  safeId package.id ∧ safeVersion package.version ∧ safeRelpath package.archive ∧
    safeRelpath package.entry ∧ package.size ≠ 0 ∧ package.size ≤ packageMax

instance (package : PackageEntry) : Decidable (validPackage package) :=
  inferInstanceAs (Decidable (_ ∧ _))

/-- Several file operations without effect on the modelled state. -/
def ticks : ℕ → Prog Disk Unit
  | 0 => pure ()
  | n + 1 => do
    tick
    ticks n

/-- What is installed already: `-1`, `0` or `1` as `installDecision`. -/
def decideInstall (package : PackageEntry) : Prog Disk Int := do
  match ← look fun d => d.link package.id .current with
  | none => return 1
  | some _ =>
    let installed ← currentVersion package.id .current
    return installDecision installed package.version

/-- Fetch, verify, extract, inspect and seal the package below the stage of the process. -/
def stagePayload (pid : ℕ) (payload : Payload) : Prog Disk Unit := do
  let _ ← attempt (removeStage pid)
  -- the stage, the archive, its size and digest, the two listings and their checks
  ticks 8
  act fun d => d.setStage pid (some payload.directory)
  -- the extracted tree, the manifest, the entry, the reserved names, the metadata, the seal
  ticks 10

/-- No byte of the retained version differs from the verified payload. -/
def payloadEqual (pid : ℕ) (app version : Text) : Prog Disk Bool :=
  look fun d => (d.version app version).any fun retained =>
    retained.content.isSome && (d.staging pid).any fun verified =>
      verified.content == retained.content

/-- Reactivate a retained version that equals the verified package. -/
def installRetained (package : PackageEntry) (pid : ℕ) : Prog Disk InstallResult := do
  if ← payloadEqual pid package.id package.version then
    switchCurrent package.id package.version
    return .ok
  else return .skipped

/-- Move the payload to its destination under the protection of the journal. -/
def installNew (package : PackageEntry) (pid : ℕ) : Prog Disk InstallResult := do
  tick
  act fun d => d.makeApp package.id
  act fun d => d.makeVersions package.id
  ticks 4
  beginTransaction package.id package.version (fun d => d.staging pid) true
  act fun d => (d.setVersion package.id package.version (d.staging pid)).setStage pid none
  recoverTransaction
  return .ok

/-- From the decision to the switch. -/
def installBody (package : PackageEntry) (pid : ℕ) (payload : Payload) :
    Prog Disk InstallResult := do
  ticks 2
  let decision ← decideInstall package
  if decision = 0 then return .skipped
  else
    require (0 < decision)
    let retained ← look fun d => d.version package.id package.version
    tick
    stagePayload pid payload
    if retained.isSome then installRetained package pid
    else installNew package pid

def storeInstall (package : PackageEntry) (pid : ℕ) (payload : Payload)
    (before after : Listing) : Prog Disk InstallResult := do
  require (validPackage package)
  tick
  acquireLock
  cleanupAbandonedWork before
  let result ← attempt (installBody package pid payload)
  let _ ← attempt (removeStage pid)
  (cleanupAbandonedWork after).when (result = some .ok)
  get result

def storeRollback (id : Text) (listing : Listing) : Prog Disk Unit := do
  require (safeId id)
  tick
  acquireLock
  cleanupAbandonedWork listing
  let previous ← currentVersion id .previous
  switchCurrent id previous

/-- `trash` is the name made of the application, the time and the process. -/
def storeRemove (id trash : Text) (listing : Listing) : Prog Disk Unit := do
  require (safeId id)
  tick
  acquireLock
  cleanupAbandonedWork listing
  tick
  require (← look fun d => (d.apps id).isSome)
  act fun d => d.trashApp id trash
  ticks 2
  let _ ← attempt (removeTrash trash)

def storeInit (listing : Listing) : Prog Disk Unit := do
  tick
  acquireLock
  cleanupAbandonedWork listing
  return ()

/-! ### Runs -/

inductive Op
  | install (package : PackageEntry) (pid : ℕ) (payload : Payload) (before after : Listing)
  | rollback (id : Text) (listing : Listing)
  | remove (id trash : Text) (listing : Listing)
  | init (listing : Listing)

/-- One operation and how its file operations are answered. -/
structure Step where
  op : Op
  replies : List Reply

/-- The disk an operation leaves behind. -/
def exec (step : Step) (d : Disk) : Disk :=
  match step.op with
  | .install package pid payload before after =>
    (storeInstall package pid payload before after).after step.replies d
  | .rollback id listing => (storeRollback id listing).after step.replies d
  | .remove id trash listing => (storeRemove id trash listing).after step.replies d
  | .init listing => (storeInit listing).after step.replies d

end C1auncher.Package.Store
