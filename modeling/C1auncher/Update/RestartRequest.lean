import C1auncher.CString
import C1auncher.Durable

/-!
The request to restart into an update: it is written under one name and consumed under another.

A consume moves the request aside before it reads it, so that no two of them take the same one. What
it does not accept stays aside, and the next consume reads that instead of a newer request.
-/

namespace C1auncher.Update.RestartRequest

open CString Durable Durable.Prog List Returns

/-! ### Files -/

inductive Kind
  | regular
  | directory
  | other
  deriving DecidableEq

/-- What `lstat` and `read` find under a name, as far as it is looked at. -/
structure Node where
  kind : Kind
  links : ℕ
  mode : ℕ
  bytes : Text
  deriving DecidableEq

/-- Where a file comes from: it was there before, under one of the two names, or it was put in place
by a write. Nothing reads this. -/
inductive Origin
  | found (aside : Bool)
  | write (n : ℕ)
  deriving DecidableEq

structure File where
  node : Node
  origin : Origin
  deriving DecidableEq

/-- The two names of a request. What has been put in place and what has been removed is only
recorded. -/
structure Names where
  request : Option File
  consuming : Option File
  written : List Text
  removed : List File
  deriving DecidableEq

/-- Whatever is there at first. -/
def start (request consuming : Option Node) : Names where
  request := request.map (⟨·, .found false⟩)
  consuming := consuming.map (⟨·, .found true⟩)
  written := []
  removed := []

/-- `C1_UPDATE_REQUEST_DIGEST_SIZE` -/
def digestSize : ℕ := 64

/-- `C1_UPDATE_REQUEST_FILE_SIZE` -/
def fileSize : ℕ := 65

/-! ### Writing -/

/-- The file that `c1_update_request_write` makes. -/
def requestNode (digest : Text) : Node := ⟨.regular, 1, 0o600, digest ++ ['\n']⟩

namespace Names

def put (digest : Text) (d : Names) : Names := { d with
  request := some ⟨requestNode digest, .write d.written.length⟩
  written := d.written ++ [digest] }

/-- `rename` to the other name. -/
def setAside (d : Names) : Names := { d with request := none, consuming := d.request }

/-- `unlink` of the other name. -/
def remove (d : Names) : Names := { d with
  consuming := none
  removed := d.consuming.toList ++ d.removed }

end Names

/-- `c1_secure_atomic_write` of a request: a temporary file with its mode, its text synced and
closed, renamed into place. -/
def secureAtomicWrite (digest : Text) : Prog Names Unit := do
  .tick
  .orElse (do
    .tick
    .tick
    .tick
    .tick
    let d ← .look id
    -- a file does not replace a directory
    .require (∀ file ∈ d.request, file.node.kind ≠ .directory)
    .act (Names.put digest)) .tick
  .tick

/-- `c1_update_request_write` -/
def updateRequestWrite (digest : Text) : Prog Names Unit := do
  .require (validDigest digest)
  secureAtomicWrite digest

/-! ### Reading -/

/-- `c1_secure_read_file` -/
def secureReadFile (node : Node) (maximumSize exactSize : ℕ) : Prog Names Text := do
  .tick
  .tick
  .require (node.kind = .regular ∧ node.links = 1 ∧ node.mode &&& 0o022 = 0 ∧
    node.bytes.length ≤ maximumSize)
  .require (node.bytes.length = exactSize)
  .tick
  .tick
  pure node.bytes

/-- `c1_update_request_read` -/
def updateRequestRead (name : Names → Option File) : Prog Names Text := do
  let file ← .get (← .look name)
  .require (file.node.kind = .regular ∧ file.node.links = 1 ∧ file.node.mode = 0o600)
  let data ← secureReadFile file.node fileSize fileSize
  .require (data.length = fileSize ∧ data[digestSize]? = some '\n')
  .require (validDigest (data.take digestSize))
  pure (data.take digestSize)

/-- `c1_update_request_consume` -/
def updateRequestConsume (expectedDigest : Option Text) : Prog Names Unit := do
  match ← .look Names.consuming with
  | some _ => pure ()
  | none => do
    let request ← .look Names.request
    .require request.isSome
    .act Names.setAside
    .tick
  let digest ← updateRequestRead Names.consuming
  .require (∀ expected ∈ expectedDigest, digest = expected)
  .act Names.remove
  .tick

/-! ### Calls -/

inductive Call
  | write (digest : Text)
  | consume (expectedDigest : Option Text)
  deriving DecidableEq

/-- The names, and what the consumes that returned success had been called with and had taken, the
last one first. -/
structure Site where
  names : Names
  taken : List (Option Text × File)
  deriving DecidableEq

/-- One call, with the replies to its file operations. -/
def exec : Call × List Reply → Site → Site
  | (.write digest, replies), s => { s with
      names := (updateRequestWrite digest).after replies s.names }
  | (.consume expected, replies), s =>
    match updateRequestConsume expected replies s.names with
    | (.done _, d, _) => ⟨d, d.removed.head?.toList.map (expected, ·) ++ s.taken⟩
    | (_, d, _) => { s with names := d }

/-! ### What a read accepts -/

def Node.digest (node : Node) : Option Text :=
  if node.kind = .regular ∧ node.links = 1 ∧ node.mode = 0o600 ∧ node.bytes.length = fileSize ∧
      node.bytes[digestSize]? = some '\n' ∧ validDigest (node.bytes.take digestSize) then
    some (node.bytes.take digestSize)
  else none

lemma length_of_validDigest {digest : Text} (h : validDigest digest) :
    digest.length = digestSize := by
  simp only [validDigest, Bool.and_eq_true, beq_iff_eq] at h
  exact h.1

lemma digest_requestNode {digest : Text} (h : validDigest digest) :
    (requestNode digest).digest = some digest := by
  have hlength := length_of_validDigest h
  have htake : (digest ++ ['\n']).take digestSize = digest := by
    rw [← hlength, take_left]
  have hend : (digest ++ ['\n'])[digestSize]? = some '\n' := by
    rw [← hlength]
    simp
  have hvalid : validDigest ((digest ++ ['\n']).take digestSize) := by rwa [htake]
  rw [Node.digest, if_pos]
  · exact congrArg some htake
  · refine ⟨rfl, rfl, rfl, ?_, hend, hvalid⟩
    simp [requestNode, hlength, digestSize, fileSize]

section
variable {d : Names} {name : Names → Option File} {file : File} {digest : Text}

lemma wp_updateRequestRead : wp (updateRequestRead name)
    (fun digest d' => d' = d ∧ ∃ file, name d = some file ∧ file.node.digest = some digest)
    (· = d) (· = d) d := by
  refine wp_bind (wp_look ?_ rfl rfl)
  refine wp_bind (wp_get (fun file hfile => ?_) fun _ => rfl)
  refine wp_bind (wp_require (fun ⟨hkind, hlinks, hmode⟩ => ?_) fun _ => rfl)
  refine wp_bind (wp_mono (Q := fun data d' => d' = d ∧ data = file.node.bytes) ?_
    (fun data d' => ?_) (fun _ h => h) fun _ h => h)
  · refine wp_bind (wp_tick (wp_bind (wp_tick (wp_bind (wp_require (fun _ => ?_)
      fun _ => rfl)) rfl rfl)) rfl rfl)
    refine wp_bind (wp_require (fun _ => ?_) fun _ => rfl)
    exact wp_bind (wp_tick (wp_bind (wp_tick (wp_pure ⟨rfl, rfl⟩) rfl rfl)) rfl rfl)
  rintro ⟨rfl, rfl⟩
  refine wp_bind (wp_require (fun ⟨hlength, hend⟩ => ?_) fun _ => rfl)
  refine wp_bind (wp_require (fun hvalid => ?_) fun _ => rfl)
  exact wp_pure ⟨rfl, file, hfile,
    if_pos ⟨hkind, hlinks, hmode, hlength, hend, hvalid⟩⟩

lemma returns_updateRequestRead (hfile : name d = some file)
    (hdigest : file.node.digest = some digest) : Returns (updateRequestRead name) d digest d := by
  obtain ⟨⟨hkind, hlinks, hmode, hlength, hend, hvalid⟩, hdigest⟩ :=
    Option.ite_none_right_eq_some.mp hdigest
  obtain rfl := Option.some_inj.mp hdigest
  refine look.bind ((get hfile).bind ?_)
  refine (require ⟨hkind, hlinks, hmode⟩).bind ?_
  have hdata : Returns (secureReadFile file.node fileSize fileSize) d file.node.bytes d := by
    refine tick.bind (tick.bind ?_)
    refine (require ⟨hkind, hlinks, by rw [hmode]; decide, hlength.le⟩).bind ?_
    exact (require hlength).bind (tick.bind (tick.bind pure))
  exact hdata.bind <| (require ⟨hlength, hend⟩).bind <|
    (require hvalid).bind pure

end

/-! ### What a call does -/

def Names.isolated (d : Names) : Names := if d.consuming.isSome then d else d.setAside

inductive Written (digest : Text) (d : Names) : Names → Prop
  | unchanged : Written digest d d
  | put (valid : validDigest digest) : Written digest d (d.put digest)

lemma wp_updateRequestWrite (digest : Text) (d : Names) :
    wp (updateRequestWrite digest) (fun _ => Written digest d) (Written digest d)
      (Written digest d) d := by
  refine wp_bind (wp_require (fun hvalid => ?_) fun _ => .unchanged)
  refine wp_bind (wp_tick ?_ .unchanged .unchanged)
  have hput := Written.put (d := d) hvalid
  refine wp_bind (wp_orElse ?_)
  have hcleanup : wp (.tick : Prog Names Unit) (fun _ => Written digest d) (Written digest d)
      (Written digest d) d := wp_tick .unchanged .unchanged .unchanged
  refine wp_bind (wp_tick ?_ hcleanup .unchanged)
  refine wp_bind (wp_tick ?_ hcleanup .unchanged)
  refine wp_bind (wp_tick ?_ hcleanup .unchanged)
  refine wp_bind (wp_tick ?_ hcleanup .unchanged)
  refine wp_bind (wp_look ?_ hcleanup .unchanged)
  refine wp_bind (wp_require (fun _ => ?_) fun _ => hcleanup)
  exact wp_act (wp_tick hput hput hput) hcleanup .unchanged

/-- What a consume removes. -/
structure Accepts (expected : Option Text) (d : Names) (file : File) (digest : Text) : Prop where
  aside : d.isolated.consuming = some file
  read : file.node.digest = some digest
  expects : ∀ e ∈ expected, digest = e

/-- Where a consume ends that does not return success. -/
inductive Left (expected : Option Text) (d : Names) : Names → Prop
  | unchanged : Left expected d d
  | aside : Left expected d d.isolated
  | removed {file : File} {digest : Text} (h : Accepts expected d file digest) :
      Left expected d d.isolated.remove

lemma wp_updateRequestConsume (expected : Option Text) (d : Names) :
    wp (updateRequestConsume expected)
      (fun _ d' => d' = d.isolated.remove ∧ ∃ file digest, Accepts expected d file digest)
      (Left expected d) (Left expected d) d := by
  have hread : ∀ d₁, d₁ = d.isolated → wp (do
      let digest ← updateRequestRead Names.consuming
      .require (∀ e ∈ expected, digest = e)
      .act Names.remove
      .tick : Prog Names Unit)
      (fun _ d' => d' = d.isolated.remove ∧ ∃ file digest, Accepts expected d file digest)
      (Left expected d) (Left expected d) d₁ := by
    rintro _ rfl
    refine wp_bind (wp_mono wp_updateRequestRead (fun digest d' => ?_)
      (fun _ h => h ▸ .aside) fun _ h => h ▸ .aside)
    rintro ⟨rfl, file, hfile, hdigest⟩
    refine wp_bind (wp_require (fun hexpected => ?_) fun _ => .aside)
    have haccepts : Accepts expected d file digest := ⟨hfile, hdigest, hexpected⟩
    refine wp_bind (wp_act ?_ .aside .aside)
    exact wp_tick ⟨rfl, file, digest, haccepts⟩ (.removed haccepts) (.removed haccepts)
  refine wp_bind (wp_look ?_ .unchanged .unchanged)
  cases haside : d.consuming with
  | some file =>
    have hsame : d.isolated = d := if_pos (by rw [haside]; rfl)
    exact hread d hsame.symm
  | none =>
    have hmoved : d.isolated = d.setAside := if_neg (by rw [haside]; exact Bool.false_ne_true)
    refine wp_bind (wp_look ?_ .unchanged .unchanged)
    refine wp_bind (wp_require (fun _ => ?_) fun _ => .unchanged)
    have hleft : Left expected d d.setAside := hmoved ▸ .aside
    refine wp_bind (wp_act ?_ .unchanged .unchanged)
    exact wp_bind (wp_tick (hread _ hmoved.symm) hleft hleft)

lemma exec_write (digest : Text) (replies : List Reply) (s : Site) :
    ∃ d, Written digest s.names d ∧ exec (.write digest, replies) s = ⟨d, s.taken⟩ :=
  ⟨_, wp_after (wp_updateRequestWrite digest s.names) replies, rfl⟩

lemma exec_consume (expected : Option Text) (replies : List Reply) (s : Site) :
    (∃ d, Left expected s.names d ∧ exec (.consume expected, replies) s = ⟨d, s.taken⟩) ∨
      ∃ file digest, Accepts expected s.names file digest ∧
        exec (.consume expected, replies) s =
          ⟨s.names.isolated.remove, (expected, file) :: s.taken⟩ := by
  have hends := wp_updateRequestConsume expected s.names replies
  rw [exec]
  split
  · rename_i d rs hrun
    rw [hrun] at hends
    obtain ⟨rfl, file, digest, haccepts⟩ := hends
    refine .inr ⟨file, digest, haccepts, ?_⟩
    simp [Names.remove, haccepts.aside]
  · rename_i outcome d rs hnot hrun
    rw [hrun] at hends
    cases outcome with
    | done u => exact absurd rfl (hnot u)
    | failed => exact .inl ⟨d, hends, rfl⟩
    | died => exact .inl ⟨d, hends, rfl⟩

/-! ### No request is taken twice -/

def Names.files (d : Names) : List File := d.removed ++ d.request.toList ++ d.consuming.toList

/-- A file that a write has put in place is still as it was written. -/
def Fits (written : List Text) (file : File) : Prop :=
  ∀ n, file.origin = .write n → ∃ digest, written[n]? = some digest ∧ validDigest digest ∧
    file.node = requestNode digest

structure Inv (d : Names) : Prop where
  once : (d.files.map File.origin).Nodup
  fits : ∀ file ∈ d.files, Fits d.written file

namespace Inv

variable {d : Names}

lemma start (request consuming : Option Node) : Inv (start request consuming) where
  once := by cases request <;> cases consuming <;> simp [Names.files, RestartRequest.start]
  fits := by
    have hfound : ∀ file ∈ (RestartRequest.start request consuming).files,
        ∃ aside, file.origin = .found aside := by
      cases request <;> cases consuming <;> simp [Names.files, RestartRequest.start]
    intro file hfile n horigin
    obtain ⟨aside, haside⟩ := hfound file hfile
    cases haside.symm.trans horigin

lemma put (h : Inv d) {digest : Text} (hvalid : validDigest digest) : Inv (d.put digest) := by
  have hkept : (d.removed ++ d.consuming.toList).Sublist d.files :=
    (sublist_append_left _ _).append (Sublist.refl _)
  have hnew : ∀ file ∈ d.files, file.origin ≠ .write d.written.length := by
    intro file hfile horigin
    obtain ⟨_, hwritten, -⟩ := h.fits file hfile _ horigin
    simp at hwritten
  have hperm : (d.put digest).files.Perm
      (⟨requestNode digest, .write d.written.length⟩ :: (d.removed ++ d.consuming.toList)) := by
    simp only [Names.files, Names.put, Option.toList_some, append_assoc, singleton_append]
    exact perm_middle
  constructor
  · refine (hperm.map File.origin).nodup_iff.mpr ?_
    rw [map_cons, nodup_cons]
    refine ⟨?_, (hkept.map File.origin).nodup h.once⟩
    rw [mem_map]
    rintro ⟨file, hfile, horigin⟩
    exact hnew file (hkept.subset hfile) horigin
  · intro file hfile n horigin
    rcases List.mem_cons.mp (hperm.mem_iff.mp hfile) with rfl | hold
    · cases horigin
      exact ⟨digest, by simp [Names.put], hvalid, rfl⟩
    obtain ⟨digest', hwritten, hrest⟩ := h.fits file (hkept.subset hold) n horigin
    refine ⟨digest', ?_, hrest⟩
    rw [Names.put, getElem?_append_left (List.getElem?_eq_some_iff.mp hwritten).1, hwritten]

lemma isolated (h : Inv d) : Inv d.isolated := by
  rw [Names.isolated]
  split_ifs with haside
  · exact h
  have hfiles : d.setAside.files = d.files := by
    rw [Option.not_isSome_iff_eq_none] at haside
    simp [Names.files, Names.setAside, haside]
  exact ⟨hfiles ▸ h.once, hfiles ▸ h.fits⟩

lemma remove (h : Inv d) : Inv d.remove := by
  have hperm : d.remove.files.Perm d.files := by
    simp only [Names.files, Names.remove, Option.toList_none, append_nil, append_assoc]
    rw [← append_assoc d.removed]
    exact perm_append_comm
  exact ⟨(hperm.map File.origin).nodup_iff.mpr h.once,
    fun file hfile => h.fits file (hperm.mem_iff.mp hfile)⟩

end Inv

/-- What has been taken, beside the names. -/
structure Sound (s : Site) : Prop where
  names : Inv s.names
  removed : (s.taken.map Prod.snd).Sublist s.names.removed
  accepted : ∀ p ∈ s.taken, ∃ digest, p.2.node.digest = some digest ∧ ∀ e ∈ p.1, digest = e

lemma removed_isolated (d : Names) : d.isolated.removed = d.removed := by
  rw [Names.isolated]
  split_ifs <;> rfl

lemma Left.names {expected : Option Text} {d d' : Names} (h : Left expected d d') (hd : Inv d) :
    Inv d' ∧ d.removed.Sublist d'.removed := by
  cases h with
  | unchanged => exact ⟨hd, .refl _⟩
  | aside => exact ⟨hd.isolated, (removed_isolated d).symm ▸ .refl _⟩
  | removed h =>
    refine ⟨hd.isolated.remove, ?_⟩
    rw [Names.remove, removed_isolated]
    exact sublist_append_right _ _

lemma Sound.exec {s : Site} (h : Sound s) (c : Call × List Reply) : Sound (exec c s) := by
  obtain ⟨digest | expected, replies⟩ := c
  · obtain ⟨d, hwritten, heq⟩ := exec_write digest replies s
    rw [heq]
    cases hwritten with
    | unchanged => exact h
    | put hvalid => exact ⟨h.names.put hvalid, h.removed, h.accepted⟩
  · obtain ⟨d, hleft, heq⟩ | ⟨file, digest, haccepts, heq⟩ := exec_consume expected replies s
    · rw [heq]
      obtain ⟨hnames, hremoved⟩ := hleft.names h.names
      exact ⟨hnames, h.removed.trans hremoved, h.accepted⟩
    rw [heq]
    refine ⟨h.names.isolated.remove, ?_, ?_⟩
    · rw [Names.remove, haccepts.aside, removed_isolated]
      exact h.removed.cons_cons file
    · exact List.forall_mem_cons.mpr ⟨⟨digest, haccepts.read, haccepts.expects⟩, h.accepted⟩

lemma Sound.once {s : Site} (h : Sound s) : (s.taken.map (·.2.origin)).Nodup := by
  have hsub : (s.taken.map Prod.snd).Sublist s.names.files := by
    rw [Names.files, append_assoc]
    exact h.removed.trans (sublist_append_left _ _)
  have hmap : s.taken.map (·.2.origin) = (s.taken.map Prod.snd).map File.origin := by
    rw [map_map]
    rfl
  rw [hmap]
  exact (hsub.map File.origin).nodup h.names.once

/-! ### A request in place is taken, or never -/

def Clear (d : Names) (digest : Text) : Prop :=
  ∀ file ∈ d.consuming, file.node.digest = some digest

/-- A consume in which every file operation succeeds. -/
def again (digest : Text) (d : Names) : Names := (updateRequestConsume (some digest)).after [] d

/-- One consume after the other, none of them cut short, comes to take the file. -/
def Delivered (d : Names) (file : File) (digest : Text) : Prop :=
  ∃ n, (updateRequestConsume (some digest) [] ((again digest)^[n] d)).1 = .done () ∧
    (again digest ((again digest)^[n] d)).removed.head? = some file

section
variable {d : Names} {file : File} {digest : Text}

lemma stuck_consume (haside : d.consuming = some file) (hother : file.node.digest ≠ some digest)
    (replies : List Reply) : (updateRequestConsume (some digest) replies d).1 ≠ .done () ∧
      (updateRequestConsume (some digest)).after replies d = d := by
  have hsame : d.isolated = d := if_pos (by rw [haside]; rfl)
  have hnot : ∀ other digest', ¬Accepts (some digest) d other digest' := by
    rintro other digest' ⟨hfile, hread, hexpects⟩
    rw [hsame, haside] at hfile
    obtain rfl := Option.some_inj.mp hfile
    exact hother (hread.trans (congrArg some (hexpects digest rfl)))
  have hleft : ∀ d', Left (some digest) d d' → d' = d := by
    rintro _ (_ | _ | haccepts)
    · rfl
    · exact hsame
    · exact absurd haccepts (hnot _ _)
  have hends : wp (updateRequestConsume (some digest)) (fun _ _ => False) (· = d) (· = d) d :=
    wp_mono (wp_updateRequestConsume (some digest) d)
      (fun _ _ ⟨_, other, digest', haccepts⟩ => hnot other digest' haccepts) hleft hleft
  refine ⟨fun hdone => wp_done hends hdone, ?_⟩
  exact wp_after (wp_mono hends (fun _ _ => False.elim) (fun _ h => h) fun _ h => h) replies

lemma returns_updateRequestConsume {expected : Option Text}
    (h : Accepts expected d file digest) :
    Returns (updateRequestConsume expected) d () d.isolated.remove := by
  have hread : Returns (do
      let digest ← updateRequestRead Names.consuming
      .require (∀ e ∈ expected, digest = e)
      .act Names.remove
      .tick : Prog Names Unit) d.isolated () d.isolated.remove :=
    (returns_updateRequestRead h.aside h.read).bind <| (require h.expects).bind <|
      act.bind tick
  refine look.bind ?_
  cases haside : d.consuming with
  | some other =>
    have hsame : d.isolated = d := if_pos (by rw [haside]; rfl)
    rw [hsame] at hread ⊢
    exact hread
  | none =>
    have hmoved : d.isolated = d.setAside := if_neg (by rw [haside]; exact Bool.false_ne_true)
    have hrequest : d.setAside.consuming = some file := hmoved ▸ h.aside
    have hsome : d.request.isSome := Option.isSome_of_eq_some hrequest
    rw [hmoved] at hread ⊢
    exact look.bind ((require hsome).bind (act.bind
      (tick.bind hread)))

lemma delivered_of_accepts (h : Accepts (some digest) d file digest) :
    (updateRequestConsume (some digest) [] d).1 = .done () ∧
      again digest d = d.isolated.remove ∧ (again digest d).removed.head? = some file := by
  have hrun := returns_updateRequestConsume h
  have hagain : again digest d = d.isolated.remove := congrArg (·.2.1) hrun
  refine ⟨congrArg (·.1) hrun, hagain, ?_⟩
  rw [hagain, Names.remove, h.aside]
  rfl

/-- **A request in place is taken in the end exactly when nothing is in its way.** -/
lemma delivered_iff (hrequest : d.request = some file) (hread : file.node.digest = some digest) :
    Delivered d file digest ↔ Clear d digest := by
  constructor
  · rintro ⟨n, hdone, -⟩ other haside
    by_contra hother
    obtain ⟨hnever, hstays⟩ := stuck_consume haside hother []
    have hsame : (again digest)^[n] d = d := Function.iterate_fixed hstays n
    rw [hsame] at hdone
    exact hnever hdone
  · intro hclear
    cases haside : d.consuming with
    | none =>
      have hmoved : d.isolated = d.setAside := if_neg (by rw [haside]; exact Bool.false_ne_true)
      have haccepts : Accepts (some digest) d file digest :=
        ⟨by rw [hmoved]; exact hrequest, hread, fun _ h => Option.some_inj.mp h⟩
      obtain ⟨hdone, -, hhead⟩ := delivered_of_accepts haccepts
      exact ⟨0, hdone, hhead⟩
    | some other =>
      -- the first consume takes what is aside, the second the request
      have hsame : d.isolated = d := if_pos (by rw [haside]; rfl)
      have hother : Accepts (some digest) d other digest :=
        ⟨by rw [hsame]; exact haside, hclear other haside, fun _ h => Option.some_inj.mp h⟩
      obtain ⟨-, hagain, -⟩ := delivered_of_accepts hother
      rw [hsame] at hagain
      have hmoved : (again digest d).isolated = (again digest d).setAside := by
        rw [hagain]
        rfl
      have haccepts : Accepts (some digest) (again digest d) file digest := by
        refine ⟨?_, hread, fun _ h => Option.some_inj.mp h⟩
        rw [hmoved, hagain]
        exact hrequest
      obtain ⟨hdone, -, hhead⟩ := delivered_of_accepts haccepts
      exact ⟨1, hdone, hhead⟩

end

/-- Nothing is in the way of the request that is in place. -/
def Open (d : Names) : Prop :=
  ∀ file ∈ d.request, ∀ digest, file.node.digest = some digest → Clear d digest

/-- A write finds nothing aside but a request with the same digest. -/
def Careful (c : Call × List Reply) (s : Site) : Prop :=
  ∀ digest, c.1 = .write digest → Clear s.names digest

lemma Open.isolated {d : Names} (h : Open d) : Open d.isolated := by
  rw [Names.isolated]
  split_ifs
  · exact h
  · exact nofun

lemma Open.exec {s : Site} (h : Open s.names) {c : Call × List Reply} (hc : Careful c s) :
    Open (exec c s).names := by
  have hremove : ∀ d : Names, Open d.remove := fun _ _ _ _ _ _ => nofun
  obtain ⟨digest | expected, replies⟩ := c
  · obtain ⟨d, hwritten, heq⟩ := exec_write digest replies s
    rw [heq]
    cases hwritten with
    | unchanged => exact h
    | put hvalid =>
      rintro _ ⟨⟩ digest' hdigest
      obtain rfl := Option.some_inj.mp ((digest_requestNode hvalid).symm.trans hdigest)
      exact hc digest rfl
  · obtain ⟨d, hleft, heq⟩ | ⟨file, digest, -, heq⟩ := exec_consume expected replies s
    · rw [heq]
      cases hleft with
      | unchanged => exact h
      | aside => exact h.isolated
      | removed _ => exact hremove _
    · rw [heq]
      exact hremove _

/-- **The hand-over of update requests**, over every sequence of calls, each cut short anywhere,
from whatever stands under the two names. No file is taken twice, and what is taken is what was
written and has the digest that was expected. A request in place with its digest is taken in the
end exactly when what is aside, if anything, has that digest too; so it is in every run whose
writes find nothing aside but a request with their own digest. -/
theorem update_requests (request consuming : Option Node) (calls : List (Call × List Reply)) :
    let s := final exec ⟨start request consuming, []⟩ calls
    (s.taken.map (·.2.origin)).Nodup ∧
    (∀ p ∈ s.taken, ∃ digest, p.2.node.digest = some digest ∧ (∀ e ∈ p.1, digest = e) ∧
      ∀ n, p.2.origin = .write n → s.names.written[n]? = some digest) ∧
    (∀ file digest, s.names.request = some file → file.node.digest = some digest →
      (Delivered s.names file digest ↔ Clear s.names digest)) ∧
    (Open (start request consuming) → Meets exec Careful ⟨start request consuming, []⟩ calls →
      ∀ file digest, s.names.request = some file → file.node.digest = some digest →
        Delivered s.names file digest) := by
  intro s
  have hsound : Sound s := final_inv ⟨.start request consuming, .refl _, nofun⟩
    fun c _ _ h => h.exec c
  refine ⟨hsound.once, fun p hp => ?_, fun file digest => delivered_iff, ?_⟩
  · obtain ⟨digest, hread, hexpects⟩ := hsound.accepted p hp
    refine ⟨digest, hread, hexpects, fun n horigin => ?_⟩
    have hfile : p.2 ∈ s.names.files := by
      rw [Names.files, append_assoc]
      exact mem_append_left _ (hsound.removed.subset (mem_map_of_mem hp))
    obtain ⟨digest', hwritten, hvalid, hnode⟩ := hsound.names.fits p.2 hfile n horigin
    rw [hnode, digest_requestNode hvalid] at hread
    exact hread ▸ hwritten
  · intro hopen hcareful file digest hrequest hread
    have hend : Open s.names := final_inv_of_meets (I := fun s => Open s.names) hopen hcareful
      fun c t hc ht => ht.exec hc
    exact (delivered_iff hrequest hread).mpr (hend file hrequest digest hread)

def oldDigest : Text := List.replicate 64 '0'

def newDigest : Text := List.replicate 64 'f'

theorem update_requests_once :
    Delivered (final exec ⟨start none none, []⟩ [(.write newDigest, [])]).names
      ⟨requestNode newDigest, .write 0⟩ newDigest := by
  refine (update_requests none none [(.write newDigest, [])]).2.2.2 nofun ?_ _ _ (by decide +kernel)
    (by decide +kernel)
  exact ⟨fun _ _ => nofun, trivial⟩

lemma exec_stuck {s : Site} {file : File} {digest : Text} (haside : s.names.consuming = some file)
    (hother : file.node.digest ≠ some digest) (replies : List Reply) :
    exec (.consume (some digest), replies) s = s := by
  obtain ⟨hnever, hstays⟩ := stuck_consume haside hother replies
  rw [exec]
  split
  · rename_i d rs hrun
    exact absurd (congrArg (·.1) hrun) hnever
  rename_i hrun
  have hnames := (congrArg (·.2.1) hrun).symm.trans hstays
  exact congrArg (⟨·, s.taken⟩ : Names → Site) hnames

/-- **A refused request keeps every later one from being taken**: once a consume has expected
another digest, what it refused stays aside, and the request for the expected digest that is then
written is never taken. -/
theorem update_requests_blocked :
    let s := final exec ⟨start none none, []⟩
      [(.write oldDigest, []), (.consume (some newDigest), []), (.write newDigest, [])]
    s.names.request = some ⟨requestNode newDigest, .write 1⟩ ∧
      ∀ later : List (List Reply),
        (final exec s (later.map (.consume (some newDigest), ·))).taken = [] := by
  intro s
  have haside : s.names.consuming = some ⟨requestNode oldDigest, .write 0⟩ := by decide +kernel
  refine ⟨by decide +kernel, fun later => ?_⟩
  have hsame : final exec s (later.map (.consume (some newDigest), ·)) = s :=
    final_inv (I := (· = s)) rfl fun c hc t ht => by
      obtain ⟨replies, -, rfl⟩ := List.mem_map.mp hc
      rw [ht]
      exact exec_stuck haside (by decide +kernel) replies
  rw [hsame]
  decide +kernel

end C1auncher.Update.RestartRequest
