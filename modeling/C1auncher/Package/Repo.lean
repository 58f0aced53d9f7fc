import C1auncher.Durable
import C1auncher.CString

/-!
The repository index: fetched and verified under a floor for its sequence number, and cached.

The signature check and the parser of the index are parameters: nothing here depends on what
they accept. A network transfer brings what the server offers for it; where it is cut off the
temporary file is left behind.
-/

namespace C1auncher.Package.Repo

open Durable Durable.Prog CString

/-- `ed25519_verify` of a signature, the signed data and a key, and `c1pkg_repo_parse`. -/
structure Formats (ι : Type) where
  verify : Text → Text → Text → Bool
  parse : Text → Option ι
  sequence : ι → UInt64

/-- What the state directory of the package manager holds of the repository. -/
structure Cache where
  /-- `highest-sequence` -/
  highest : Option Text
  /-- `cache/verified.v1`: a signature and the signed index in one file. -/
  verified : Option Text
  /-- `cache/index.v1` and `cache/index.v1.sig` of earlier versions. -/
  index : Option Text
  signature : Option Text
  /-- `cache/index.tmp`, `cache/signature.tmp` and `cache/verified.tmp` -/
  indexTmp : Option Text
  signatureTmp : Option Text
  bundleTmp : Option Text
  deriving DecidableEq

namespace Cache

def setHighest (text : Option Text) (d : Cache) : Cache := { d with highest := text }

def setIndexTmp (text : Option Text) (d : Cache) : Cache := { d with indexTmp := text }

def setSignatureTmp (text : Option Text) (d : Cache) : Cache := { d with signatureTmp := text }

def setBundleTmp (text : Option Text) (d : Cache) : Cache := { d with bundleTmp := text }

/-- `rename(verified.tmp, verified.v1)` -/
def commitBundle (d : Cache) : Cache := { d with verified := d.bundleTmp, bundleTmp := none }

end Cache

/-- `C1PKG_INDEX_MAX` -/
def indexMax : ℕ := 256 * 1024

def signatureSize : ℕ := 64

/-- `c1pkg_read_file` -/
def readFile (file : Cache → Option Text) (limit : ℕ) : Prog Cache Text := do
  let text ← .look file
  .get (text.filter fun text => text.length ≤ limit)

/-! ### The floor -/

/-- The number in `highest-sequence`. -/
def parseHighest (text : Text) : Option UInt64 :=
  if text.length < 2 ∨ 32 < text.length ∨ '\x00' ∈ text ∨ text.getLast? ≠ some '\n' then none
  else parseU64 text.dropLast true

/-- An absent file is a floor of zero; where even this cannot be told the file is read. -/
def loadHighestSequence : Prog Cache UInt64 := do
  match ← .attempt (.look Cache.highest) with
  | some none => pure 0
  | _ =>
    let text ← readFile Cache.highest 32
    .get (parseHighest text)

def storeHighestSequence (sequence : UInt64) : Prog Cache Unit := do
  .tick -- the temporary file
  .act (Cache.setHighest (some (decimal sequence ++ ['\n'])))
  .tick -- sync the directory

/-! ### Handing out an index -/

/-- An index handed out to the caller, with the very bytes that were checked. -/
structure Handout (ι : Type) where
  key : Text
  signature : Text
  data : Text
  index : ι
  deriving DecidableEq

variable {ι : Type} (F : Formats ι)

/-- `verify_signature`, then `parse_index_file`, of two files; both read the index. -/
def verifyFiles (key : Option Text) (signature index : Cache → Option Text) :
    Prog Cache (Handout ι) := do
  let key ← .get key
  let sig ← readFile signature signatureSize
  .require (sig.length = signatureSize)
  let data ← readFile index indexMax
  .require (F.verify sig data key)
  let data ← readFile index indexMax
  let candidate ← .get (F.parse data)
  pure ⟨key, sig, data, candidate⟩

/-- The signature and the index in `verified.v1`. -/
def verifyBundle (key : Option Text) : Prog Cache (Handout ι) := do
  let key ← .get key
  let bundle ← readFile Cache.verified (indexMax + signatureSize)
  let sig := bundle.take signatureSize
  let data := bundle.drop signatureSize
  .require (signatureSize < bundle.length ∧ F.verify sig data key)
  let candidate ← .get (F.parse data)
  pure ⟨key, sig, data, candidate⟩

/-- `c1pkg_repo_load_cached` with the configured key, if it is a sound one. -/
def loadCached (key : Option Text) : Prog Cache (Handout ι) := do
  let candidate ← (do
    match ← .attempt (.look Cache.verified) with
    | some none => verifyFiles F key Cache.signature Cache.index
    | _ => verifyBundle F key)
  let highest ← loadHighestSequence
  -- "cached repository rollback rejected"
  .require ¬(F.sequence candidate.index < highest)
  pure candidate

/-! ### Refreshing -/

/-- What a transfer of `fetch_endpoint` comes to: a file, an error of this server, or a reason
to stop altogether. -/
inductive Fetched
  | file (text : Text)
  | failed
  | stopped
  deriving DecidableEq

/-- The output is truncated first and removed when the transfer fails. -/
def fetchEndpoint (set : Option Text → Cache → Cache) (limit : ℕ) : Fetched → Prog Cache Bool
  | .file text => do
    .act (set (some []))
    if text.length ≤ limit then
      .act (set (some text))
      pure true
    else
      .act (set none)
      .fail
  | .failed => do
    .act (set none)
    pure false
  | .stopped => do
    .act (set none)
    .fail

/-- What an endpoint offers at each attempt: an index, and a signature for it. -/
abbrev Offers := ℕ → Fetched × Fetched

/-- How an attempt to fetch a pair ends. -/
inductive Attempt (ι : Type)
  | verified (candidate : Handout ι)
  | nextEndpoint
  | again

/-- One attempt at an endpoint. -/
def tryPair (key : Option Text) (highest : UInt64) (offer : Fetched × Fetched) :
    Prog Cache (Attempt ι) := do
  let _ ← .attempt (.act (Cache.setIndexTmp none))
  let _ ← .attempt (.act (Cache.setSignatureTmp none))
  .tick -- cancelled?
  if ¬(← fetchEndpoint Cache.setIndexTmp indexMax offer.1) then pure .nextEndpoint
  else if ¬(← fetchEndpoint Cache.setSignatureTmp signatureSize offer.2) then
    pure .nextEndpoint
  else
    match ← .attempt (verifyFiles F key Cache.signatureTmp Cache.indexTmp) with
    | none => pure .again
    | some candidate =>
      if highest ≤ F.sequence candidate.index then pure (.verified candidate)
      else pure .nextEndpoint -- "repository rollback rejected"

def tryEndpoint (key : Option Text) (highest : UInt64) :
    List (Fetched × Fetched) → Prog Cache (Option (Handout ι))
  | [] => pure none
  | offer :: offers => do
    match ← tryPair F key highest offer with
    | .verified candidate => pure (some candidate)
    | .nextEndpoint => pure none
    | .again =>
      .when (offers ≠ []) .tick -- the wait before the next attempt
      tryEndpoint key highest offers

/-- Three attempts at each of the endpoints, up to a verified pair. -/
def tryEndpoints (key : Option Text) (highest : UInt64) :
    List Offers → Prog Cache (Option (Handout ι))
  | [] => pure none
  | endpoint :: endpoints => do
    let found ← tryEndpoint F key highest ((List.range 3).map endpoint)
    .tick -- cancelled?
    match found with
    | some candidate => pure (some candidate)
    | none => tryEndpoints key highest endpoints

/-- Behind the lock: the pair that is verified becomes the cache, behind the floor. -/
def refreshLocked (key : Option Text) (endpoints : List Offers) : Prog Cache (Handout ι) := do
  let trusted ← .get key
  let highest ← loadHighestSequence
  let found ← tryEndpoints F (some trusted) highest endpoints
  let candidate ← .get found
  let data ← readFile Cache.indexTmp indexMax
  let sig ← readFile Cache.signatureTmp signatureSize
  .require (sig.length = signatureSize)
  let _ ← .attempt (.act (Cache.setBundleTmp none))
  .act (Cache.setBundleTmp (some (sig ++ data)))
  .when (F.sequence candidate.index > highest)
    (storeHighestSequence (F.sequence candidate.index))
  .act Cache.commitBundle
  .tick -- sync the directory
  pure candidate

def removeTemporary : Prog Cache Unit := do
  let _ ← .attempt (.act (Cache.setIndexTmp none))
  let _ ← .attempt (.act (Cache.setSignatureTmp none))
  let _ ← .attempt (.act (Cache.setBundleTmp none))
  pure ()

/-- `c1pkg_repo_refresh` from the repository, and from its fixed alternate when it has one. -/
def refresh (key : Option Text) (primary : Offers) (fallback : Option Offers) :
    Prog Cache (Handout ι) := do
  .tick -- the directories
  .tick -- `repo.lock`
  let candidate ← .attempt (refreshLocked F key (primary :: fallback.toList))
  removeTemporary
  .get candidate

/-! ### Runs -/

inductive Op
  | refresh (key : Option Text) (primary : Offers) (fallback : Option Offers)
  | loadCached (key : Option Text)

def program : Op → Prog Cache (Handout ι)
  | .refresh key primary fallback => refresh F key primary fallback
  | .loadCached key => loadCached F key

/-- A run, complete or cut short: what the file operations in it come to. -/
structure Step where
  op : Op
  replies : List Reply

def exec (step : Step) (d : Cache) : Cache := (program F step.op).after step.replies d

def handed (step : Step) (d : Cache) : Option (Handout ι) :=
  match (program F step.op step.replies d).1 with
  | .done h => some h
  | _ => none

/-- All that a sequence of runs hands out, in this order. -/
def handouts : Cache → List Step → List (Handout ι)
  | _, [] => []
  | d, step :: steps => (handed F step d).toList ++ handouts (exec F step d) steps

end C1auncher.Package.Repo
