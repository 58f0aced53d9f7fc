import C1auncher.Durable
import C1auncher.CString

/-!
The update state store: the transitions of a state, the text a state is kept in, and the
directory tree of immutable generations with a link to the selected one.

The store is what the files hold. Every directory and file in it was made by this program
with its private mode, so the checks of type, owner and mode pass and are left out.
-/

namespace C1auncher.Update.StateStore

open Durable CString

/-! ### States and transitions -/

inductive Phase
  | idle
  | downloading
  | verified
  | prepared
  | pendingBoot
  | confirmed
  deriving DecidableEq

def Phase.index : Phase → ℕ
  | .idle => 0
  | .downloading => 1
  | .verified => 2
  | .prepared => 3
  | .pendingBoot => 4
  | .confirmed => 5

def Phase.all : List Phase :=
  [.idle, .downloading, .verified, .prepared, .pendingBoot, .confirmed]

structure State where
  generation : UInt64
  phase : Phase
  sequence : UInt64
  securityEpoch : UInt64
  release : Text
  digest : Text
  deriving DecidableEq

/-- What `memset` and `C1_UPDATE_IDLE` leave: the state of a store nothing was committed to. -/
def State.initial : State := ⟨0, .idle, 0, 0, [], []⟩

def phaseName : Phase → Text
  | .idle => ['i', 'd', 'l', 'e']
  | .downloading => ['d', 'o', 'w', 'n', 'l', 'o', 'a', 'd', 'i', 'n', 'g']
  | .verified => ['v', 'e', 'r', 'i', 'f', 'i', 'e', 'd']
  | .prepared => ['p', 'r', 'e', 'p', 'a', 'r', 'e', 'd']
  | .pendingBoot => ['p', 'e', 'n', 'd', 'i', 'n', 'g', '-', 'b', 'o', 'o', 't']
  | .confirmed => ['c', 'o', 'n', 'f', 'i', 'r', 'm', 'e', 'd']

def phaseParse (text : Text) : Option Phase := Phase.all.find? fun p => phaseName p == text

def identityValid (previous : Option State) (sequence securityEpoch : UInt64)
    (release digest : Text) : Bool :=
  if sequence == 0 || securityEpoch == 0 || !safeToken release || !validDigest digest then false
  else match previous with
    | none => true
    | some previous =>
      if previous.sequence == 0 then true
      else if sequence < previous.sequence || securityEpoch < previous.securityEpoch then false
      else !(sequence == previous.sequence &&
        (digest != previous.digest || release != previous.release))

/-- A step forward, back from a pending boot to prepared, or from confirmed to a download. -/
def phaseAllowed (current next : Phase) : Bool :=
  next.index == current.index + 1 || (current == .pendingBoot && next == .prepared) ||
    (current == .confirmed && next == .downloading)

def updateTransition (previous : Option State) (nextPhase : Phase)
    (sequence securityEpoch : UInt64) (release digest : Text) (failed : Bool) : Option State :=
  let current := (previous.map State.phase).getD .idle
  if previous.any (fun p => p.generation == 0xffffffffffffffff) then none
  else if failed then
    match previous with
    | none => none
    | some previous =>
      if current == .idle || nextPhase != .idle then none
      else some { previous with generation := previous.generation + 1, phase := .idle }
  else if !phaseAllowed current nextPhase ||
      !identityValid previous sequence securityEpoch release digest then none
  else some
    { generation := match previous with
        | none => 1
        | some previous => previous.generation + 1
      phase := nextPhase
      sequence := sequence
      securityEpoch := securityEpoch
      release := release
      digest := digest }

/-! ### The text of a state -/

def magic : Text := ['C', '1', 'C', 'O', 'R', 'E', '-', 'S', 'T', 'A', 'T', 'E', ' ', '1']

/-- `C1_STATE_FILE_MAX` -/
def stateFileMax : ℕ := 1024

def tagLine (tag : Char) (value : Text) : Text := tag :: '\t' :: value ++ ['\n']

/-- The text `c1_update_state_commit` writes. -/
def stateText (next : State) : Text :=
  magic ++ ['\n'] ++ tagLine 'P' (phaseName next.phase) ++ tagLine 'S' (decimal next.sequence) ++
    tagLine 'E' (decimal next.securityEpoch) ++ tagLine 'R' next.release ++
    tagLine 'D' next.digest

def forbidden (c : Char) : Bool := (c < ' ' && c != '\t') || c > '~'

/-- The lines of a text of at most six nonempty lines, each ended by a newline. -/
def splitLines : Text → Text → List Text → Option (List Text)
  | [], line, lines => if line == [] then some lines else none
  | c :: data, line, lines =>
    if c == '\n' then
      if line == [] || 6 ≤ lines.length then none else splitLines data [] (lines ++ [line])
    else if forbidden c then none
    else splitLines data (line ++ [c]) lines

/-- The value of a line with this tag; a second tab is refused. -/
def taggedValue (tag : Char) : Text → Option Text
  | c :: '\t' :: value => if c == tag && !value.contains '\t' then some value else none
  | _ => none

def parseStateData (data : Text) (generation : UInt64) : Option State := do
  let lines ← splitLines data [] []
  match lines with
  | [l0, l1, l2, l3, l4, l5] =>
    guard (l0 = magic)
    let phase ← (taggedValue 'P' l1).bind phaseParse
    let sequence ← (taggedValue 'S' l2).bind (parseU64 · true)
    let securityEpoch ← (taggedValue 'E' l3).bind (parseU64 · true)
    let release ← taggedValue 'R' l4
    guard (safeToken release)
    let digest ← taggedValue 'D' l5
    guard (validDigest digest)
    some ⟨generation, phase, sequence, securityEpoch, release, digest⟩
  | _ => none

/-! ### The store -/

/-- A generation directory, or the draft of one: its `state.v1`, once it is written. -/
structure Generation where
  stateFile : Option Text
  deriving DecidableEq

/-- The directory `generations/`: what was renamed into place, and drafts left over. -/
structure Generations where
  committed : Text → Option Generation
  drafts : List Generation

/-- The state directory. `temporaries` are links that were to replace `current`. -/
structure StateRoot where
  generations : Option Generations
  current : Option Text
  temporaries : List Text

abbrev Store := Option StateRoot

def generationPrefix : Text := ['g', 'e', 'n', 'e', 'r', 'a', 't', 'i', 'o', 'n', 's', '/']

/-- The name and the number a `current` link selects. -/
def parseGenerationTarget (target : Text) : Option (Text × UInt64) :=
  if generationPrefix.isPrefixOf target && target.length < 128 then
    let number := target.drop generationPrefix.length
    if number.contains '/' then none else (parseU64 number true).map (number, ·)
  else none

def generationTarget (generation : UInt64) : Text := generationPrefix ++ decimal generation

def loadGenerationState (directory : Generation) (generation : UInt64) : Option State := do
  let data ← directory.stateFile
  guard (data.length ≤ stateFileMax)
  parseStateData data generation

/-- What `c1_update_state_load` finds; `none` where it refuses the store. -/
def readState : Store → Option State
  | none => some .initial
  | some root =>
    match root.current with
    | none => some .initial
    | some target => do
      let generations ← root.generations
      let (name, generation) ← parseGenerationTarget target
      let directory ← generations.committed name
      loadGenerationState directory generation

def updateStateLoad : Prog Store State := do
  let found ← .look readState
  .get found

/-! ### The steps of a commit -/

def Store.makeRoot (d : Store) : Store := some (d.getD ⟨none, none, []⟩)

def Store.makeGenerations (d : Store) : Store :=
  d.map fun r => { r with generations := some (r.generations.getD ⟨fun _ => none, []⟩) }

def Store.onGenerations (f : Generations → Generations) (d : Store) : Store :=
  d.map fun r => { r with generations := r.generations.map f }

def Store.makeDraft : Store → Store :=
  Store.onGenerations fun g => { g with drafts := ⟨none⟩ :: g.drafts }

def Store.writeDraft (text : Text) : Store → Store :=
  Store.onGenerations fun g => { g with drafts := g.drafts.modify 0 fun _ => ⟨some text⟩ }

def Store.removeDraft : Store → Store :=
  Store.onGenerations fun g => { g with drafts := g.drafts.tail }

/-- `rename(draft_path, generation_path)` -/
def Store.commitDraft (name : Text) : Store → Store :=
  Store.onGenerations fun g =>
    { committed := Function.update g.committed name g.drafts.head?, drafts := g.drafts.tail }

def Store.makeTemporary (target : Text) (d : Store) : Store :=
  d.map fun r => { r with temporaries := target :: r.temporaries }

def Store.removeTemporary (d : Store) : Store :=
  d.map fun r => { r with temporaries := r.temporaries.tail }

/-- `rename(temporary, current)` -/
def Store.replaceCurrent (d : Store) : Store :=
  d.map fun r => { r with current := r.temporaries.head?, temporaries := r.temporaries.tail }

def Store.generation? (d : Store) (name : Text) : Option Generation :=
  (d.bind StateRoot.generations).bind (·.committed name)

def commitPhaseValid (previous next : Phase) : Bool :=
  (previous != .idle && next == .idle) || next.index == previous.index + 1 ||
    (previous == .pendingBoot && next == .prepared) ||
    (previous == .confirmed && next == .downloading)

/-- The checks of `c1_update_state_commit` that look at the two states only. -/
def commitAccepts (previous next : State) : Bool :=
  previous.generation < next.generation && next.sequence != 0 && next.securityEpoch != 0 &&
    commitPhaseValid previous.phase next.phase && safeToken next.release &&
    validDigest next.digest &&
    identityValid (some previous) next.sequence next.securityEpoch next.release next.digest

/-- Write a draft of the generation and rename it into place. -/
def writeGeneration (next : State) : Prog Store Unit := do
  .act Store.makeDraft
  let write : Prog Store Unit := do
    .require ((stateText next).length < stateFileMax)
    .tick -- the temporary file of the atomic write
    .act (Store.writeDraft (stateText next))
    .tick -- its directory synced by the atomic write
    .tick -- and once more
    .act (Store.commitDraft (decimal next.generation))
  .orElse write do
    let _ ← .attempt .tick -- `unlink(state_path)`
    .act Store.removeDraft

/-- Select a generation: a temporary link, renamed over `current`. The source tries 128
names; a run that finds none of them free is one in which this operation fails. -/
def replaceLink (target : Text) : Prog Store Unit := do
  .tick -- `lstat(current)`
  .act (Store.makeTemporary target)
  .orElse (.act Store.replaceCurrent) (.act Store.removeTemporary)
  .tick

def updateStateCommit (previous next : State) : Prog Store Unit := do
  .require (commitAccepts previous next)
  let actual ← updateStateLoad
  if actual = next then .tick
  else do
    .require (actual = previous)
    .act Store.makeRoot
    .act Store.makeGenerations
    let existing ← .look (·.generation? (decimal next.generation))
    match existing with
    | some directory =>
      -- "existing state generation conflicts"
      .require (loadGenerationState directory next.generation = some next)
    | none => writeGeneration next
    .tick
    replaceLink (generationTarget next.generation)

end C1auncher.Update.StateStore
