import C1auncher.Slots
import C1auncher.Pinao.Sequencer

/-!
The synthesizer: eight voices, which of them a note gets, and how it gives them back. What a voice
sounds like is left out; how long it lasts is not.
-/

namespace C1auncher.Pinao.Voices

open Pinao.Sequencer

def sampleRate : ℤ := 48000

def releaseSamples : ℤ := sampleRate / 40

def maxHoldSamples : ℤ := 8 * sampleRate

structure Voice where
  active : Bool := false
  midi : ℤ := 0
  id : ℤ := 0
  serial : UInt64 := 0
  timbre : ℤ := 0
  drum : Bool := false
  /-- Frames since the note began. -/
  age : ℤ := 0
  duration : ℤ := 0
  releasing : Bool := false
  releaseLeft : ℤ := 0
  deriving DecidableEq

namespace Voice

variable (v : Voice)

def release : Voice :=
  if !v.active || v.releasing then v
  else { v with releasing := true, releaseLeft := releaseSamples }

/-- A note that has run out of time lets go by itself. -/
def expire : Voice := if v.duration ≤ v.age then v.release else v

def next : Voice :=
  if !v.active then v
  else
    let v := v.expire
    let v := if v.releasing then { v with releaseLeft := v.releaseLeft - 1 } else v
    let v := { v with age := v.age + 1 }
    if v.releasing && v.releaseLeft ≤ 0 then { v with active := false } else v

end Voice

structure Synth where
  voices : Fin 8 → Voice
  serial : UInt64
  /-- Percent. -/
  volume : ℤ
  /-- The loop slots that go on: their voices are not taken for another one of the loop. -/
  loopKeep : ℕ

/-- `NewSynth` -/
def newSynth : Synth := ⟨fun _ => {}, 0, 80, 0⟩

/-- The ids of the loop: 300 for its first slot. -/
def looped (id : ℤ) : Bool := 300 ≤ id && id < 308

namespace Synth

variable (s : Synth)

def setVolume (v : ℤ) : Synth := { s with volume := min (max v 0) 100 }

def edit (i : Fin 8) (f : Voice → Voice) : Synth :=
  { s with voices := Function.update s.voices i (f (s.voices i)) }

def releaseOlder (id : ℤ) : Synth :=
  { s with voices := fun i =>
      if (s.voices i).active && (s.voices i).id == id then (s.voices i).release else s.voices i }

def kept (v : Voice) : Bool := looped v.id && s.loopKeep.testBit (v.id - 300).toNat

/-- May be taken for the note. -/
def open_ (id : ℤ) (i : Fin 8) : Bool := !(looped id && s.kept (s.voices i))

local instance : NeZero 8 := ⟨by decide⟩

/-- The slot of a new note: a free one, else the oldest that may be taken. -/
def slot (id : ℤ) : Fin 8 :=
  match Fin.find? fun i => !(s.voices i).active with
  | some i => i
  | none => (Slots.least (s.open_ id) fun i => (s.voices i).serial.toNat).getD 0

def allocate (id : ℤ) : Synth × Fin 8 :=
  let s := s.releaseOlder id
  let i := s.slot id
  ({ s with
      serial := s.serial + 1
      voices := Function.update s.voices i { active := true, id := id, serial := s.serial + 1 } },
    i)

def noteOff (id : ℤ) : Synth :=
  match Fin.find? fun i => (s.voices i).active && (s.voices i).id == id with
  | some i => s.edit i Voice.release
  | none => s

/-- `audible`: the velocity is a number above zero. -/
def noteOn (id midi timbre : ℤ) (audible : Bool) : Synth :=
  if !audible then s.noteOff id
  else
    let midi := min (max midi 36) 96
    let timbre := if timbre < 0 ∨ 2 < timbre then 0 else timbre
    let (s, i) := s.allocate id
    s.edit i fun v => { v with timbre := timbre, midi := midi, duration := maxHoldSamples }

/-- The note that goes on. -/
def held (id midi tone : ℤ) : Option (Fin 8) :=
  Fin.find? fun i => (s.voices i).active && !(s.voices i).releasing && !(s.voices i).drum
    && (s.voices i).id == id && (s.voices i).midi == midi && (s.voices i).timbre == tone

def hold (id midi tone : ℤ) : Synth :=
  match s.held id midi tone with
  | some i => s.edit i fun v =>
      if v.duration - v.age < sampleRate * 2 then { v with duration := v.age + sampleRate * 2 }
      else v
  | none => s.noteOn id midi tone true

def allOff : Synth :=
  { s with loopKeep := 0, voices := fun i => (s.voices i).release }

/-- How long a drum lasts, unless it is let go. -/
def drumDuration (kind : ℤ) : ℤ :=
  if kind = 0 then sampleRate / 2
  else if kind = 2 then sampleRate / 8
  else sampleRate / 3

def drum (id kind : ℤ) : Synth :=
  let kind := if kind < 0 ∨ 3 < kind then 0 else kind
  let (s, i) := s.allocate id
  s.edit i fun v => { v with drum := true, timbre := kind, duration := drumDuration kind }

/-- The loop lets go of the slots that do not go on. -/
def loopOff (keep : ℕ) : Synth :=
  (List.finRange 8).foldl
    (fun s i => if !keep.testBit i.val then s.noteOff (300 + i.val) else s)
    { s with loopKeep := keep }

def applySound (c : SoundCommand) : Synth :=
  match c.kind with
  | .on => s.noteOn c.id c.midi c.tone true
  | .hold => s.hold c.id c.midi c.tone
  | .off => s.noteOff c.id
  | .offAll => s.allOff
  | .volume => s.setVolume c.volume
  | .drum => s.drum c.id c.drum
  | .loopOff => s.loopOff c.keep

def active : Bool := (List.finRange 8).any fun i => (s.voices i).active

def frame : Synth := { s with voices := fun i => (s.voices i).next }

/-- `samples`: the length of the buffer, two for a frame. -/
def render (samples : ℕ) : Synth := if !s.active then s else frame^[samples / 2] s

end Synth

/-! ### Calls -/

inductive Call
  | noteOn (id midi timbre : ℤ) (audible : Bool)
  | hold (id midi tone : ℤ)
  | drum (id kind : ℤ)
  | noteOff (id : ℤ)
  | allOff
  | setVolume (v : ℤ)
  | sound (c : SoundCommand)
  | render (samples : ℕ)

namespace Call

def run (s : Synth) : Call → Synth
  | noteOn id midi timbre audible => s.noteOn id midi timbre audible
  | hold id midi tone => s.hold id midi tone
  | drum id kind => s.drum id kind
  | noteOff id => s.noteOff id
  | allOff => s.allOff
  | setVolume v => s.setVolume v
  | sound c => s.applySound c
  | render samples => s.render samples

def begins (s : Synth) : Call → Option ℤ
  | noteOn id _ _ audible => if audible then some id else none
  | hold id midi tone => if (s.held id midi tone).isNone then some id else none
  | drum id _ => some id
  | sound c =>
    match c.kind with
    | .on | .drum => some c.id
    | .hold => if (s.held c.id c.midi c.tone).isNone then some c.id else none
    | _ => none
  | _ => none

/-- The slot that the call gives to a new note. -/
def takes (s : Synth) (c : Call) : Option (Fin 8) := (c.begins s).map fun id => (s.allocate id).2

/-- The call is, or makes, a `NoteOff` of the id. -/
def silences (id : ℤ) : Call → Prop
  | noteOn id' _ _ audible => id' = id ∧ audible = false
  | noteOff id' => id' = id
  | sound c =>
    match c.kind with
    | .off => c.id = id
    | .loopOff => ∃ i : Fin 8, c.keep.testBit i.val = false ∧ id = 300 + i.val
    | _ => False
  | _ => False

def frames : Call → ℕ
  | render samples => samples / 2
  | _ => 0

end Call

def run (s : Synth) (calls : List Call) : Synth := calls.foldl Call.run s

def frames (calls : List Call) : ℕ := (calls.map Call.frames).sum

/-- No call of the run gives the slot to a new note. -/
def Untaken (i : Fin 8) : Synth → List Call → Prop
  | _, [] => True
  | s, c :: calls => c.takes s ≠ some i ∧ Untaken i (c.run s) calls

end C1auncher.Pinao.Voices
