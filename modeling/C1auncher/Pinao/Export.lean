import C1auncher.Utf8Bytes
import C1auncher.Pinao.Transport

/-!
The export of a song to a WAV file: the cells one after the other, each at the frame where it
begins, and a second for the last notes to fade.

The synthesizer is a parameter: what it is told, and that it fills the buffers it is given.
-/

namespace C1auncher.Pinao.Export

open Utf8Bytes Pinao.Song Pinao.Sequencer Pinao.Transport

/-- `sampleRate` -/
def rate : ℕ := 48000

/-- The synthesizer. -/
structure Engine (σ : Type) where
  /-- `NewSynth` -/
  fresh : σ
  setVolume : σ → ℤ → σ
  applySound : σ → SoundCommand → σ
  allOff : σ → σ
  /-- Two samples for each frame. -/
  render : σ → (frames : ℕ) → (Fin (frames * 2) → Int16) × σ

inductive Written
  | full
  /-- Fewer bytes, without an error. -/
  | short
  | failed
  deriving DecidableEq

/-- What the context, the file and the system say. -/
structure Environment where
  /-- Before the file is opened, then once for each chunk. -/
  cancelled : ℕ → Bool
  opened : Bool
  headerWritten : Bool
  /-- One for each chunk. -/
  write : ℕ → Written
  synced : Bool
  closed : Bool

inductive Failure
  | cancelled
  | invalid (e : Invalid)
  | openFile
  | write
  | shortWrite
  | sync
  | close

/-! ### The header -/

def put16 (n : ℕ) : Bytes := [n.toUInt8, (n / 2 ^ 8).toUInt8]

def put32 (n : ℕ) : Bytes :=
  [n.toUInt8, (n / 2 ^ 8).toUInt8, (n / 2 ^ 16).toUInt8, (n / 2 ^ 24).toUInt8]

def header (frames : ℕ) : Bytes :=
  ascii "RIFF" ++ put32 (36 + frames * 4) ++ ascii "WAVEfmt " ++ put32 16 ++ put16 1 ++ put16 2 ++
    put32 rate ++ put32 (rate * 4) ++ put16 4 ++ put16 16 ++ ascii "data" ++ put32 (frames * 4)

def encodePCM {n : ℕ} (samples : Fin n → Int16) : Bytes :=
  (List.ofFn samples).flatMap fun v => put16 v.toUInt16.toNat

/-! ### The schedule -/

/-- `song.BPM*2` -/
def eighths (s : Song) : ℕ := (s.bpm * 2).toNat

def totalSteps (s : Song) : ℕ := s.pageCount * steps

def loopFrames (s : Song) : ℕ := rate * 60 * totalSteps s / eighths s

def totalFrames (s : Song) : ℕ := loopFrames s + rate

def cellAt (s : Song) (offset : ℕ) : ℕ := offset * eighths s / (rate * 60)

/-- The first frame of the cell behind one. -/
def boundary (s : Song) (idx : ℕ) : ℕ :=
  ((idx + 1) * rate * 60 + eighths s - 1) / eighths s

def chunkFrames (s : Song) (offset : ℕ) : ℕ :=
  let n := min 480 (totalFrames s - offset)
  if totalSteps s ≤ cellAt s offset then n
  else min n (max 1 (boundary s (cellAt s offset) - offset))

lemma chunkFrames_pos (s : Song) {offset : ℕ} (h : offset < totalFrames s) :
    0 < chunkFrames s offset := by
  unfold chunkFrames
  dsimp only
  split <;> omega

lemma chunkFrames_le (s : Song) (offset : ℕ) :
    chunkFrames s offset ≤ totalFrames s - offset := by
  unfold chunkFrames
  dsimp only
  split <;> omega

/-! ### The loop -/

structure Exporting (σ : Type) where
  synth : σ
  offset : ℕ
  /-- How many chunks were written. -/
  chunks : ℕ
  data : Bytes
  step : ℤ
  transport : LoopTransport
  /-- The cells that were played: which one, at which frame, and its commands. -/
  played : List (ℕ × ℕ × List SoundCommand)

section Loop

variable {σ : Type} (e : Engine σ) (env : Environment) (s : Song) (x : Exporting σ)

def Exporting.sounds : Exporting σ :=
  let idx := cellAt s x.offset
  if totalSteps s ≤ idx then
    if x.step ≠ totalSteps s then
      { x with synth := e.allOff x.synth, step := totalSteps s }
    else x
  else if (idx : ℤ) ≠ x.step then
    let (transport, commands) := x.transport.commands (hits (s.cell idx)) idx true
    { x with
      synth := commands.foldl e.applySound x.synth, transport := transport, step := idx
      played := x.played ++ [(idx, x.offset, commands)] }
  else x

/-- A chunk that was rendered and written. -/
def Exporting.chunk : Exporting σ :=
  let n := chunkFrames s x.offset
  let (pcm, synth) := e.render x.synth n
  { x with
    synth := synth, offset := x.offset + n, chunks := x.chunks + 1
    data := x.data ++ encodePCM pcm }

/-- `for offset := 0; offset < frames; { … }` -/
def loop (x : Exporting σ) : Option Failure × Exporting σ :=
  if x.offset < totalFrames s then
    if env.cancelled (x.chunks + 1) then (some .cancelled, x)
    else
      match env.write x.chunks with
      | .failed => (some .write, x.sounds e s)
      | .short => (some .shortWrite, x.sounds e s)
      | .full => loop ((x.sounds e s).chunk e s)
  else (none, x)
  termination_by totalFrames s - x.offset
  decreasing_by
    have hoffset : (x.sounds e s).offset = x.offset := by
      unfold Exporting.sounds
      dsimp only
      split_ifs <;> rfl
    have hpos : 0 < chunkFrames s x.offset := chunkFrames_pos s (by assumption)
    simp only [Exporting.chunk, hoffset]
    omega

end Loop

/-! ### The file -/

/-- What an export leaves: its error, the file, and the cells that it played. -/
structure Outcome where
  failure : Option Failure
  /-- `none` where it was not made, or was removed again. -/
  file : Option Bytes
  played : List (ℕ × ℕ × List SoundCommand)

section Outcome

variable {σ : Type} (e : Engine σ) (env : Environment) (s : Song)

def close (failure : Option Failure) (content : Bytes)
    (played : List (ℕ × ℕ × List SoundCommand)) : Outcome :=
  let failure := failure.or (if env.closed then none else some .close)
  ⟨failure, if failure.isSome then none else some content, played⟩

end Outcome

end C1auncher.Pinao.Export
