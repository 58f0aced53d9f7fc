import C1auncher.Pinao.Transport

/-!
What the loop plays, over every sequence of cells: a tie goes on under the id that its note had in
the cell before, and everything else begins under an id that is free.
-/

namespace C1auncher.Pinao.TransportRuns

open Pinao.Song Pinao.Sequencer Pinao.Transport List

/-- What is passed to `commands`. -/
structure Cue where
  hits : List Hit
  position : ℤ
  contiguous : Bool
  deriving DecidableEq

def Cue.run (p : LoopTransport) (c : Cue) : LoopTransport × List SoundCommand :=
  p.commands c.hits c.position c.contiguous

def after (cues : List Cue) : LoopTransport := cues.foldl (fun p c => (c.run p).1) zeroTransport

variable {p : LoopTransport} {c : Cue} {hits : List Hit} {h : Hit} {i : ℕ} {j : Fin 8}

def Follows (p : LoopTransport) (c : Cue) : Prop :=
  c.contiguous = true ∧ p.valid = true ∧ c.position = p.position + 1

end C1auncher.Pinao.TransportRuns
