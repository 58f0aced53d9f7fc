import C1auncher.Pinao.Sequencer

/-!
The slots of the loop. A note that goes on keeps the slot that it has, the others get the first ones
that are free, and with at most eight notes each has a slot of its own.
-/

namespace C1auncher.Pinao.Transport

open Pinao.Song Pinao.Sequencer List

variable {p : LoopTransport} {hits : List Hit} {h : Hit} {i k : ℕ} {j : Fin 8}
  {slots : List (Option (Fin 8))} {used : Fin 8 → Bool}

/-- `loopTransport{}` -/
def zeroTransport : LoopTransport := ⟨fun _ => noHit, fun _ => false, 0, false⟩

/-! ### Notes that go on -/

/-- The slots that are taken when more have been given out. -/
def claimed (used : Fin 8 → Bool) (slots : List (Option (Fin 8))) : Fin 8 → Bool :=
  fun j => used j || slots.contains (some j)

@[simp] lemma claimed_nil (used : Fin 8 → Bool) : claimed used [] = used := by
  funext j
  simp [claimed]

/-- The slot of a note: the one that it has, or the first free one. -/
def placed (used : Fin 8 → Bool) : Option (Fin 8) → Option (Fin 8)
  | some j => some j
  | none => (List.finRange 8).find? fun j => !used j

def Distinct (slots : List (Option (Fin 8))) : Prop :=
  ∀ (i k : ℕ) (j : Fin 8), slots[i]? = some (some j) → slots[k]? = some (some j) → i = k

end C1auncher.Pinao.Transport
