import C1auncher.Pinao.SongInvariant

/-!
What keys do to a song: it stays one, and a press of a page key moves it by one page at most.
-/

namespace C1auncher.Pinao.KeyInvariant

open Pinao.Song Pinao.Sequencer Pinao.Edits Pinao.SongSize Model
open Pinao.SongInvariant

variable {key : ℕ} {fired : Bool} {m : Model} {now : Time}

/-! ### Notes and drums -/

/-- The page move that a press of a page key can still make. -/
def credit (key : ℕ) (fired : Bool) : ℕ := if key ≠ 0 ∧ ¬fired then 1 else 0

@[simp] lemma credit_fired (key : ℕ) : credit key true = 0 := by simp [credit]

/-- A call that leaves so much credit. -/
def Leaves (m : Model) (budget : ℕ) : Prop := ∃ key fired, Ready key fired m ∧
  credit key fired ≤ budget

lemma ready_fire (h : Ready key fired m) : Ready key true { m with pageKeyFired := true } :=
  { h with pageKey := ⟨h.pageKey.1, rfl⟩ }

lemma leaves_checkPageHold (h : Ready key fired m) (now : Time) :
    ∃ fired', Ready key fired' (m.checkPageHold now) ∧
      (if (m.holdMove now).isSome then 1 else 0) + credit key fired' ≤ credit key fired := by
  unfold checkPageHold
  rcases hdue : m.holdMove now with _ | move
  · exact ⟨fired, h, by simp⟩
  unfold holdMove at hdue
  split_ifs at hdue with hhold
  cases hdue
  refine ⟨true, (ready_fire h).movePage fun delta hmove => (by cases hmove), ?_⟩
  rw [h.pageKey.1, h.pageKey.2] at hhold
  simp [credit, hhold.1, hhold.2.1]

/-! ### Calls -/

inductive Call
  | key (e : KeyEvent) (now : Time)
  | tick (now : Time)
  deriving DecidableEq

namespace Call

def run (m : Model) : Call → Model
  | .key e now => (m.handle e now).1
  | .tick now => (m.tick now).1

/-- The change of the page or the insertion of one that a call asks for. -/
def move (m : Model) : Call → Option Model.PageMove
  | .key e now =>
    if e.reset ∨ systemPowerKey e.code ∨ ¬(e.code = 23 ∨ e.code = 24) ∨ m.help ∨ e.down ∨
        e.code ≠ m.pageKey then none
    else m.releaseMove now
  | .tick now => m.holdMove now

end Call

lemma ready_tick (h : Ready key fired m) (now : Time) : ∃ fired', Ready key fired' (m.tick now).1 ∧
    (if (m.holdMove now).isSome then 1 else 0) + credit key fired' ≤ credit key fired := by
  obtain ⟨fired', hheld, hcredit⟩ := leaves_checkPageHold h now
  refine ⟨fired', ?_, hcredit⟩
  have hsparks : ∀ (notes : List Hit) (m : Model), Ready key fired' m →
      Ready key fired' (notes.foldl (sparkHit now) m) := by
    intro notes
    induction notes with
    | nil => exact fun m hm => hm
    | cons x notes ih =>
      intro m hm
      refine ih _ ?_
      unfold sparkHit
      split_ifs
      · exact hm.addSpark _ _
      · exact hm.addSpark _ _
  unfold tick
  dsimp only
  generalize m.checkPageHold now = m₁ at hheld ⊢
  have hfaded : Ready key fired' { m₁ with
      sparks := m₁.sparks.filter fun s => decide (now - s.time < keyFeedbackDuration) } :=
    { hheld with }
  split_ifs
  · exact hfaded
  · exact hsparks _ _ ((hfaded.ticked _).sync.transported _)
  · exact hfaded

/-- The number of page changes and insertions that calls ask for. -/
def moves (m : Model) : List Call → ℕ
  | [] => 0
  | c :: calls => (if (c.move m).isSome then 1 else 0) + moves (c.run m) calls

end C1auncher.Pinao.KeyInvariant
