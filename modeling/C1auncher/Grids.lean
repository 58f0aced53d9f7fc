import Mathlib.Data.List.Nodup
import Mathlib.Data.List.Range

/-!
The places of a rectangle, listed row by row.
-/

namespace C1auncher.Grids

open List

variable {α : Type*} {f : ℕ → ℕ → α}

/-- The places of `h` rows of `w` columns; `f` names the place in a column and a row. -/
def places (f : ℕ → ℕ → α) (w h : ℕ) : List α :=
  (List.range h).flatMap fun y => (List.range w).map fun x => f x y

lemma length_places (f : ℕ → ℕ → α) (w h : ℕ) : (places f w h).length = h * w := by
  simp [places, length_flatMap]

lemma nodup_places (hf : ∀ x y x' y', f x y = f x' y' → x = x' ∧ y = y') (w h : ℕ) :
    (places f w h).Nodup := by
  rw [places, nodup_flatMap]
  constructor
  · intro y _
    exact nodup_range.map fun x x' he => (hf x y x' y he).1
  refine Pairwise.imp_of_mem ?_ (nodup_range (n := h))
  intro y y' _ _ hne a ha ha'
  obtain ⟨x, -, rfl⟩ := mem_map.mp ha
  obtain ⟨x', -, he⟩ := mem_map.mp ha'
  exact hne (hf x' y' x y he).2.symm

end C1auncher.Grids
