import Mathlib

/-!
Numbered generations of a text: number 0 is the one that still grows, and the higher the number
the older the generation.
-/

namespace C1auncher.Generations

open Function List

variable {β : Type} {g g' : ℕ → List β} {n m : ℕ}

/-- The generations below `n`, the oldest one first. -/
def joined (g : ℕ → List β) : ℕ → List β
  | 0 => []
  | n + 1 => g n ++ joined g n

/-- Every generation grows one older, and an empty one begins. -/
def aged (g : ℕ → List β) : ℕ → List β
  | 0 => []
  | i + 1 => g i

lemma joined_congr_above (hm : m ≤ n) (hbelow : joined g m = joined g' m)
    (h : ∀ i, m ≤ i → i < n → g i = g' i) : joined g n = joined g' n := by
  induction n, hm using Nat.le_induction with
  | base => exact hbelow
  | succ n hmn ih =>
    rw [joined, joined, ih fun i hi hin => h i hi (by omega), h n hmn (by omega)]

lemma joined_congr (h : ∀ i < n, g i = g' i) : joined g n = joined g' n :=
  joined_congr_above (Nat.zero_le n) rfl fun i _ hi => h i hi

lemma joined_aged (g : ℕ → List β) (n : ℕ) : joined (aged g) (n + 1) = joined g n := by
  induction n with
  | zero => rfl
  | succ n ih => rw [joined, ih, joined, aged]

/-- **Growing older drops the oldest generation**, and nothing else. -/
theorem joined_eq_aged (g : ℕ → List β) (n : ℕ) :
    joined g (n + 1) = g n ++ joined (aged g) (n + 1) := by
  rw [joined_aged, joined]

/-- **A generation that takes the empty place behind it** leaves what they are joined to. -/
theorem joined_move {i : ℕ} (hi : i + 1 < n) (hempty : g (i + 1) = []) :
    joined (update (update g (i + 1) (g i)) i []) n = joined g n := by
  refine joined_congr_above (m := i + 2) (by omega) ?_ ?_
  · have hbelow : joined (update (update g (i + 1) (g i)) i []) i = joined g i :=
      joined_congr fun j hj => by
        rw [update_of_ne (by omega), update_of_ne (by omega)]
    rw [joined, joined, joined, joined, hbelow, hempty, update_self,
      update_of_ne (by omega), update_self, nil_append, nil_append]
  · intro j hj _
    rw [update_of_ne (by omega), update_of_ne (by omega)]

/-- **What the newest generation takes is added behind everything.** -/
theorem joined_append (g : ℕ → List β) (xs : List β) (n : ℕ) :
    joined (update g 0 (g 0 ++ xs)) (n + 1) = joined g (n + 1) ++ xs := by
  induction n with
  | zero => simp [joined]
  | succ n ih => rw [joined, ih, joined.eq_2 g (n + 1), update_of_ne (by omega), append_assoc]

lemma joined_clear_oldest (g : ℕ → List β) (n : ℕ) :
    joined (update g n []) (n + 1) = joined g n := by
  rw [joined, update_self, nil_append]
  exact joined_congr fun i hi => update_of_ne (by omega) _ _

lemma mul_le_length_joined {l : ℕ} (h : ∀ i, 0 < i → i ≤ n → (g i).length = l) :
    n * l ≤ (joined g (n + 1)).length := by
  induction n with
  | zero => simp
  | succ n ih =>
    have hmore := ih fun i h0 hi => h i h0 (by omega)
    have hlast := h (n + 1) (by omega) le_rfl
    rw [joined, length_append, hlast]
    calc (n + 1) * l = l + n * l := by ring
      _ ≤ l + (joined g (n + 1)).length := by omega

end C1auncher.Generations
