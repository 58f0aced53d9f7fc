import Mathlib.Data.List.FinRange

/-!
Tables with a fixed number of slots: the slot of least rank among those that qualify.
-/

namespace C1auncher.Slots

open List

variable {n : ℕ} {α : Type*} [LinearOrder α] {ok : Fin n → Bool} {rank : Fin n → α}

def better (ok : Fin n → Bool) (rank : Fin n → α) (best : Option (Fin n)) (i : Fin n) :
    Option (Fin n) :=
  if ok i then
    match best with
    | none => some i
    | some j => if rank i < rank j then some i else some j
  else best

/-- The first slot of least rank among those that qualify. -/
def least (ok : Fin n → Bool) (rank : Fin n → α) : Option (Fin n) :=
  (List.finRange n).foldl (better ok rank) none

structure Best (ok : Fin n → Bool) (rank : Fin n → α) (seen : List (Fin n))
    (best : Option (Fin n)) : Prop where
  fits : ∀ i, best = some i → ok i
  le : ∀ j ∈ seen, ok j → ∃ i, best = some i ∧ rank i ≤ rank j

lemma Best.better {seen : List (Fin n)} {best : Option (Fin n)} (h : Best ok rank seen best)
    (i : Fin n) : Best ok rank (seen ++ [i]) (better ok rank best i) := by
  rcases hi : ok i with _ | _
  · have hskip : Slots.better ok rank best i = best := if_neg (by rw [hi]; decide)
    rw [hskip]
    refine ⟨h.fits, fun j hj hok => ?_⟩
    rcases mem_append.mp hj with hj | hj
    · exact h.le j hj hok
    · rw [mem_singleton.mp hj, hi] at hok
      cases hok
  · unfold Slots.better
    rw [if_pos hi]
    rcases best with _ | b
    · refine ⟨fun j hj => by cases hj; exact hi, fun j hj hok => ⟨i, rfl, ?_⟩⟩
      rcases mem_append.mp hj with hj | hj
      · obtain ⟨_, hnone, _⟩ := h.le j hj hok
        cases hnone
      · rw [mem_singleton.mp hj]
    · have hold : ∀ j ∈ seen, ok j → rank b ≤ rank j := by
        intro j hj hok
        obtain ⟨b', hb, hle⟩ := h.le j hj hok
        cases hb
        exact hle
      by_cases hlt : rank i < rank b
      · simp only [hlt, if_true]
        refine ⟨fun j hj => by cases hj; exact hi, fun j hj hok => ⟨i, rfl, ?_⟩⟩
        rcases mem_append.mp hj with hj | hj
        · exact hlt.le.trans (hold j hj hok)
        · rw [mem_singleton.mp hj]
      · simp only [hlt, if_false]
        refine ⟨fun j hj => by cases hj; exact h.fits b rfl, fun j hj hok => ⟨b, rfl, ?_⟩⟩
        rcases mem_append.mp hj with hj | hj
        · exact hold j hj hok
        · rw [mem_singleton.mp hj]
          exact not_lt.mp hlt

lemma Best.foldl (slots : List (Fin n)) : ∀ {seen : List (Fin n)} {best : Option (Fin n)},
    Best ok rank seen best →
      Best ok rank (seen ++ slots) (slots.foldl (Slots.better ok rank) best) := by
  induction slots with
  | nil => exact fun {seen _} h => (append_nil seen).symm ▸ h
  | cons i slots ih =>
    intro seen best h
    have := ih (h.better i)
    rwa [append_assoc] at this

/-- **What is found qualifies and nothing that qualifies is less.** -/
theorem least_eq_some {i : Fin n} (h : least ok rank = some i) :
    ok i ∧ ∀ j, ok j → rank i ≤ rank j := by
  have hbest : Best ok rank [] none := ⟨nofun, nofun⟩
  have hall := hbest.foldl (finRange n)
  refine ⟨hall.fits i h, fun j hj => ?_⟩
  obtain ⟨i', hi', hle⟩ := hall.le j (by simp) hj
  cases h.symm.trans hi'
  exact hle

lemma least_of_ok {j : Fin n} (h : ok j) : ∃ i, least ok rank = some i := by
  have hbest : Best ok rank [] none := ⟨nofun, nofun⟩
  obtain ⟨i, hi, -⟩ := (hbest.foldl (finRange n)).le j (by simp) h
  exact ⟨i, hi⟩

end C1auncher.Slots
