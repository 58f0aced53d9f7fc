import Mathlib.Data.List.Basic
import Mathlib.Order.Nat

/-!
Traces of events, the newest one in front: what holds of every event and what came before it, and
the newest event that says something. Endless runs: what a rank that keeps falling leads to.
-/

namespace C1auncher.Traces

open List Nat

variable {ε β : Type} {P : ε → List ε → Prop} {f : ε → Option β}

def Always (P : ε → List ε → Prop) : List ε → Prop
  | [] => True
  | e :: past => P e past ∧ Always P past

variable {newer older trace : List ε} {e : ε} {starts : ε → Bool}

/-- **Every event of a trace, wherever it stands.** -/
theorem Always.apply (h : Always P (newer ++ e :: older)) :
    P e older := by
  induction newer with
  | nil => exact h.1
  | cons _ newer ih => exact ih h.2

lemma Always.of_suffix (h : Always P trace) (hs : older <:+ trace) :
    Always P older := by
  obtain ⟨newer, rfl⟩ := hs
  induction newer with
  | nil => exact h
  | cons _ newer ih => exact ih h.2

lemma Always.append (h : Always P older)
    (hnewer : ∀ e ∈ newer, ∀ past, P e past) : Always P (newer ++ older) := by
  induction newer with
  | nil => exact h
  | cons e newer ih =>
    exact ⟨hnewer e mem_cons_self _, ih fun e' he' => hnewer e' (mem_cons_of_mem _ he')⟩

lemma findSome?_append_of_none (h : ∀ e ∈ newer, f e = none) :
    (newer ++ older).findSome? f = older.findSome? f := by
  induction newer with
  | nil => rfl
  | cons e newer ih =>
    rw [cons_append, findSome?_cons, h e mem_cons_self]
    exact ih fun e' he' => h e' (mem_cons_of_mem _ he')

lemma exists_findSome? (newer older : List ε) {b : β} (h : f e = some b) :
    ∃ e', (e' = e ∨ e' ∈ newer) ∧ (newer ++ e :: older).findSome? f = f e' ∧ (f e').isSome := by
  induction newer with
  | nil => exact ⟨e, .inl rfl, by rw [nil_append, findSome?_cons, h], by rw [h]; rfl⟩
  | cons e₁ newer ih =>
    rcases h₁ : f e₁ with _ | b₁
    · obtain ⟨e', hmem, hlast, hsome⟩ := ih
      refine ⟨e', hmem.imp_right (mem_cons_of_mem _), ?_, hsome⟩
      rw [cons_append, findSome?_cons, h₁]
      exact hlast
    · refine ⟨e₁, .inr mem_cons_self, ?_, by rw [h₁]; rfl⟩
      rw [cons_append, findSome?_cons, h₁]

/-- What has happened since the last event that starts anew. -/
def since (starts : ε → Bool) (trace : List ε) : List ε := trace.takeWhile fun e => !starts e

@[simp] lemma since_cons (h : starts e = false) (trace : List ε) :
    since starts (e :: trace) = e :: since starts trace :=
  takeWhile_cons_of_pos (by rw [h]; rfl)

lemma since_of_starts (h : starts e = true) (trace : List ε) :
    since starts (e :: trace) = [] :=
  takeWhile_cons_of_neg (by rw [h]; decide)

lemma mem_since_cons {e' : ε} (h : starts e = false) :
    e' ∈ since starts (e :: trace) ↔ e' = e ∨ e' ∈ since starts trace := by
  rw [since_cons h, mem_cons]

lemma mem_since_of_ne {e' : ε} (h : starts e = false) (hne : e' ≠ e) : e' ∈ since starts (e :: trace) ↔ e' ∈ since starts trace := by
  rw [mem_since_cons h, or_iff_right hne]

/-! ### Endless runs -/

section Endless

variable {σ ι : Type}

def states (step : σ → ι → σ) (first : σ) (inputs : ℕ → ι) : ℕ → σ
  | 0 => first
  | n + 1 => step (states step first inputs n) (inputs n)

variable {s : ℕ → σ} {Q G : σ → Prop}

/-- **A rank that can always be brought down leads to the goal.** -/
theorem reaches (rank : σ → ℕ)
    (hfalls : ∀ n, Q (s n) → (∃ k ≥ n, G (s k)) ∨ ∃ m ≥ n, Q (s m) ∧ rank (s m) < rank (s n))
    {n : ℕ} (h : Q (s n)) : ∃ k ≥ n, G (s k) := by
  induction hr : rank (s n) using Nat.strong_induction_on generalizing n with
  | _ r ih =>
    rcases hfalls n h with hgoal | ⟨m, hm, hkept, hrank⟩
    · exact hgoal
    · obtain ⟨k, hk, hgoal⟩ := ih _ (hr ▸ hrank) hkept rfl
      exact ⟨k, hm.trans hk, hgoal⟩

lemma kept_until (rank : σ → ℕ)
    (hstep : ∀ n, Q (s n) → G (s (n + 1)) ∨ Q (s (n + 1)) ∧ rank (s (n + 1)) ≤ rank (s n))
    {n : ℕ} (h : Q (s n)) {m : ℕ} (hm : n ≤ m) :
    (∃ k ≥ n, G (s k)) ∨ Q (s m) ∧ rank (s m) ≤ rank (s n) := by
  induction m, hm using le_induction with
  | base => exact .inr ⟨h, le_rfl⟩
  | succ m hm ih =>
    rcases ih with hgoal | ⟨hkept, hrank⟩
    · exact .inl hgoal
    rcases hstep m hkept with hgoal | ⟨hkept', hrank'⟩
    · exact .inl ⟨m + 1, hm.trans (le_succ m), hgoal⟩
    · exact .inr ⟨hkept', hrank'.trans hrank⟩

/-- **A rank that never grows, and falls again and again, leads to the goal.** -/
theorem reaches_of_falls (rank : σ → ℕ)
    (hstep : ∀ n, Q (s n) → G (s (n + 1)) ∨ Q (s (n + 1)) ∧ rank (s (n + 1)) ≤ rank (s n))
    (hfalls : ∀ n, ∃ m ≥ n, Q (s m) →
      G (s (m + 1)) ∨ Q (s (m + 1)) ∧ rank (s (m + 1)) < rank (s m))
    {n : ℕ} (h : Q (s n)) : ∃ k ≥ n, G (s k) := by
  refine reaches rank (fun n hn => ?_) h
  obtain ⟨m, hm, hfall⟩ := hfalls n
  rcases kept_until rank hstep hn hm with hgoal | ⟨hkept, hrank⟩
  · exact .inl hgoal
  rcases hfall hkept with hgoal | ⟨hkept', hrank'⟩
  · exact .inl ⟨m + 1, hm.trans (le_succ m), hgoal⟩
  · exact .inr ⟨m + 1, hm.trans (le_succ m), hkept', hrank'.trans_le hrank⟩

end Endless

end C1auncher.Traces
