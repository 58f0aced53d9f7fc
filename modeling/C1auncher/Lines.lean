import Mathlib

/-!
Texts that are read line by line, over any type of characters.

A reader is a step for one line, run over all of them; what it reads is the list of its lines.
-/

namespace C1auncher.Lines

open List

variable {α σ : Type} {terminator : α}

def unlines (terminator : α) (lines : List (List α)) : List α :=
  lines.flatMap (· ++ [terminator])

@[simp] lemma unlines_nil : unlines terminator [] = [] := rfl

@[simp] lemma unlines_cons (line : List α) (lines : List (List α)) :
    unlines terminator (line :: lines) = line ++ terminator :: unlines terminator lines := by
  simp [unlines]

lemma unlines_append (lines lines' : List (List α)) : unlines terminator (lines ++ lines') =
    unlines terminator lines ++ unlines terminator lines' := flatMap_append

lemma length_le_unlines (terminator : α) (lines : List (List α)) :
    lines.length ≤ (unlines terminator lines).length := by
  induction lines with
  | nil => exact le_rfl
  | cons line lines ih =>
    rw [unlines_cons, length_append, length_cons, length_cons]
    omega

variable {line : List α} {lines : List (List α)}

lemma mem_unlines {c : α} (h : line ∈ lines)
    (hc : c ∈ line) : c ∈ unlines terminator lines :=
  List.mem_flatMap.mpr ⟨line, h, mem_append_left _ hc⟩

lemma unlines_eq_nil (h : unlines terminator lines = []) : lines = [] := by
  cases lines with
  | nil => rfl
  | cons line lines => simp at h

lemma getLast?_unlines (h : lines ≠ []) :
    (unlines terminator lines).getLast? = some terminator := by
  induction lines using reverseRecOn with
  | nil => exact absurd rfl h
  | append_singleton lines line ih => simp [unlines_append]

variable [DecidableEq α] {m : Type → Type} [Monad m]

/-- One line after the other; a line without a terminator is `stuck`. The fuel bounds how many
lines there are. -/
def run (terminator : α) (stuck : m σ) (step : σ → List α → m σ) : ℕ → σ → List α → m σ
  | _, s, [] => pure s
  | 0, _, _ :: _ => stuck
  | fuel + 1, s, c :: text =>
    if terminator ∈ c :: text then do
      let line := (c :: text).takeWhile (· ≠ terminator)
      let s ← step s line
      run terminator stuck step fuel s ((c :: text).drop (line.length + 1))
    else stuck

lemma takeWhile_line (h : terminator ∉ line) (rest : List α) :
    (line ++ terminator :: rest).takeWhile (· ≠ terminator) = line := by
  have hall : ∀ c ∈ line, decide (c ≠ terminator) = true := by
    intro c hc
    simp only [ne_eq, decide_not, Bool.not_eq_true', decide_eq_false_iff_not]
    rintro rfl
    exact h hc
  rw [takeWhile_append_of_pos hall]
  simp

/-- **A text whose last character is the terminator is the list of its lines.** -/
theorem exists_unlines : ∀ {text : List α}, text = [] ∨ text.getLast? = some terminator →
    ∃ lines, (∀ line ∈ lines, terminator ∉ line) ∧ text = unlines terminator lines
  | [], _ => ⟨[], by simp, rfl⟩
  | c :: text, h => by
    have hrest : text = [] ∨ text.getLast? = some terminator := by
      rcases text with _ | ⟨d, text⟩
      · exact .inl rfl
      · refine .inr ?_
        simpa [getLast?_cons_cons] using h
    obtain ⟨lines, hlines, htext⟩ := exists_unlines hrest
    by_cases hc : c = terminator
    · refine ⟨[] :: lines, ?_, by rw [unlines_cons, htext, hc]; rfl⟩
      intro line hline
      rcases List.mem_cons.mp hline with rfl | hline
      · exact not_mem_nil
      · exact hlines line hline
    · -- the character belongs to the first of the lines that follow
      rcases lines with _ | ⟨line, lines⟩
      · rw [unlines_nil] at htext
        subst htext
        simp at h
        exact absurd h hc
      refine ⟨(c :: line) :: lines, ?_, by rw [htext, unlines_cons, unlines_cons]; rfl⟩
      intro line' hline
      rcases List.mem_cons.mp hline with rfl | hline
      · rw [mem_cons, not_or]
        exact ⟨Ne.symm hc, hlines line mem_cons_self⟩
      · exact hlines line' (mem_cons_of_mem _ hline)

/-- **A run is a fold over the lines.** -/
theorem run_unlines {stuck : m σ} {step : σ → List α → m σ} : ∀ {lines : List (List α)}
    {fuel : ℕ} {s : σ}, (∀ line ∈ lines, terminator ∉ line) → lines.length ≤ fuel →
    run terminator stuck step fuel s (unlines terminator lines) = lines.foldlM step s
  | [], fuel, s, _, _ => by cases fuel <;> rfl
  | line :: lines, fuel, s, h, hfuel => by
    obtain ⟨fuel, rfl⟩ : ∃ n, fuel = n + 1 := ⟨fuel - 1, by simp at hfuel; omega⟩
    have htake := takeWhile_line (h line mem_cons_self) (unlines terminator lines)
    have hdrop : (line ++ terminator :: unlines terminator lines).drop (line.length + 1) =
        unlines terminator lines := by
      rw [drop_append, drop_of_length_le (by omega)]
      simp
    have hmem : terminator ∈ line ++ terminator :: unlines terminator lines := by simp
    obtain ⟨c, text, htext⟩ : ∃ c text,
        line ++ terminator :: unlines terminator lines = c :: text :=
      exists_cons_of_ne_nil (by simp)
    rw [unlines_cons, foldlM_cons]
    rw [htext] at htake hdrop hmem ⊢
    rw [run, if_pos hmem]
    simp only [htake, hdrop]
    refine bind_congr fun s => run_unlines (fun l hl => h l (mem_cons_of_mem _ hl)) ?_
    simpa using hfuel

/-! ### Lines with their terminators -/

/-- The lines of a text, each with its terminator, which the last one may lack. -/
def cut (terminator : α) : List α → List (List α)
  | [] => []
  | c :: text =>
    if c = terminator then [c] :: cut terminator text
    else
      match cut terminator text with
      | [] => [[c]]
      | line :: lines => (c :: line) :: lines

lemma cut_append {front : List α} (h : terminator ∉ front) (text : List α) :
    cut terminator (front ++ text) =
      match cut terminator text with
      | [] => if front = [] then [] else [front]
      | line :: lines => (front ++ line) :: lines := by
  induction front with
  | nil => cases hcut : cut terminator text <;> simp [hcut]
  | cons c front ih =>
    obtain ⟨hc, hfront⟩ := not_or.mp (mt List.mem_cons.mpr h)
    rw [cons_append, cut, if_neg fun heq => hc heq.symm, ih hfront]
    rcases cut terminator text with _ | ⟨line, lines⟩
    · cases front <;> rfl
    · rfl

lemma cut_line (h : terminator ∉ line) (text : List α) :
    cut terminator (line ++ terminator :: text) =
      (line ++ [terminator]) :: cut terminator text := by
  rw [cut_append h, cut, if_pos rfl]

lemma cut_last (h : terminator ∉ line) :
    cut terminator line = if line = [] then [] else [line] := by
  have hcut := cut_append h []
  rwa [append_nil] at hcut

end C1auncher.Lines
