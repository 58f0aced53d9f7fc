import Mathlib.Data.List.Forall2

/-!
Anchored patterns that take a text apart into runs of characters, each as long as it can be, with a
condition on what is left.
-/

namespace C1auncher.Runs

open List

variable {α : Type*}

structure Run (α : Type*) where
  fits : α → Bool
  least : ℕ
  most : Option ℕ

def one (fits : α → Bool) : Run α := ⟨fits, 1, some 1⟩

/-- A stretch that a run may take. -/
structure Run.Fits (r : Run α) (part : List α) : Prop where
  all : ∀ c ∈ part, r.fits c
  least : r.least ≤ part.length
  most : ∀ m ∈ r.most, part.length ≤ m

def Run.longest (r : Run α) (text : List α) : ℕ :=
  match r.most with
  | none => (text.takeWhile r.fits).length
  | some m => min m (text.takeWhile r.fits).length

def Run.lengths (r : Run α) (text : List α) : List ℕ :=
  (List.range' r.least (r.longest text + 1 - r.least)).reverse

/-- The parts a row of runs takes of a text, and what is left. -/
def capture (accept : List α → Bool) : List (Run α) → List α → Option (List (List α) × List α)
  | [], text => if accept text then some ([], text) else none
  | r :: rs, text =>
    (r.lengths text).findSome? fun n =>
      (capture accept rs (text.drop n)).map fun found => (text.take n :: found.1, found.2)

example : capture (fun _ => true) [⟨Char.isDigit, 1, some 2⟩, one Char.isDigit] "12x".toList =
    some (["1".toList, "2".toList], "x".toList) := by decide

lemma take_takeWhile {fits : α → Bool} {text : List α} {n : ℕ} :
    (n ≤ (text.takeWhile fits).length) ↔ n ≤ text.length ∧ ∀ c ∈ text.take n, fits c := by
  induction text generalizing n with
  | nil => cases n <;> simp
  | cons c text ih =>
    rcases n with _ | n
    · simp
    rcases hc : fits c with _ | _
    · simp [hc]
    · simp [hc, ih]

lemma Run.le_longest {r : Run α} {text : List α} {n : ℕ} :
    n ≤ r.longest text ↔ n ≤ (text.takeWhile r.fits).length ∧ ∀ m ∈ r.most, n ≤ m := by
  unfold Run.longest
  rcases r.most with _ | m
  · simp
  · simp [Nat.le_min, and_comm]

lemma Run.mem_lengths {r : Run α} {text : List α} {n : ℕ} :
    n ∈ r.lengths text ↔ n ≤ text.length ∧ r.Fits (text.take n) := by
  unfold Run.lengths
  rw [mem_reverse, mem_range'_1]
  constructor
  · rintro ⟨hleast, hlong⟩
    obtain ⟨hwhile, hmost⟩ := Run.le_longest.mp (show n ≤ r.longest text by omega)
    obtain ⟨hle, hall⟩ := take_takeWhile.mp hwhile
    have hlen : (text.take n).length = n := length_take_of_le hle
    exact ⟨hle, hall, by rwa [hlen], by rwa [hlen]⟩
  · rintro ⟨hle, hall, hleast, hmost⟩
    have hlen : (text.take n).length = n := length_take_of_le hle
    rw [hlen] at hleast hmost
    have := Run.le_longest.mpr ⟨take_takeWhile.mpr ⟨hle, hall⟩, hmost⟩
    exact ⟨hleast, by omega⟩

/-- **What is captured fits the runs, and with what is left it is the whole text.** -/
theorem capture_spec {accept : List α → Bool} : ∀ {rs : List (Run α)} {text : List α}
    {parts : List (List α)} {rest : List α}, capture accept rs text = some (parts, rest) →
      List.Forall₂ Run.Fits rs parts ∧ parts.flatten ++ rest = text ∧ accept rest := by
  intro rs
  induction rs with
  | nil =>
    intro text parts rest h
    unfold capture at h
    split at h
    · cases h
      exact ⟨.nil, rfl, ‹_›⟩
    · cases h
  | cons r rs ih =>
    intro text parts rest h
    unfold capture at h
    obtain ⟨n, hn, hfound⟩ := exists_of_findSome?_eq_some h
    obtain ⟨⟨parts', rest'⟩, hmore, heq⟩ := Option.map_eq_some_iff.mp hfound
    cases heq
    obtain ⟨hfits, hflat, hrest⟩ := ih hmore
    refine ⟨.cons (Run.mem_lengths.mp hn).2 hfits, ?_, hrest⟩
    rw [List.flatten_cons, append_assoc, hflat, take_append_drop]

/-- **A text that can be taken apart is.** -/
theorem capture_isSome {accept : List α → Bool} {rs : List (Run α)} {parts : List (List α)}
    {rest : List α} (h : List.Forall₂ Run.Fits rs parts) (hrest : accept rest) :
    (capture accept rs (parts.flatten ++ rest)).isSome := by
  induction h with
  | nil => simp [capture, hrest]
  | @cons r part rs parts hr _ ih =>
    unfold capture
    rw [findSome?_isSome_iff]
    refine ⟨part.length, ?_, ?_⟩
    · rw [Run.mem_lengths, List.flatten_cons, append_assoc, take_left]
      exact ⟨by simp, hr⟩
    · rw [List.flatten_cons, append_assoc, drop_left, Option.isSome_map]
      exact ih

lemma append_unique {fits : α → Bool} {a b x y : List α} (h : a ++ x = b ++ y)
    (ha : ∀ c ∈ a, fits c) (hb : ∀ c ∈ b, fits c) (hx : ∀ c ∈ x.head?, fits c = false)
    (hy : ∀ c ∈ y.head?, fits c = false) : a = b ∧ x = y := by
  induction a generalizing b with
  | nil =>
    rcases b with _ | ⟨c, b⟩
    · exact ⟨rfl, h⟩
    have hc := hx c (by rw [nil_append] at h; rw [h]; rfl)
    rw [hb c mem_cons_self] at hc
    cases hc
  | cons c a ih =>
    rcases b with _ | ⟨d, b⟩
    · have hc := hy c (by rw [nil_append] at h; rw [← h]; rfl)
      rw [ha c mem_cons_self] at hc
      cases hc
    rw [cons_append, cons_append, cons.injEq] at h
    obtain ⟨rfl, hrest⟩ := ih h.2 (fun e he => ha e (mem_cons_of_mem _ he))
      (fun e he => hb e (mem_cons_of_mem _ he))
    exact ⟨by rw [h.1], hrest⟩

end C1auncher.Runs
