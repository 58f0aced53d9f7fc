import Mathlib

/-!
A queue that slides through an array: what is in it stands in one piece, is taken from the front
and added behind, and is moved to the front of the array when there is no room behind it.
-/

namespace C1auncher.SlidingWindow

open List

variable {α : Type} {n : ℕ}

/-- A piece of an array of `n` places. -/
structure Window (α : Type) (n : ℕ) where
  array : List α
  offset : ℕ
  length : ℕ
  array_length : array.length = n
  inside : offset + length ≤ n

namespace Window

/-- What is in the queue. -/
def contents (w : Window α n) : List α := (w.array.drop w.offset).take w.length

@[simp] lemma length_contents (w : Window α n) : w.contents.length = w.length := by
  have := w.inside
  rw [contents, length_take, length_drop, w.array_length]
  omega

lemma contents_eq_nil {w : Window α n} : w.contents = [] ↔ w.length = 0 := by
  rw [← length_eq_zero_iff, length_contents]

/-- Nothing is in the queue. -/
def clear (w : Window α n) : Window α n :=
  { w with offset := 0, length := 0, inside := Nat.zero_le n }

/-- Take some from the front; an empty queue begins at the front of the array. -/
def advance (w : Window α n) (k : ℕ) (h : k ≤ w.length) : Window α n where
  array := w.array
  offset := if w.length - k = 0 then 0 else w.offset + k
  length := w.length - k
  array_length := w.array_length
  inside := by
    have := w.inside
    split <;> omega

/-- Move the queue to the front of the array. -/
def compact (w : Window α n) : Window α n where
  array := w.contents ++ w.array.drop w.length
  offset := 0
  length := w.length
  array_length := by
    have := w.inside
    rw [List.length_append, length_contents, List.length_drop, w.array_length]
    omega
  inside := by
    have := w.inside
    omega

/-- Add some behind what is there. -/
def append (w : Window α n) (xs : List α) (h : w.offset + w.length + xs.length ≤ n) :
    Window α n where
  array := w.array.take (w.offset + w.length) ++ xs ++
    w.array.drop (w.offset + w.length + xs.length)
  offset := w.offset
  length := w.length + xs.length
  array_length := by
    simp only [List.length_append, List.length_take, List.length_drop, w.array_length]
    omega
  inside := by omega

/-- **What is taken is the front of the queue.** -/
theorem contents_advance (w : Window α n) {k : ℕ} (h : k ≤ w.length) :
    w.contents = w.contents.take k ++ (w.advance k h).contents := by
  have hrest : (w.advance k h).contents = w.contents.drop k := by
    unfold contents advance
    simp only
    split
    · next hall => rw [hall, take_zero, drop_take, hall, take_zero]
    · rw [drop_take, drop_drop]
  rw [hrest, take_append_drop]

/-- **Moving the queue does not change it.** -/
theorem contents_compact (w : Window α n) : w.compact.contents = w.contents := by
  unfold compact contents
  simp only [drop_zero]
  refine take_left' ?_
  have := w.inside
  rw [length_take, length_drop, w.array_length]
  omega

/-- **What is added is the end of the queue.** -/
theorem contents_append (w : Window α n) {xs : List α}
    (h : w.offset + w.length + xs.length ≤ n) :
    (w.append xs h).contents = w.contents ++ xs := by
  have hfront : (w.array.take (w.offset + w.length)).drop w.offset = w.contents := by
    rw [drop_take, contents, Nat.add_sub_cancel_left]
  have hle : w.offset ≤ (w.array.take (w.offset + w.length)).length := by
    rw [length_take, w.array_length]
    omega
  unfold append
  rw [contents]
  simp only
  rw [append_assoc, drop_append_of_le_length hle, hfront, ← append_assoc]
  refine take_left' ?_
  rw [length_append, length_contents]

end Window

end C1auncher.SlidingWindow
