import Mathlib.Data.List.Range
import Mathlib.Data.Fin.Basic
import Mathlib.Data.List.Nodup

/-!
Rings: an array of fixed size in which a queue goes round.
-/

namespace C1auncher.Rings

open List Nat

/-- The oldest entry is at the head, the others follow it around the array. -/
structure Ring (α : Type) (n : ℕ) where
  slots : Fin n → α
  head : Fin n
  count : ℕ
  bounded : count ≤ n

namespace Ring

variable {α : Type} {n : ℕ} (r : Ring α n)

/-- The place that is so many behind the head. -/
def place (i : ℕ) : Fin n :=
  ⟨(r.head + i) % n, Nat.mod_lt _ (Nat.zero_lt_of_lt r.head.isLt)⟩

def push (a : α) (h : r.count < n) : Ring α n where
  slots := Function.update r.slots (r.place r.count) a
  head := r.head
  count := r.count + 1
  bounded := h

def front : α := r.slots r.head

def pop : Ring α n where
  slots := r.slots
  head := r.place 1
  count := r.count - 1
  bounded := (Nat.sub_le _ _).trans r.bounded

/-- The entries, the oldest one first. -/
def contents : List α := (List.range r.count).map fun i => r.slots (r.place i)

@[simp] lemma length_contents : r.contents.length = r.count := by
  simp [contents]

lemma contents_eq_nil : r.contents = [] ↔ r.count = 0 := by
  rw [← length_eq_zero_iff, length_contents]

lemma place_ne {i j : ℕ} (h : i < j) (hj : j < n) : r.place i ≠ r.place j := by
  intro heq
  have hmod : (r.head.val + i) % n = (r.head.val + j) % n := congrArg Fin.val heq
  have hhead := r.head.isLt
  rcases Nat.lt_or_ge (r.head.val + i) n with hi | hi <;>
    rcases Nat.lt_or_ge (r.head.val + j) n with hj' | hj'
  · rw [mod_eq_of_lt hi, mod_eq_of_lt hj'] at hmod
    omega
  · rw [mod_eq_of_lt hi, mod_eq_sub_mod hj', mod_eq_of_lt (by omega)] at hmod
    omega
  · omega
  rw [mod_eq_sub_mod hi, mod_eq_of_lt (by omega), mod_eq_sub_mod hj',
    mod_eq_of_lt (by omega)] at hmod
  omega

/-- **A push puts the entry behind all others.** -/
theorem contents_push (a : α) (h : r.count < n) : (r.push a h).contents = r.contents ++ [a] := by
  have hold : ∀ i ∈ List.range r.count,
      (r.push a h).slots ((r.push a h).place i) = r.slots (r.place i) := fun i hi =>
    Function.update_of_ne (r.place_ne (List.mem_range.mp hi) h) _ _
  have hnew : (r.push a h).slots ((r.push a h).place r.count) = a := Function.update_self _ _ _
  change (List.range (r.count + 1)).map _ = _
  rw [range_succ, map_append, map_congr_left hold, map_singleton, hnew]
  rfl

/-- **A pop takes the oldest entry.** -/
theorem contents_pop (h : r.count ≠ 0) : r.contents = r.front :: r.pop.contents := by
  obtain ⟨m, hm⟩ := exists_eq_succ_of_ne_zero h
  have hfirst : r.slots (r.place 0) = r.front := by
    have hplace : r.place 0 = r.head := by
      apply Fin.ext
      exact mod_eq_of_lt (by rw [Nat.add_zero]; exact r.head.isLt)
    rw [hplace, front]
  have hrest : ∀ i ∈ List.range m,
      (fun i => r.slots (r.place i)) (i + 1) = r.pop.slots (r.pop.place i) := by
    intro i _
    change r.slots (r.place (i + 1)) = r.slots (r.pop.place i)
    congr 1
    apply Fin.ext
    change (r.head.val + (i + 1)) % n = ((r.head.val + 1) % n + i) % n
    rw [mod_add_mod, Nat.add_assoc, Nat.add_comm 1 i]
  have hcount : r.pop.count = m := by
    change r.count - 1 = m
    omega
  rw [contents, contents, hm, hcount, succ_eq_add_one, range_succ_eq_map, map_cons, map_map, hfirst]
  exact congrArg _ (map_congr_left hrest)

end Ring

/-! ### A ring that a head writes forward

Entry `0` is the one written last, entry `k` the one written `k` turns earlier. -/

/-- The place of entry `k` behind the head. -/
def slot (n head k : ℕ) : ℕ := (head + n - k) % n

def advance (n head : ℕ) : ℕ := (head + 1) % n

lemma advance_lt {n : ℕ} (hn : 0 < n) (head : ℕ) : advance n head < n := mod_lt _ hn

lemma slot_zero {n head : ℕ} (h : head < n) : slot n head 0 = head := by
  rw [slot, Nat.sub_zero, add_mod_right, mod_eq_of_lt h]

lemma slot_of_le {n head k : ℕ} (h : head < n) (hk : k ≤ head) : slot n head k = head - k := by
  rw [slot, show head + n - k = head - k + n by omega, add_mod_right,
    mod_eq_of_lt (by omega)]

lemma slot_of_lt {n head k : ℕ} (hn : k ≤ n) (hk : head < k) : slot n head k = head + n - k := by
  rw [slot, mod_eq_of_lt (by omega)]

lemma advance_of_lt {n head : ℕ} (h : head + 1 < n) : advance n head = head + 1 :=
  mod_eq_of_lt h

lemma advance_of_eq {n head : ℕ} (h : head + 1 = n) : advance n head = 0 := by
  rw [advance, h, mod_self]

lemma slot_advance {n head k : ℕ} (h : head < n) (hk : k + 1 ≤ n) :
    slot n (advance n head) (k + 1) = slot n head k := by
  rcases Nat.lt_or_ge (head + 1) n with hlt | hge
  · rw [advance_of_lt hlt]
    rcases Nat.lt_or_ge head k with hlow | hhigh
    · rw [slot_of_lt hk (by omega), slot_of_lt (by omega) hlow]
      omega
    · rw [slot_of_le hlt (by omega), slot_of_le h hhigh]
      omega
  · have heq : head + 1 = n := by omega
    rw [advance_of_eq heq, slot_of_lt hk (by omega), slot_of_le h (by omega)]
    omega

lemma slot_inj {n head i j : ℕ} (h : head < n) (hi : i < n) (hj : j < n)
    (he : slot n head i = slot n head j) : i = j := by
  rcases Nat.lt_or_ge head i with hi' | hi' <;> rcases Nat.lt_or_ge head j with hj' | hj'
  · rw [slot_of_lt hi.le hi', slot_of_lt hj.le hj'] at he
    omega
  · rw [slot_of_lt hi.le hi', slot_of_le h hj'] at he
    omega
  · rw [slot_of_le h hi', slot_of_lt hj.le hj'] at he
    omega
  · rw [slot_of_le h hi', slot_of_le h hj'] at he
    omega

section Entries

variable {α : Type*} (n : ℕ)

/-- The last `k` entries, the newest first. -/
def entries (slots : ℕ → α) (head k : ℕ) : List α :=
  (List.range k).map fun i => slots (slot n head i)

def written (slots : ℕ → α) (place : ℕ) (a : α) : ℕ → α :=
  fun i => if i = place then a else slots i

variable {n} {slots : ℕ → α} {head k : ℕ}

@[simp] lemma length_entries : (entries n slots head k).length = k := by simp [entries]

@[simp] lemma getElem_entries {i : ℕ} (h : i < (entries n slots head k).length) :
    (entries n slots head k)[i] = slots (slot n head i) := by
  simp [entries]

lemma mem_entries {a : α} :
    a ∈ entries n slots head k ↔ ∃ i < k, slots (slot n head i) = a := by
  simp [entries]

lemma entries_succ :
    entries n slots head (k + 1) = entries n slots head k ++ [slots (slot n head k)] := by
  simp [entries, range_succ]

lemma dropLast_entries : (entries n slots head (k + 1)).dropLast = entries n slots head k := by
  rw [entries_succ, dropLast_concat]

lemma entries_written (a : α) (h : head < n) (hk : k + 1 ≤ n) :
    entries n (written slots (advance n head) a) (advance n head) (k + 1)
      = a :: entries n slots head k := by
  have hn : 0 < n := by omega
  refine ext_getElem (by simp) fun i h1 h2 => ?_
  rw [getElem_entries]
  cases i with
  | zero => rw [slot_zero (advance_lt hn _)]; simp [written]
  | succ i =>
    have hi : i < k := by simpa using h2
    have hne : slot n (advance n head) (i + 1) ≠ advance n head := by
      intro he
      have := slot_inj (i := i + 1) (j := 0) (advance_lt hn head) (by omega) hn
        (by rw [he, slot_zero (advance_lt hn _)])
      omega
    rw [written, if_neg hne, slot_advance h (by omega)]
    simp

end Entries

end C1auncher.Rings
