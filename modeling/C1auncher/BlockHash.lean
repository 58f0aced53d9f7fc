import Mathlib

/-!
Hashing block by block, and what is built on a hash: HMAC and PBKDF2.

A hash that is given its message in parts keeps the bytes of the block that is not full yet. It is
described as taking one byte after the other, so that the parts do not matter.
-/

namespace C1auncher.BlockHash

open List Nat

variable {S B : Type*}

/-! ### Blocks -/

/-- The full blocks of `n` at the front. -/
def blocks (n : ℕ) (l : List B) : List (List B) :=
  (List.range (l.length / n)).map fun i => (l.drop (n * i)).take n

lemma blocks_of_lt {n : ℕ} {l : List B} (h : l.length < n) : blocks n l = [] := by
  rw [blocks, div_eq_of_lt h]
  rfl

lemma length_append_div {n : ℕ} (hn : 0 < n) {block : List B} (hblock : block.length = n)
    (l : List B) : (block ++ l).length / n = l.length / n + 1 := by
  rw [length_append, hblock, add_div_left _ hn]

lemma drop_append_succ {n : ℕ} {block : List B} (hblock : block.length = n) (l : List B) (i : ℕ) :
    (block ++ l).drop (n * (i + 1)) = l.drop (n * i) := by
  rw [mul_succ, Nat.add_comm, ← hblock, ← drop_drop, drop_left]

lemma blocks_append {n : ℕ} (hn : 0 < n) {block : List B} (hblock : block.length = n)
    (l : List B) : blocks n (block ++ l) = block :: blocks n l := by
  rw [blocks, length_append_div hn hblock, range_succ_eq_map, map_cons, map_map]
  congr 1
  · rw [Nat.mul_zero, drop_zero, ← hblock, take_left]
  · refine map_congr_left fun i _ => ?_
    exact congrArg (List.take n) (drop_append_succ hblock l i)

/-! ### A block in memory -/

/-- `memcpy` into the block. -/
def copied (block : List B) (used : ℕ) (bytes : List B) : List B :=
  block.take used ++ bytes ++ block.drop (used + bytes.length)

lemma length_copied {block bytes : List B} {used : ℕ} (h : used + bytes.length ≤ block.length) :
    (copied block used bytes).length = block.length := by
  simp only [copied, length_append, length_take, length_drop]
  omega

lemma copied_take (block bytes : List B) (used : ℕ) (h : used + bytes.length ≤ block.length) :
    (copied block used bytes).take (used + bytes.length) = block.take used ++ bytes := by
  refine take_left' ?_
  rw [length_append, length_take]
  omega

/-! ### One byte after the other -/

/-- A hash under way: the value of the full blocks, and what is left of the bytes. -/
@[ext] structure Absorbed (S B : Type*) where
  chain : S
  rest : List B

variable (n : ℕ) (compress : S → List B → S)

namespace Absorbed

def takeByte (s : Absorbed S B) (b : B) : Absorbed S B :=
  if s.rest.length + 1 < n then ⟨s.chain, s.rest ++ [b]⟩
  else ⟨compress s.chain (s.rest ++ [b]), []⟩

def absorb (s : Absorbed S B) (bytes : List B) : Absorbed S B := bytes.foldl (takeByte n compress) s

variable {n compress} {s : Absorbed S B} {bytes : List B}

@[simp] lemma absorb_nil : s.absorb n compress [] = s := rfl

lemma absorb_append (more : List B) :
    s.absorb n compress (bytes ++ more) = (s.absorb n compress bytes).absorb n compress more :=
  foldl_append

lemma absorb_of_lt (h : s.rest.length + bytes.length < n) :
    s.absorb n compress bytes = ⟨s.chain, s.rest ++ bytes⟩ := by
  induction bytes generalizing s with
  | nil => rw [absorb_nil, append_nil]
  | cons b bytes ih =>
    rw [length_cons] at h
    have hbyte : s.takeByte n compress b = ⟨s.chain, s.rest ++ [b]⟩ := if_pos (by omega)
    have hrest : (s.takeByte n compress b).rest.length + bytes.length < n := by
      rw [hbyte, length_append, length_singleton]
      omega
    calc s.absorb n compress (b :: bytes)
        = (s.takeByte n compress b).absorb n compress bytes := rfl
      _ = ⟨s.chain, (s.rest ++ [b]) ++ bytes⟩ := by rw [ih hrest, hbyte]
      _ = ⟨s.chain, s.rest ++ b :: bytes⟩ := by rw [append_assoc, singleton_append]

lemma absorb_of_eq (hne : bytes ≠ []) (h : s.rest.length + bytes.length = n) :
    s.absorb n compress bytes = ⟨compress s.chain (s.rest ++ bytes), []⟩ := by
  obtain ⟨init, last, rfl⟩ := (eq_nil_or_concat' bytes).resolve_left hne
  rw [length_append, length_singleton] at h
  have hinit : s.absorb n compress init = ⟨s.chain, s.rest ++ init⟩ := absorb_of_lt (by omega)
  have hfull : ¬(s.rest ++ init).length + 1 < n := by
    rw [length_append]
    omega
  calc s.absorb n compress (init ++ [last])
      = (Absorbed.mk s.chain (s.rest ++ init)).takeByte n compress last := by
        rw [absorb_append, hinit]
        rfl
    _ = ⟨compress s.chain (s.rest ++ init ++ [last]), []⟩ := if_neg hfull
    _ = ⟨compress s.chain (s.rest ++ (init ++ [last])), []⟩ := by rw [append_assoc]

lemma absorb_blocks (hn : 0 < n) (chain : S) (bytes : List B) :
    (Absorbed.mk chain []).absorb n compress bytes =
      ⟨(blocks n bytes).foldl compress chain, bytes.drop (n * (bytes.length / n))⟩ := by
  induction hk : bytes.length / n generalizing chain bytes with
  | zero =>
    have hlt : bytes.length < n := (div_eq_zero_iff_lt hn).mp hk
    rw [absorb_of_lt (by simpa using hlt), blocks_of_lt hlt, nil_append]
    rfl
  | succ k ih =>
    obtain ⟨block, rest, rfl, hblock⟩ :
        ∃ block rest, bytes = block ++ rest ∧ block.length = n := by
      have hle : n ≤ bytes.length := (Nat.div_pos_iff.mp (hk.symm ▸ k.succ_pos)).2
      exact ⟨bytes.take n, bytes.drop n, (take_append_drop n bytes).symm,
        length_take_of_le hle⟩
    have hne : block ≠ [] := by
      rintro rfl
      rw [← hblock, length_nil] at hn
      omega
    have hrest : rest.length / n = k := by
      rw [length_append_div hn hblock] at hk
      omega
    have hfirst : (Absorbed.mk chain []).absorb n compress block = ⟨compress chain block, []⟩ :=
      absorb_of_eq hne (by simpa using hblock)
    rw [absorb_append, hfirst, ih _ _ hrest, blocks_append hn hblock, foldl_cons,
      drop_append_succ hblock]

end Absorbed

/-! ### HMAC -/

abbrev Byte : Type := BitVec 8

section Hmac

variable (hash : List Byte → List Byte) (n : ℕ)

/-- The key as one block: a long one is hashed, a short one is filled up with zeros. -/
def keyBlock (key : List Byte) : List Byte :=
  let key := if n < key.length then hash key else key
  key ++ List.replicate (n - key.length) 0

/-- HMAC with a hash whose blocks have `n` bytes. -/
def hmac (key text : List Byte) : List Byte :=
  let inner := (keyBlock hash n key).map (· ^^^ 0x36)
  let outer := (keyBlock hash n key).map (· ^^^ 0x5c)
  hash (outer ++ hash (inner ++ text))

variable {hash n} {key : List Byte}

lemma keyBlock_of_le (h : key.length ≤ n) :
    keyBlock hash n key = key ++ replicate (n - key.length) 0 := by
  rw [keyBlock, if_neg (not_lt.mpr h)]

lemma length_keyBlock_of_le (h : key.length ≤ n) : (keyBlock hash n key).length = n := by
  rw [keyBlock_of_le h, length_append, length_replicate]
  omega

end Hmac

/-! ### PBKDF2 -/

section Pbkdf2

variable (prf : List Byte → List Byte → List Byte) (password salt : List Byte)

def xorBytes (a b : List Byte) : List Byte := List.zipWith (· ^^^ ·) a b

/-- A number in four bytes, the highest first. -/
def int32 (i : ℕ) : List Byte := [24, 16, 8, 0].map fun shift => BitVec.ofNat 8 (i / 2 ^ shift)

/-- The values `U₁`, `U₂`, … of a block, counted from 0. -/
def chainValue (i : ℕ) : ℕ → List Byte
  | 0 => prf password (salt ++ int32 i)
  | j + 1 => prf password (chainValue i j)

/-- A block of the key: its first `c` values, added up. -/
def keyPart (c i : ℕ) : List Byte :=
  (List.range (c - 1)).foldl (fun t j => xorBytes t (chainValue prf password salt i (j + 1)))
    (chainValue prf password salt i 0)

/-- PBKDF2 with a function whose values have `n` bytes. -/
def pbkdf2 (n c length : ℕ) : List Byte :=
  ((List.range' 1 ((length + n - 1) / n)).flatMap (keyPart prf password salt c)).take length

variable {prf password salt}

lemma keyPart_succ (c i : ℕ) : keyPart prf password salt (c + 2) i =
    xorBytes (keyPart prf password salt (c + 1) i) (chainValue prf password salt i (c + 1)) := by
  rw [keyPart, keyPart, Nat.add_sub_cancel, show c + 2 - 1 = c + 1 from rfl, range_succ,
    foldl_append]
  rfl

lemma length_xorBytes {a b : List Byte} {n : ℕ} (ha : a.length = n) (hb : b.length = n) :
    (xorBytes a b).length = n := by
  rw [xorBytes, length_zipWith, ha, hb, min_self]

lemma length_chainValue {n : ℕ} (h : ∀ text, (prf password text).length = n) (i j : ℕ) :
    (chainValue prf password salt i j).length = n := by
  cases j <;> exact h _

lemma length_keyPart {n : ℕ} (h : ∀ text, (prf password text).length = n) (c i : ℕ) :
    (keyPart prf password salt c i).length = n := by
  have hfold : ∀ (js : List ℕ) (t : List Byte), t.length = n →
      (js.foldl (fun t j => xorBytes t (chainValue prf password salt i (j + 1))) t).length = n := by
    intro js
    induction js with
    | nil => exact fun _ ht => ht
    | cons j js ih => exact fun t ht => ih _ (length_xorBytes ht (length_chainValue h i _))
  exact hfold _ _ (length_chainValue h i 0)

end Pbkdf2

end C1auncher.BlockHash
