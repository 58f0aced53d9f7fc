import C1auncher.BlockHash

/-!
SHA-1 as the standard has it: the message schedule, the eighty steps and the padding.
-/

namespace C1auncher.Sha1

open BlockHash

abbrev Word : Type := BitVec 32

/-! ### One block -/

def ch (x y z : Word) : Word := (x &&& y) ^^^ (~~~x &&& z)

def parity (x y z : Word) : Word := x ^^^ y ^^^ z

def maj (x y z : Word) : Word := (x &&& y) ^^^ (x &&& z) ^^^ (y &&& z)

/-- The function `f` of step `t`. -/
def f (t : ℕ) : Word → Word → Word → Word :=
  if t < 20 then ch else if t < 40 then parity else if t < 60 then maj else parity

/-- The constant `K` of step `t`. -/
def K (t : ℕ) : Word :=
  if t < 20 then 0x5a827999 else if t < 40 then 0x6ed9eba1 else if t < 60 then 0x8f1bbcdc
  else 0xca62c1d6

def word (block : List Byte) (t : ℕ) : Word :=
  block.getD (4 * t) 0 ++ block.getD (4 * t + 1) 0 ++ block.getD (4 * t + 2) 0 ++
    block.getD (4 * t + 3) 0

/-- The message schedule. -/
def W (block : List Byte) (t : ℕ) : Word :=
  if t < 16 then word block t
  else (W block (t - 3) ^^^ W block (t - 8) ^^^ W block (t - 14) ^^^ W block (t - 16)).rotateLeft 1
termination_by t

/-- The five words of a hash value, and the five working variables. -/
@[ext] structure Value where
  a : Word
  b : Word
  c : Word
  d : Word
  e : Word
  deriving DecidableEq

namespace Value

def step (block : List Byte) (v : Value) (t : ℕ) : Value where
  a := v.a.rotateLeft 5 + f t v.b v.c v.d + v.e + K t + W block t
  b := v.a
  c := v.b.rotateLeft 30
  d := v.c
  e := v.d

def compress (v : Value) (block : List Byte) : Value :=
  let w := (List.range 80).foldl (step block) v
  ⟨v.a + w.a, v.b + w.b, v.c + w.c, v.d + w.d, v.e + w.e⟩

def initial : Value := ⟨0x67452301, 0xefcdab89, 0x98badcfe, 0x10325476, 0xc3d2e1f0⟩

def words (v : Value) : List Word := [v.a, v.b, v.c, v.d, v.e]

end Value

/-! ### A message -/

/-- A number's bytes, the highest first. -/
def bigEndian {w : ℕ} (count : ℕ) (x : BitVec w) : List Byte :=
  (List.range count).map fun i => (x >>> (8 * (count - 1 - i))).setWidth 8

/-- How many zeros make a full block with the length. -/
def zeros (length : ℕ) : ℕ := (119 - length % 64) % 64

/-- The end of a message: a one, zeros, and the length in bits. -/
def padding (length : ℕ) : List Byte :=
  0x80 :: List.replicate (zeros length) 0 ++ bigEndian 8 (BitVec.ofNat 64 (8 * length))

/-- The hash of a message; there is one of fewer than 2⁶⁴ bits. -/
def sha1 (message : List Byte) : List Byte :=
  ((blocks 64 (message ++ padding message.length)).foldl Value.compress .initial).words.flatMap
    (bigEndian 4)

lemma length_bigEndian {w : ℕ} (count : ℕ) (x : BitVec w) : (bigEndian count x).length = count := by
  rw [bigEndian, List.length_map, List.length_range]

lemma length_sha1 (message : List Byte) : (sha1 message).length = 20 := by
  simp [sha1, Value.words, length_bigEndian]

end C1auncher.Sha1
