import C1auncher.Sha1

/-!
SHA-256 as the standard has it. The constants are no table here: they are the first bits of the
roots of the first primes.
-/

namespace C1auncher.Sha256

open BlockHash
open C1auncher.Sha1 (Word ch maj word bigEndian padding zeros)

/-! ### The constants -/

def primes : List ℕ := (List.range 312).filter fun p => 2 ≤ p ∧ ∀ d < p, d ∣ p → d = 1

lemma prime_iff {p : ℕ} (hp : p < 312) (hpos : 0 < p) :
    (∀ d < p, d ∣ p → d = 1) ↔ ∀ d < 18, d ∣ p → d = 1 ∨ d = p := by
  constructor
  · intro h d _ hd
    rcases Nat.lt_or_ge d p with hlt | hge
    · exact Or.inl (h d hlt hd)
    · exact Or.inr (le_antisymm (Nat.le_of_dvd hpos hd) hge)
  rintro h d hlt ⟨e, rfl⟩
  rcases Nat.lt_or_ge d 18 with hd | hd
  · exact (h d hd (Nat.dvd_mul_right d e)).resolve_right (by omega)
  have he : e < 18 := by
    by_contra hge
    have := Nat.mul_le_mul hd (Nat.not_lt.mp hge)
    omega
  rcases h e he (Nat.dvd_mul_left e d) with h1 | h1
  · rw [h1, Nat.mul_one] at hlt
    exact absurd hlt (lt_irrefl d)
  · exact Nat.eq_of_mul_eq_mul_right (Nat.pos_of_mul_pos_left hpos) (by rw [← h1, Nat.one_mul])

lemma primes_eq : primes = [2, 3, 5, 7, 11, 13, 17, 19, 23, 29, 31, 37, 41, 43, 47, 53, 59, 61, 67,
    71, 73, 79, 83, 89, 97, 101, 103, 107, 109, 113, 127, 131, 137, 139, 149, 151, 157, 163, 167,
    173, 179, 181, 191, 193, 197, 199, 211, 223, 227, 229, 233, 239, 241, 251, 257, 263, 269, 271,
    277, 281, 283, 293, 307, 311] := by
  have hsmall : primes = (List.range 312).filter
      fun p => 2 ≤ p ∧ ∀ d < 18, d ∣ p → d = 1 ∨ d = p := by
    refine List.filter_congr fun p hp => decide_eq_decide.mpr (and_congr_right fun h2 => ?_)
    exact prime_iff (List.mem_range.mp hp) (by omega)
  rw [hsmall]
  decide

/-- The first 32 bits of the fraction of the `n`-th root of `p`. -/
@[irreducible] def rootFraction (n p : ℕ) : Word :=
  BitVec.ofNat 32 (Nat.nthRoot n (p * 2 ^ (32 * n)))

/-- The constant `K` of step `t`. -/
def K (t : ℕ) : Word := rootFraction 3 (primes.getD t 0)

/-! ### One block -/

/-- `Σ₀` -/
def bigSigma0 (x : Word) : Word := x.rotateRight 2 ^^^ x.rotateRight 13 ^^^ x.rotateRight 22

/-- `Σ₁` -/
def bigSigma1 (x : Word) : Word := x.rotateRight 6 ^^^ x.rotateRight 11 ^^^ x.rotateRight 25

/-- `σ₀` -/
def smallSigma0 (x : Word) : Word := x.rotateRight 7 ^^^ x.rotateRight 18 ^^^ x >>> 3

/-- `σ₁` -/
def smallSigma1 (x : Word) : Word := x.rotateRight 17 ^^^ x.rotateRight 19 ^^^ x >>> 10

/-- The message schedule. -/
def W (block : List Byte) (t : ℕ) : Word :=
  if t < 16 then word block t
  else smallSigma1 (W block (t - 2)) + W block (t - 7) + smallSigma0 (W block (t - 15)) +
    W block (t - 16)
termination_by t

/-- The eight words of a hash value, and the eight working variables. -/
@[ext] structure Value where
  a : Word
  b : Word
  c : Word
  d : Word
  e : Word
  f : Word
  g : Word
  h : Word
  deriving DecidableEq

namespace Value

def step (block : List Byte) (v : Value) (t : ℕ) : Value :=
  let t1 := v.h + bigSigma1 v.e + ch v.e v.f v.g + K t + W block t
  let t2 := bigSigma0 v.a + maj v.a v.b v.c
  ⟨t1 + t2, v.a, v.b, v.c, v.d + t1, v.e, v.f, v.g⟩

def compress (v : Value) (block : List Byte) : Value :=
  let w := (List.range 64).foldl (step block) v
  ⟨v.a + w.a, v.b + w.b, v.c + w.c, v.d + w.d, v.e + w.e, v.f + w.f, v.g + w.g, v.h + w.h⟩

def initial : Value :=
  ⟨rootFraction 2 2, rootFraction 2 3, rootFraction 2 5, rootFraction 2 7, rootFraction 2 11,
    rootFraction 2 13, rootFraction 2 17, rootFraction 2 19⟩

def words (v : Value) : List Word := [v.a, v.b, v.c, v.d, v.e, v.f, v.g, v.h]

end Value

/-! ### A message -/

/-- The hash of a message; there is one of fewer than 2⁶⁴ bits. -/
def sha256 (message : List Byte) : List Byte :=
  ((blocks 64 (message ++ padding message.length)).foldl Value.compress .initial).words.flatMap
    (bigEndian 4)

end C1auncher.Sha256
