import C1auncher.Sha256

/-!
The digest that every signature and component check rests on. It takes its message in pieces of any
length.
-/

namespace C1auncher.Security.Sha256Context

open BlockHash Sha256 List Option Absorbed
open C1auncher.Sha1 (Word ch maj word bigEndian length_bigEndian padding zeros)

/-! ### One block -/

/-- The array `block`. -/
abbrev Block : Type := { block : List Byte // block.length = 64 }

/-- Bytes written from `offset` on, as long as they stay inside. -/
def Block.put (block : Block) (offset : ℕ) (bytes : List Byte) : Option Block :=
  if h : offset + bytes.length ≤ 64 then
    some ⟨copied block.1 offset bytes, by rw [length_copied (by rwa [block.2]), block.2]⟩
  else none

/-- `rotate_right` -/
def rotateRight (value : Word) (count : ℕ) : Word := value >>> count ||| value <<< (32 - count)

local instance neZero_four : NeZero 4 := ⟨by decide⟩

/-- `load_be32`, at `block + 4 * i`. -/
def loadBe32 (block : Block) (i : Fin 16) : Word :=
  let data (k : Fin 4) : Byte := block.1.get ⟨4 * i + k, by rw [block.2]; omega⟩
  (data 0).setWidth 32 <<< 24 ||| (data 1).setWidth 32 <<< 16 ||| (data 2).setWidth 32 <<< 8 |||
    (data 3).setWidth 32

/-- `store_be32` -/
def storeBe32 (value : Word) : List Byte :=
  [(value >>> 24).setWidth 8, (value >>> 16).setWidth 8, (value >>> 8).setWidth 8, value.setWidth 8]

def constants : List Word :=
  [0x428a2f98, 0x71374491, 0xb5c0fbcf, 0xe9b5dba5, 0x3956c25b, 0x59f111f1, 0x923f82a4, 0xab1c5ed5,
    0xd807aa98, 0x12835b01, 0x243185be, 0x550c7dc3, 0x72be5d74, 0x80deb1fe, 0x9bdc06a7, 0xc19bf174,
    0xe49b69c1, 0xefbe4786, 0x0fc19dc6, 0x240ca1cc, 0x2de92c6f, 0x4a7484aa, 0x5cb0a9dc, 0x76f988da,
    0x983e5152, 0xa831c66d, 0xb00327c8, 0xbf597fc7, 0xc6e00bf3, 0xd5a79147, 0x06ca6351, 0x14292967,
    0x27b70a85, 0x2e1b2138, 0x4d2c6dfc, 0x53380d13, 0x650a7354, 0x766a0abb, 0x81c2c92e, 0x92722c85,
    0xa2bfe8a1, 0xa81a664b, 0xc24b8b70, 0xc76c51a3, 0xd192e819, 0xd6990624, 0xf40e3585, 0x106aa070,
    0x19a4c116, 0x1e376c08, 0x2748774c, 0x34b0bcb5, 0x391c0cb3, 0x4ed8aa4a, 0x5b9cca4f, 0x682e6ff3,
    0x748f82ee, 0x78a5636f, 0x84c87814, 0x8cc70208, 0x90befffa, 0xa4506ceb, 0xbef9a3f7, 0xc67178f2]

/-- The body of the second loop over `words`. -/
def fillWord (words : List Word) (i : ℕ) : List Word :=
  let word15 := words.getD (i - 15) 0
  let word2 := words.getD (i - 2) 0
  let s0 := rotateRight word15 7 ^^^ rotateRight word15 18 ^^^ word15 >>> 3
  let s1 := rotateRight word2 17 ^^^ rotateRight word2 19 ^^^ word2 >>> 10
  words ++ [words.getD (i - 16) 0 + s0 + words.getD (i - 7) 0 + s1]

/-- The array `words`, filled from its start. -/
def words (block : Block) : List Word :=
  (List.range' 16 48).foldl fillWord ((List.finRange 16).map (loadBe32 block))

/-- The body of the loop over the working variables. -/
def roundStep (words : List Word) (v : Value) (i : ℕ) : Value :=
  let s1 := rotateRight v.e 6 ^^^ rotateRight v.e 11 ^^^ rotateRight v.e 25
  let choice := (v.e &&& v.f) ^^^ (~~~v.e &&& v.g)
  let temporary1 := v.h + s1 + choice + constants.getD i 0 + words.getD i 0
  let s0 := rotateRight v.a 2 ^^^ rotateRight v.a 13 ^^^ rotateRight v.a 22
  let majority := (v.a &&& v.b) ^^^ (v.a &&& v.c) ^^^ (v.b &&& v.c)
  let temporary2 := s0 + majority
  { a := temporary1 + temporary2, b := v.a, c := v.b, d := v.c,
    e := v.d + temporary1, f := v.e, g := v.f, h := v.g }

def transform (state : Value) (block : Block) : Value :=
  let v := (List.range 64).foldl (roundStep (words block)) state
  ⟨state.a + v.a, state.b + v.b, state.c + v.c, state.d + v.d, state.e + v.e, state.f + v.f,
    state.g + v.g, state.h + v.h⟩

/-! ### A context -/

/-- `struct c1_sha256_context` -/
structure Context where
  state : Value
  length : BitVec 64
  block : Block
  used : ℕ

/-- `c1_sha256_init` -/
def c1Sha256Init : Context where
  state := ⟨0x6a09e667, 0xbb67ae85, 0x3c6ef372, 0xa54ff53a, 0x510e527f, 0x9b05688c, 0x1f83d9ab,
    0x5be0cd19⟩
  length := 0
  block := ⟨List.replicate 64 0, rfl⟩
  used := 0

/-- The body of the loop of `c1_sha256_update`, which takes `amount` bytes. -/
def takeAmount (context : Context) (taken : List Byte) : Option Context := do
  let block ← context.block.put context.used taken
  let used := context.used + taken.length
  if used = 64 then
    some { context with state := transform context.state block, block := block, used := 0 }
  else some { context with block := block, used := used }

/-- A full block that is still to be compressed comes before the bytes that are left. -/
def left (context : Context) (bytes : List Byte) : ℕ :=
  2 * bytes.length + if context.used = 64 then 1 else 0

lemma takeAmount_used {context next : Context} {taken : List Byte}
    (h : takeAmount context taken = some next) : context.used + taken.length ≤ 64 ∧
      next.used = if context.used + taken.length = 64 then 0 else context.used + taken.length := by
  simp only [takeAmount, Block.put] at h
  split at h
  · rename_i hle
    refine ⟨hle, ?_⟩
    simp only [bind_eq_bind, bind_some] at h
    split_ifs at h ⊢ with hfull <;> exact (some.inj h) ▸ rfl
  · simp at h

lemma left_takeAmount {context next : Context} {bytes : List Byte} (hne : bytes ≠ [])
    (h : takeAmount context (bytes.take (64 - context.used)) = some next) :
    left next (bytes.drop (64 - context.used)) < left context bytes := by
  obtain ⟨hle, hused⟩ := takeAmount_used h
  have hlength := length_pos_iff.mpr hne
  rw [length_take] at hle hused
  rw [left, left, length_drop]
  by_cases hfull : context.used + min (64 - context.used) bytes.length = 64
  · rw [if_pos hfull] at hused
    split_ifs <;> omega
  · rw [if_neg hfull] at hused
    split_ifs <;> omega

/-- The loop of `c1_sha256_update`. -/
def takeBytes (context : Context) (bytes : List Byte) : Option Context :=
  if _ : bytes = [] then some context
  else
    -- past the end of the block the difference wraps round, and the write fails in either case
    match htaken : takeAmount context (bytes.take (64 - context.used)) with
    | none => none
    | some next => takeBytes next (bytes.drop (64 - context.used))
termination_by left context bytes
decreasing_by exact left_takeAmount ‹bytes ≠ []› htaken

/-- `c1_sha256_update` -/
def c1Sha256Update (context : Context) (bytes : List Byte) : Option Context :=
  takeBytes { context with length := context.length + BitVec.ofNat 64 bytes.length } bytes

/-- The branch of `c1_sha256_final` for a block without room for the length. -/
def makeRoom (context : Context) : Option Context :=
  if 56 < context.used then do
    let block ← context.block.put context.used (List.replicate (64 - context.used) 0)
    some { context with state := transform context.state block, block := block, used := 0 }
  else some context

/-- The body of the loop that writes `bits`. -/
def storeBits (bits : BitVec 64) (block : Block) (i : ℕ) : Option Block :=
  block.put (63 - i) [(bits >>> (i * 8)).setWidth 8]

/-- The last block of `c1_sha256_final`, and the state after it. -/
def lastBlock (bits : BitVec 64) (context : Context) : Option Value := do
  let block ← context.block.put context.used (List.replicate (56 - context.used) 0)
  let block ← (List.range 8).foldlM (storeBits bits) block
  some (transform context.state block)

/-- `c1_sha256_final`, with the digest that it writes. -/
def c1Sha256Final (context : Context) : Option (List Byte) := do
  let bits := context.length * 8
  let block ← context.block.put context.used [0x80]
  let context ← makeRoom { context with block := block, used := context.used + 1 }
  let state ← lastBlock bits context
  some (state.words.flatMap storeBe32)

/-- `c1_sha256` -/
def c1Sha256 (data : List Byte) : Option (List Byte) := do
  let context ← c1Sha256Update c1Sha256Init data
  c1Sha256Final context

/-! ### The block is compressed as by the standard -/

lemma rotateRight_eq (value : Word) {count : ℕ} (h : count < 32) :
    rotateRight value count = value.rotateRight count := by
  rw [rotateRight, BitVec.rotateRight_def, Nat.mod_eq_of_lt h]

lemma constants_eq : ∀ t < 64, constants.getD t 0 = K t := by
  unfold K
  rw [primes_eq]
  decide +kernel

lemma init_state : c1Sha256Init.state = Value.initial := by decide +kernel

lemma joined_eq (x y z w : Byte) : x.setWidth 32 <<< 24 ||| y.setWidth 32 <<< 16 |||
    z.setWidth 32 <<< 8 ||| w.setWidth 32 = x ++ y ++ z ++ w := by
  ext i hi
  simp only [BitVec.getElem_or, BitVec.getElem_shiftLeft, BitVec.getElem_setWidth]
  grind

lemma loadBe32_eq (block : Block) (i : Fin 16) : loadBe32 block i = word block.1 i := by
  have hget : ∀ k : Fin 4, block.1.get ⟨4 * i + k, by rw [block.2]; omega⟩ =
      block.1.getD (4 * i + k) 0 := fun k =>
    (getD_eq_getElem _ _ (by rw [block.2]; omega)).symm
  simp only [loadBe32, joined_eq, hget]
  rfl

/-- The array holds the message schedule as far as it is filled. -/
def Filled (block : List Byte) (words : List Word) (count : ℕ) : Prop :=
  words.length = count ∧ ∀ t < count, words.getD t 0 = W block t

lemma filled_first (block : Block) :
    Filled block.1 ((finRange 16).map (loadBe32 block)) 16 := by
  refine ⟨by simp, fun t ht => ?_⟩
  rw [getD_eq_getElem _ _ (by simpa using ht), getElem_map, getElem_finRange,
    loadBe32_eq, W, if_pos ht]
  rfl

lemma Filled.next {block : List Byte} {words : List Word} {i : ℕ} (h : Filled block words i)
    (hi : 16 ≤ i) : Filled block (fillWord words i) (i + 1) := by
  obtain ⟨hlength, hwords⟩ := h
  refine ⟨by rw [fillWord, length_append, hlength]; rfl, fun t ht => ?_⟩
  rw [fillWord]
  rcases Nat.lt_succ_iff_lt_or_eq.mp ht with hlt | rfl
  · rw [getD_append _ _ _ _ (hlength.symm ▸ hlt), hwords t hlt]
  have hlast : ∀ w : Word, (words ++ [w]).getD t 0 = w := fun w => by
    rw [getD_append_right _ _ _ _ hlength.le, hlength, Nat.sub_self]
    rfl
  have hnext : W block t = smallSigma1 (W block (t - 2)) + W block (t - 7) +
      smallSigma0 (W block (t - 15)) + W block (t - 16) := by
    conv_lhs => rw [W, if_neg (by omega)]
  simp only [hlast, rotateRight_eq _ (by omega : 7 < 32), rotateRight_eq _ (by omega : 18 < 32),
    rotateRight_eq _ (by omega : 17 < 32), rotateRight_eq _ (by omega : 19 < 32)]
  rw [hnext, hwords _ (by omega), hwords _ (by omega), hwords _ (by omega),
    hwords _ (by omega), ← smallSigma0, ← smallSigma1]
  ac_rfl

lemma filled_words (block : Block) : Filled block.1 (words block) 64 := by
  have hfill : ∀ count words, Filled block.1 words 16 →
      Filled block.1 ((range' 16 count).foldl fillWord words) (16 + count) := by
    intro count words h
    induction count with
    | zero => exact h
    | succ count ih =>
      rw [range'_1_concat, foldl_append]
      exact ih.next (by omega)
  exact hfill 48 _ (filled_first block)

lemma roundStep_eq (block : Block) (v : Value) {i : ℕ} (hi : i < 64) :
    roundStep (words block) v i = v.step block.1 i := by
  have hword := (filled_words block).2 i hi
  simp only [roundStep, Value.step, bigSigma0, bigSigma1, ch, maj, hword, constants_eq i hi,
    rotateRight_eq _ (by omega : 6 < 32), rotateRight_eq _ (by omega : 11 < 32),
    rotateRight_eq _ (by omega : 25 < 32), rotateRight_eq _ (by omega : 2 < 32),
    rotateRight_eq _ (by omega : 13 < 32), rotateRight_eq _ (by omega : 22 < 32)]

lemma transform_eq (state : Value) (block : Block) :
    transform state block = state.compress block.1 := by
  have hrounds : (List.range 64).foldl (roundStep (words block)) state =
      (List.range 64).foldl (Value.step block.1) state :=
    foldl_ext _ _ _ fun x i hi => roundStep_eq block x (mem_range.mp hi)
  simp only [transform, Value.compress, hrounds]

lemma storeBe32_eq : storeBe32 = bigEndian 4 := by
  funext value
  simp [storeBe32, bigEndian, range_succ]

/-! ### The pieces of a message -/

namespace Context

/-- The hash under way that a context stands for. -/
def absorbed (context : Context) : Absorbed Value Byte :=
  ⟨context.state, context.block.1.take context.used⟩

lemma length_rest {context : Context} (h : context.used ≤ 64) :
    context.absorbed.rest.length = context.used := by
  rw [absorbed, length_take, context.block.2]
  exact min_eq_left h

end Context

lemma put_of_le (block : Block) (offset : ℕ) (bytes : List Byte) (h : offset + bytes.length ≤ 64) :
    ∃ next : Block, block.put offset bytes = some next ∧
      next.1 = copied block.1 offset bytes :=
  ⟨_, dif_pos h, rfl⟩

variable {context : Context} {message : List Byte}

lemma takeAmount_absorbed {taken : List Byte} (hroom : context.used < 64)
    (hfit : context.used + taken.length ≤ 64) :
    ∃ next, takeAmount context taken = some next ∧ next.used < 64 ∧ next.length = context.length ∧
      next.absorbed = context.absorbed.absorb 64 Value.compress taken := by
  obtain ⟨block, hput, hblock⟩ := put_of_le context.block _ _ hfit
  have hcopied : block.1.take (context.used + taken.length) =
      context.block.1.take context.used ++ taken := by
    rw [hblock, copied_take _ _ _ (by rwa [context.block.2])]
  simp only [takeAmount, hput, bind_eq_bind, bind_some]
  split_ifs with hfull
  · -- the block is full: it is compressed, and the next one is empty
    refine ⟨_, rfl, by simp, rfl, ?_⟩
    have hne : taken ≠ [] := by
      rintro rfl
      rw [length_nil] at hfull
      omega
    rw [hfull, take_of_length_le block.2.le] at hcopied
    rw [absorb_of_eq hne (by rw [Context.length_rest hroom.le, hfull])]
    simp only [Context.absorbed, transform_eq, hcopied, take_zero]
  · refine ⟨_, rfl, by simp only; omega, rfl, ?_⟩
    rw [Absorbed.absorb_of_lt (by rw [Context.length_rest hroom.le]; omega)]
    exact Absorbed.ext rfl hcopied

lemma takeBytes_absorbed (context : Context) (bytes : List Byte) (hroom : context.used < 64) :
    ∃ next, takeBytes context bytes = some next ∧ next.used < 64 ∧ next.length = context.length ∧
      next.absorbed = context.absorbed.absorb 64 Value.compress bytes := by
  induction hk : left context bytes using Nat.strong_induction_on generalizing context bytes with
  | h k ih =>
    by_cases hne : bytes = []
    · exact ⟨context, by rw [takeBytes, dif_pos hne], hroom, rfl, by rw [hne, absorb_nil]⟩
    have hfit : context.used + (bytes.take (64 - context.used)).length ≤ 64 := by
      rw [length_take]
      omega
    obtain ⟨middle, htaken, hmiddle, hlength, habsorbed⟩ := takeAmount_absorbed hroom hfit
    obtain ⟨next, hnext, hused, hsame, hrest⟩ :=
      ih _ (hk ▸ left_takeAmount hne htaken) _ _ hmiddle rfl
    refine ⟨next, ?_, hused, hsame.trans hlength, ?_⟩
    · rw [takeBytes, dif_neg hne]
      split
      · rename_i heq
        rw [htaken] at heq
        cases heq
      rename_i heq
      rw [htaken] at heq
      cases heq
      exact hnext
    · rw [hrest, habsorbed, ← absorb_append, take_append_drop]

structure Given (context : Context) (message : List Byte) : Prop where
  room : context.used < 64
  absorbed : context.absorbed = (Absorbed.mk .initial []).absorb 64 Value.compress message
  length : context.length = BitVec.ofNat 64 message.length

lemma given_init : Given c1Sha256Init [] where
  room := by decide
  absorbed := by
    rw [absorb_nil, ← init_state]
    rfl
  length := rfl

lemma Given.update (h : Given context message)
    (bytes : List Byte) :
    ∃ next, c1Sha256Update context bytes = some next ∧ Given next (message ++ bytes) := by
  obtain ⟨next, hnext, hroom, hlength, habsorbed⟩ := takeBytes_absorbed
    { context with length := context.length + BitVec.ofNat 64 bytes.length } bytes h.room
  refine ⟨next, hnext, hroom, ?_, ?_⟩
  · rw [habsorbed, absorb_append, ← h.absorbed]
    rfl
  · rw [hlength, length_append, BitVec.ofNat_add, ← h.length]

lemma Given.updates (h : Given context message)
    (pieces : List (List Byte)) :
    ∃ next, pieces.foldlM c1Sha256Update context = some next ∧
      Given next (message ++ pieces.flatten) := by
  induction pieces generalizing context message with
  | nil => exact ⟨context, rfl, by rwa [flatten_nil, append_nil]⟩
  | cons bytes pieces ih =>
    obtain ⟨middle, hmiddle, hgiven⟩ := h.update bytes
    obtain ⟨next, hnext, hall⟩ := ih hgiven
    refine ⟨next, ?_, by rwa [List.flatten_cons, ← append_assoc]⟩
    rw [foldlM_cons, hmiddle]
    exact hnext

lemma Given.used (h : Given context message) :
    context.used = message.length % 64 := by
  rw [← Context.length_rest h.room.le, h.absorbed, absorb_blocks (by omega), length_drop]
  omega

lemma Given.length_mod (h : Given context message) :
    context.length.toNat % 64 = context.used := by
  rw [h.length, BitVec.toNat_ofNat, h.used]
  exact Nat.mod_mod_of_dvd _ (by decide)

/-! ### The end -/

lemma storeBits_run (bits : BitVec 64) (block : Block) {count : ℕ} (h : count ≤ 8) :
    ∃ next : Block, (List.range count).foldlM (storeBits bits) block = some next ∧
      next.1 = block.1.take (64 - count) ++ (bigEndian 8 bits).drop (8 - count) := by
  induction count with
  | zero =>
    refine ⟨block, rfl, ?_⟩
    rw [drop_of_length_le (length_bigEndian 8 bits).le, append_nil, take_of_length_le block.2.le]
  | succ count ih =>
    obtain ⟨middle, hmiddle, hbytes⟩ := ih (by omega)
    obtain ⟨next, hnext, hcopied⟩ := put_of_le middle (63 - count)
      ([(bits >>> (count * 8)).setWidth 8]) (by simp; omega)
    refine ⟨next, ?_, ?_⟩
    · rw [range_succ, foldlM_append, hmiddle]
      simp only [bind_eq_bind, bind_some, foldlM_cons, foldlM_nil, storeBits, hnext]
      rfl
    have hfront : middle.1.take (63 - count) = block.1.take (63 - count) := by
      rw [hbytes, take_append_of_le_length (by rw [length_take, block.2]; omega),
        take_take, min_eq_left (by omega)]
    have hback : middle.1.drop (64 - count) = (bigEndian 8 bits).drop (8 - count) := by
      rw [hbytes]
      exact drop_left' (by rw [length_take, block.2]; omega)
    have hbyte : (bigEndian 8 bits).drop (7 - count) =
        (bits >>> (count * 8)).setWidth 8 :: (bigEndian 8 bits).drop (8 - count) := by
      rw [drop_eq_getElem_cons (by rw [length_bigEndian]; omega)]
      congr 1
      · simp only [bigEndian, getElem_map, getElem_range]
        congr 2
        omega
      · congr 1
        omega
    rw [hcopied, copied, hfront, length_singleton,
      show 63 - count + 1 = 64 - count by omega, hback,
      show 64 - (count + 1) = 63 - count by omega, show 8 - (count + 1) = 7 - count by omega,
      hbyte, append_assoc, singleton_append]

lemma lastBlock_eq (bits : BitVec 64) (h : context.used ≤ 56) :
    lastBlock bits context = some (context.state.compress (context.absorbed.rest ++
      List.replicate (56 - context.used) 0 ++ bigEndian 8 bits)) := by
  have hzeros : (replicate (56 - context.used) (0 : Byte)).length = 56 - context.used :=
    length_replicate
  obtain ⟨block, hput, hblock⟩ := put_of_le context.block (context.used)
    (replicate (56 - context.used) 0) (by rw [hzeros]; omega)
  obtain ⟨last, hlast, hbytes⟩ := storeBits_run bits block le_rfl
  have hcopied := copied_take context.block.1 (replicate (56 - context.used) 0) context.used
    (by rw [hzeros, context.block.2]; omega)
  rw [hzeros, Nat.add_sub_cancel' h, ← hblock] at hcopied
  rw [Nat.sub_self, drop_zero, show 64 - 8 = 56 from rfl, hcopied] at hbytes
  rw [lastBlock, hput, bind_eq_bind, bind_some, hlast]
  exact congrArg some ((transform_eq _ _).trans (congrArg _ hbytes))

lemma makeRoom_eq (h : context.used ≤ 64) :
    ∃ next, makeRoom context = some next ∧ next.used ≤ 56 ∧
      (context.used ≤ 56 → next = context) ∧ (56 < context.used → next.used = 0 ∧
        next.state = context.state.compress
          (context.absorbed.rest ++ List.replicate (64 - context.used) 0)) := by
  by_cases hfull : 56 < context.used
  · have hzeros : (replicate (64 - context.used) (0 : Byte)).length = 64 - context.used :=
      length_replicate
    obtain ⟨block, hput, hblock⟩ := put_of_le context.block (context.used)
      (replicate (64 - context.used) 0) (by rw [hzeros]; omega)
    have hcopied := copied_take context.block.1 (replicate (64 - context.used) 0)
      context.used (by rw [hzeros, context.block.2]; omega)
    rw [hzeros, Nat.add_sub_cancel' h, ← hblock, take_of_length_le block.2.le] at hcopied
    have hroom : makeRoom context = some { context with
        state := transform context.state block, block := block, used := 0 } := by
      rw [makeRoom, if_pos hfull, hput]
      rfl
    have hstate : transform context.state block = context.state.compress
        (context.absorbed.rest ++ replicate (64 - context.used) 0) :=
      (transform_eq _ _).trans (congrArg _ hcopied)
    exact ⟨_, hroom, Nat.zero_le 56, fun hle => absurd hfull (by omega), fun _ => ⟨rfl, hstate⟩⟩
  · exact ⟨context, if_neg hfull, by omega, fun _ => rfl, fun hlt => absurd hlt hfull⟩

/-- **The digest of what has been given** is written, in however many pieces it came. -/
lemma Given.final (h : Given context message) :
    c1Sha256Final context = some (sha256 message) := by
  have hroom := h.room
  have hused := h.used
  have hrest := Context.length_rest hroom.le
  have hbits : context.length * 8 = BitVec.ofNat 64 (8 * message.length) := by
    rw [h.length, Nat.mul_comm, BitVec.ofNat_mul]
    rfl
  -- it is enough that the state at the end is the one after the padded message
  have hdigest : ∀ state, (context.absorbed.absorb 64 Value.compress
      (padding message.length)).chain = state →
      state.words.flatMap storeBe32 = sha256 message := by
    rintro state rfl
    rw [h.absorbed, ← absorb_append, absorb_blocks (by omega), storeBe32_eq]
    rfl
  obtain ⟨block, hput, hblock⟩ := put_of_le context.block (context.used)
    ([0x80]) (by simp; omega)
  have hused : (Context.used { context with block := block, used := context.used + 1 }) ≤ 64 := by
    simp only
    omega
  obtain ⟨next, hnext, hle, hsame, hmore⟩ := makeRoom_eq hused
  have hone : (Context.absorbed { context with block := block, used := context.used + 1 }).rest =
      context.absorbed.rest ++ [0x80] := by
    have hcopied := copied_take context.block.1 [0x80] context.used
      (by simp [context.block.2]; omega)
    rwa [← hblock] at hcopied
  simp only [c1Sha256Final, hput, hnext, lastBlock_eq _ hle, bind_eq_bind, bind_some]
  rw [hdigest]
  by_cases hfull : 56 < context.used + 1
  · obtain ⟨hzero, hstate⟩ := hmore hfull
    have hpadding : padding message.length = 0x80 :: replicate (63 - context.used) 0 ++
        (replicate 56 0 ++ bigEndian 8 (context.length * 8)) := by
      have hzeros : zeros message.length = (63 - context.used) + 56 := by
        rw [zeros]
        omega
      rw [padding, hbits, hzeros, replicate_add, ← cons_append, append_assoc]
    have hnil : next.absorbed.rest = [] := by rw [Context.absorbed, hzero, take_zero]
    rw [hpadding, absorb_append, absorb_of_eq (cons_ne_nil _ _) (by simp; omega),
      absorb_of_eq (by simp) (by simp [length_bigEndian])]
    rw [hstate, hone, hnil, hzero]
    simp [Context.absorbed]
  · have hpadding : padding message.length = 0x80 :: replicate (55 - context.used) 0 ++
        bigEndian 8 (context.length * 8) := by
      have hzeros : zeros message.length = 55 - context.used := by
        rw [zeros]
        omega
      rw [padding, hbits, hzeros]
    rw [hpadding, absorb_of_eq (by simp) (by simp [length_bigEndian]; omega)]
    rw [hsame (by simp only; omega), hone]
    simp [Context.absorbed]

lemma c1Sha256_eq (data : List Byte) : c1Sha256 data = some (sha256 data) := by
  obtain ⟨context, hcontext, hgiven⟩ := given_init.update data
  rw [c1Sha256, hcontext]
  exact hgiven.final

end C1auncher.Security.Sha256Context
