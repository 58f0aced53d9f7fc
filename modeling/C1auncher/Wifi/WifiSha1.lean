import C1auncher.Sha1

/-!
The hash of the Wi-Fi service, which takes its message in parts of any length.
-/

namespace C1auncher.Wifi.WifiSha1

open BlockHash Sha1 List

/-! ### One block -/

/-- `rotate_left` -/
def rotateLeft (value : Word) (bits : ℕ) : Word := value <<< bits ||| value >>> (32 - bits)

/-- A word from four bytes at `p`. -/
def readWord (block : List Byte) (p : ℕ) : Word :=
  (block.getD p 0).setWidth 32 <<< 24 ||| (block.getD (p + 1) 0).setWidth 32 <<< 16 |||
    (block.getD (p + 2) 0).setWidth 32 <<< 8 ||| (block.getD (p + 3) 0).setWidth 32

/-- The body of the loop that fills `words`. -/
def fillWord (words : List Word) (i : ℕ) : List Word :=
  words ++ [rotateLeft (words.getD (i - 3) 0 ^^^ words.getD (i - 8) 0 ^^^
    words.getD (i - 14) 0 ^^^ words.getD (i - 16) 0) 1]

/-- The array `words`, filled from its start. -/
def words (block : List Byte) : List Word :=
  (List.range' 16 64).foldl fillWord ((List.range 16).map fun i => readWord block (i * 4))

/-- The body of the loop over the words. -/
def roundStep (words : List Word) (v : Value) (i : ℕ) : Value :=
  let (f, k) : Word × Word :=
    if i < 20 then ((v.b &&& v.c) ||| (~~~v.b &&& v.d), 0x5a827999)
    else if i < 40 then (v.b ^^^ v.c ^^^ v.d, 0x6ed9eba1)
    else if i < 60 then ((v.b &&& v.c) ||| (v.b &&& v.d) ||| (v.c &&& v.d), 0x8f1bbcdc)
    else (v.b ^^^ v.c ^^^ v.d, 0xca62c1d6)
  let next := rotateLeft v.a 5 + f + v.e + k + words.getD i 0
  { a := next, b := v.a, c := rotateLeft v.b 30, d := v.c, e := v.d }

/-- `wifi_sha1_transform`, with the block of the context. -/
def wifiSha1Transform (state : Value) (block : List Byte) : Value :=
  let v := (List.range 80).foldl (roundStep (words block)) state
  ⟨state.a + v.a, state.b + v.b, state.c + v.c, state.d + v.d, state.e + v.e⟩

/-! ### A context -/

/-- `wifi_sha1` -/
structure Context where
  state : Value
  bytes : BitVec 64
  block : List Byte
  used : ℕ
  size : block.length = 64
  room : used < 64

lemma length_zeros : (List.replicate 64 (0 : Byte)).length = 64 := rfl

/-- `wifi_sha1_init` -/
def wifiSha1Init : Context where
  state := ⟨0x67452301, 0xefcdab89, 0x98badcfe, 0x10325476, 0xc3d2e1f0⟩
  bytes := 0
  block := List.replicate 64 0
  used := 0
  size := length_zeros
  room := by decide

/-- The loop of `wifi_sha1_update`. -/
def takeBytes (context : Context) (bytes : List Byte) : Context :=
  if hsize : bytes = [] then context
  else
    let taken := bytes.take (64 - context.used)
    have hlength : (copied context.block context.used taken).length = 64 := by
      rw [length_copied, context.size]
      rw [context.size, List.length_take]
      have := context.room
      omega
    let block := copied context.block context.used taken
    if hfull : context.used + taken.length = 64 then
      takeBytes { context with
        state := wifiSha1Transform context.state block
        block := block
        used := 0
        size := hlength
        room := by decide } (bytes.drop (64 - context.used))
    else
      takeBytes { context with
        block := block
        used := context.used + taken.length
        size := hlength
        room := by
          have := context.room
          simp only [taken, List.length_take] at hfull ⊢
          omega } (bytes.drop (64 - context.used))
termination_by bytes.length
decreasing_by
  all_goals
    have := context.room
    have := List.length_pos_iff.mpr hsize
    rw [List.length_drop]
    omega

/-- `wifi_sha1_update` -/
def wifiSha1Update (context : Context) (bytes : List Byte) : Context :=
  takeBytes { context with bytes := context.bytes + BitVec.ofNat 64 bytes.length } bytes

/-- `wifi_sha1_finish` -/
def wifiSha1Finish (context : Context) : List Byte :=
  let padding : List Byte := 0x80 :: List.replicate 63 0
  let bits := context.bytes * 8
  let count := if context.used < 56 then 56 - context.used else 120 - context.used
  -- `length[7 - i]` is bits `8 i` and on
  let length := (List.range 8).map fun i => (bits >>> ((7 - i) * 8)).setWidth 8
  let context := wifiSha1Update context (padding.take count)
  let context := wifiSha1Update context length
  (List.range 20).map fun i =>
    (context.state.words.getD (i / 4) 0 >>> ((3 - i % 4) * 8)).setWidth 8

/-! ### The block is compressed as by the standard -/

lemma rotateLeft_eq (value : Word) {bits : ℕ} (h : bits < 32) :
    rotateLeft value bits = value.rotateLeft bits := by
  rw [rotateLeft, BitVec.rotateLeft_def, Nat.mod_eq_of_lt h]

lemma readWord_eq (block : List Byte) (t : ℕ) : readWord block (t * 4) = word block t := by
  rw [readWord, word, Nat.mul_comm t 4]
  generalize block.getD (4 * t) 0 = x
  generalize block.getD (4 * t + 1) 0 = y
  generalize block.getD (4 * t + 2) 0 = z
  generalize block.getD (4 * t + 3) 0 = w
  ext i hi
  simp only [BitVec.getElem_or, BitVec.getElem_shiftLeft, BitVec.getElem_setWidth]
  grind

lemma choose_eq (x y z : Word) : (x &&& y) ||| (~~~x &&& z) = ch x y z := by
  rw [ch]
  ext i hi
  simp only [BitVec.getElem_or, BitVec.getElem_and, BitVec.getElem_not, BitVec.getElem_xor]
  cases x[i] <;> cases y[i] <;> cases z[i] <;> rfl

lemma majority_eq (x y z : Word) : (x &&& y) ||| (x &&& z) ||| (y &&& z) = maj x y z := by
  rw [maj]
  ext i hi
  simp only [BitVec.getElem_or, BitVec.getElem_and, BitVec.getElem_xor]
  cases x[i] <;> cases y[i] <;> cases z[i] <;> rfl

/-- The array holds the message schedule as far as it is filled. -/
def Filled (block : List Byte) (words : List Word) (count : ℕ) : Prop :=
  words.length = count ∧ ∀ t < count, words.getD t 0 = W block t

lemma filled_first (block : List Byte) :
    Filled block ((List.range 16).map fun i => readWord block (i * 4)) 16 := by
  refine ⟨by simp, fun t ht => ?_⟩
  rw [getD_eq_getElem _ _ (by simpa using ht), getElem_map, getElem_range,
    readWord_eq, W, if_pos ht]

lemma Filled.next {block : List Byte} {words : List Word} {i : ℕ} (h : Filled block words i)
    (hi : 16 ≤ i) : Filled block (fillWord words i) (i + 1) := by
  obtain ⟨hlength, hwords⟩ := h
  refine ⟨by rw [fillWord, length_append, hlength]; rfl, fun t ht => ?_⟩
  rw [fillWord]
  rcases Nat.lt_succ_iff_lt_or_eq.mp ht with hlt | rfl
  · rw [getD_append _ _ _ _ (hlength.symm ▸ hlt), hwords t hlt]
  have hlast : ∀ w : Word, (words ++ [w]).getD t 0 = w := fun w => by
    rw [getD_append_right _ _ _ _ hlength.le, hlength, Nat.sub_self]
    rfl
  rw [hlast, rotateLeft_eq _ (by omega), hwords _ (by omega), hwords _ (by omega),
    hwords _ (by omega), hwords _ (by omega)]
  conv_rhs => rw [W, if_neg (by omega)]

lemma filled_words (block : List Byte) : Filled block (words block) 80 := by
  have hfill : ∀ count words, Filled block words 16 →
      Filled block ((range' 16 count).foldl fillWord words) (16 + count) := by
    intro count words h
    induction count with
    | zero => exact h
    | succ count ih =>
      rw [range'_1_concat, foldl_append]
      exact ih.next (by omega)
  exact hfill 64 _ (filled_first block)

lemma roundStep_eq (block : List Byte) (v : Value) {i : ℕ} (hi : i < 80) :
    roundStep (words block) v i = v.step block i := by
  have hword := (filled_words block).2 i hi
  simp only [roundStep, Value.step, f, K, hword, rotateLeft_eq _ (by omega : 5 < 32),
    rotateLeft_eq _ (by omega : 30 < 32)]
  split_ifs <;> simp only [choose_eq, majority_eq, parity]

lemma transform_eq : wifiSha1Transform = Value.compress := by
  funext v block
  have hrounds : (List.range 80).foldl (roundStep (words block)) v =
      (List.range 80).foldl (Value.step block) v :=
    foldl_ext _ _ _ fun x i hi => roundStep_eq block x (List.mem_range.mp hi)
  simp only [wifiSha1Transform, Value.compress, hrounds]

/-! ### The parts of a message -/

namespace Context

/-- The hash under way that a context stands for. -/
def absorbed (context : Context) : Absorbed Value Byte :=
  ⟨context.state, context.block.take context.used⟩

lemma length_rest (context : Context) : context.absorbed.rest.length = context.used := by
  rw [absorbed, length_take, context.size]
  exact min_eq_left context.room.le

end Context

lemma absorbed_takeBytes (context : Context) (bytes : List Byte) :
    (takeBytes context bytes).absorbed = context.absorbed.absorb 64 Value.compress bytes := by
  induction context, bytes using takeBytes.induct with
  | case1 context =>
    rw [takeBytes, dif_pos rfl]
    rfl
  | case2 context bytes hne taken hlength block hfull ih =>
    -- the block is full: it is compressed, and the next one is empty
    have hroom := context.room
    have htaken : taken ≠ [] := by
      rintro hnil
      rw [hnil, length_nil] at hfull
      omega
    have hblock : block = context.block.take context.used ++ taken := by
      have hcopied := copied_take context.block taken context.used (by rw [context.size, hfull])
      rwa [hfull, take_of_length_le hlength.le] at hcopied
    have hfirst : context.absorbed.absorb 64 Value.compress taken =
        ⟨wifiSha1Transform context.state block, []⟩ := by
      rw [Absorbed.absorb_of_eq htaken (by rw [context.length_rest, hfull]), transform_eq, hblock]
      rfl
    rw [takeBytes, dif_neg hne]
    simp only [taken] at hfull
    simp only [hfull, dif_pos]
    rw [ih]
    have hsplit : bytes = taken ++ bytes.drop (64 - context.used) :=
      (take_append_drop _ _).symm
    conv_rhs => rw [hsplit, Absorbed.absorb_append, hfirst]
    rfl
  | case3 context bytes hne taken hlength block hfull ih =>
    -- all bytes are taken, and the block is not full
    have hroom := context.room
    have hshort : bytes.length < 64 - context.used := by
      simp only [taken, length_take] at hfull
      omega
    have hdrop : bytes.drop (64 - context.used) = [] := drop_of_length_le hshort.le
    have htaken : taken = bytes := take_of_length_le hshort.le
    rw [takeBytes, dif_neg hne]
    simp only [taken] at hfull
    simp only [hfull, dif_neg, not_false_eq_true]
    rw [ih, hdrop, Absorbed.absorb_nil, Absorbed.absorb_of_lt (by rw [context.length_rest]; omega)]
    refine Absorbed.ext rfl ?_
    calc block.take (context.used + taken.length)
        = context.block.take context.used ++ taken :=
          copied_take _ _ _ (by rw [context.size, htaken]; omega)
      _ = context.block.take context.used ++ bytes := by rw [htaken]

lemma bytes_takeBytes (context : Context) (bytes : List Byte) :
    (takeBytes context bytes).bytes = context.bytes := by
  induction context, bytes using takeBytes.induct with
  | case1 context => rw [takeBytes, dif_pos rfl]
  | case2 context bytes hne taken hlength block hfull ih =>
    rw [takeBytes, dif_neg hne]
    simp only [taken] at hfull
    simp only [hfull, dif_pos]
    exact ih
  | case3 context bytes hne taken hlength block hfull ih =>
    rw [takeBytes, dif_neg hne]
    simp only [taken] at hfull
    simp only [hfull, dif_neg, not_false_eq_true]
    exact ih

structure Given (context : Context) (message : List Byte) : Prop where
  absorbed : context.absorbed = (Absorbed.mk .initial []).absorb 64 Value.compress message
  bytes : context.bytes = BitVec.ofNat 64 message.length

lemma given_init : Given wifiSha1Init [] := ⟨rfl, rfl⟩

variable {context : Context} {message : List Byte}

lemma Given.update (h : Given context message)
    (bytes : List Byte) : Given (wifiSha1Update context bytes) (message ++ bytes) where
  absorbed := by
    rw [wifiSha1Update, absorbed_takeBytes, Absorbed.absorb_append, ← h.absorbed]
    rfl
  bytes := by
    rw [wifiSha1Update, bytes_takeBytes, length_append, BitVec.ofNat_add, ← h.bytes]

lemma Given.updates (h : Given context message)
    (parts : List (List Byte)) :
    Given (parts.foldl wifiSha1Update context) (message ++ parts.flatten) := by
  induction parts generalizing context message with
  | nil => rwa [flatten_nil, append_nil]
  | cons bytes parts ih =>
    rw [foldl_cons, List.flatten_cons, ← append_assoc]
    exact ih (h.update bytes)

lemma Given.used (h : Given context message) :
    context.used = message.length % 64 := by
  rw [← context.length_rest, h.absorbed, Absorbed.absorb_blocks (by omega), length_drop]
  omega

/-! ### The end -/

lemma padding_eq (h : Given context message) :
    (0x80 :: List.replicate 63 (0 : Byte)).take
        (if context.used < 56 then 56 - context.used else 120 - context.used) ++
      (List.range 8).map (fun i => ((context.bytes * 8) >>> ((7 - i) * 8)).setWidth 8) =
    padding message.length := by
  have hcount : (if context.used < 56 then 56 - context.used else 120 - context.used) =
      zeros message.length + 1 := by
    rw [h.used, zeros]
    split_ifs <;> omega
  have hzeros : min (zeros message.length) 63 = zeros message.length := by
    rw [zeros]
    omega
  have hbits : context.bytes * 8 = BitVec.ofNat 64 (8 * message.length) := by
    rw [h.bytes, Nat.mul_comm, BitVec.ofNat_mul]
    rfl
  rw [hcount, take_succ_cons, take_replicate, hzeros, hbits, padding, bigEndian]
  simp only [Nat.mul_comm 8]

lemma digest_eq (v : Value) :
    (List.range 20).map (fun i => (v.words.getD (i / 4) 0 >>> ((3 - i % 4) * 8)).setWidth 8) =
      v.words.flatMap (bigEndian 4) := rfl

/-- **The hash of what has been given** is returned, in however many parts it came. -/
lemma Given.finish (h : Given context message) :
    wifiSha1Finish context = sha1 message := by
  have hend : ∀ first last, first ++ last = padding message.length →
      (wifiSha1Update (wifiSha1Update context first) last).state =
        (blocks 64 (message ++ padding message.length)).foldl Value.compress .initial := by
    intro first last hpadding
    have hgiven := (h.update first).update last
    rw [append_assoc, hpadding] at hgiven
    have habsorbed := hgiven.absorbed
    rw [Absorbed.absorb_blocks (by omega)] at habsorbed
    exact congrArg Absorbed.chain habsorbed
  rw [wifiSha1Finish, digest_eq, sha1]
  exact congrArg (fun v : Value => v.words.flatMap (bigEndian 4)) (hend _ _ (padding_eq h))

end C1auncher.Wifi.WifiSha1
