import C1auncher.CString
import C1auncher.Routines
import C1auncher.Wifi.WifiSha1

/-!
The key of a network, derived from its name and its passphrase.

The derivation asks now and then whether to go on; where it always may, the key is that of PBKDF2
with HMAC-SHA1.
-/

namespace C1auncher.Wifi.Psk

open BlockHash CString Routines Sha1 List Function Nat
open Wifi.WifiSha1

/-! ### HMAC -/

section
variable {β : Type} [DecidableEq β]

/-- `wifi_hmac_sha1`, reading one buffer and writing another or the same. -/
def wifiHmacSha1 (inner outer : Context) (bytes : β) (size : ℕ) (digest : β)
    (memory : β → List Byte) : β → List Byte :=
  let context := wifiSha1Update inner ((memory bytes).take size)
  let temporary := wifiSha1Finish context
  let context := wifiSha1Update outer temporary
  Function.update memory digest (wifiSha1Finish context)

end

/-! ### The key -/

def octets (text : Text) : List Byte := text.map fun c => BitVec.ofNat 8 c.toNat

/-- `valid_wpa_passphrase` -/
def validWpaPassphrase (password : Text) : Bool :=
  8 ≤ password.length && password.length ≤ 63 &&
    (octets password).all fun b => 32 ≤ b.toNat && b.toNat ≤ 126

/-- The buffers that are read and written by the hash. -/
inductive Buffer
  | salt
  | u
  deriving DecidableEq

abbrev Memory : Type := Buffer → List Byte

section
variable {σ : Type} (continueOperation : Routine σ Bool) (inner outer : Context) (ssidSize : ℕ)

/-- The loop over the rounds of a block. -/
def rounds : List ℕ → Memory × List Byte → Routine σ (Option (Memory × List Byte))
  | [], result => pure (some result)
  | round :: rest, (memory, block) => do
    if ← andAlso (pure (round % 64 = 1)) (do return !(← continueOperation)) then pure none
    else
      let memory := wifiHmacSha1 inner outer .u 20 .u memory
      rounds rest (memory, List.zipWith (· ^^^ ·) block (memory .u))

def keyBlocks : List ℕ → Memory × List Byte → Routine σ (Option (List Byte))
  | [], (_, key) => pure (some key)
  | index :: rest, (memory, key) => do
    let memory := Function.update memory .salt
      ((memory .salt).set (ssidSize + 3) (BitVec.ofNat 8 index))
    let memory := wifiHmacSha1 inner outer .salt (ssidSize + 4) .u memory
    match ← rounds continueOperation inner outer (List.range' 1 4095) (memory, memory .u) with
    | none => pure none
    | some (memory, block) =>
      keyBlocks rest
        (memory, copied key ((index - 1) * 20) (block.take (if index = 1 then 20 else 12)))

def hex : Text := "0123456789abcdef".toList

/-- Two digits of the output. -/
def writeByte (b : Byte) : Text :=
  [hex.getD (b >>> 4).toNat '0', hex.getD (b &&& 15).toNat '0']

/-- `derive_wpa_psk` -/
def deriveWpaPsk (ssid password : Text) : Routine σ (Option Text) :=
  if ssid.length = 0 ∨ 32 < ssid.length ∨ !validWpaPassphrase password then pure none
  else do
    let pad := (List.range 64).map fun i =>
      (if i < password.length then (octets password).getD i 0 else 0) ^^^ 0x36
    let inner := wifiSha1Update wifiSha1Init pad
    let pad := pad.map (· ^^^ (0x36 ^^^ 0x5c))
    let outer := wifiSha1Update wifiSha1Init pad
    let memory : Memory
      | .salt => copied (List.replicate 36 0) 0 (octets ssid)
      | .u => List.replicate 20 0
    match ← keyBlocks continueOperation inner outer ssid.length [1, 2]
        (memory, List.replicate 32 0) with
    | none => pure none
    | some key => do
      if ← continueOperation then
        pure (some (key.flatMap writeByte))
      else pure none

end

/-! ### The contexts are those of HMAC -/

section
variable {β : Type} [DecidableEq β] {inner outer : Context} {key : List Byte}

/-- **A value with the two contexts is that of HMAC with the whole key**, also where the buffer that
is read is the one that is written. -/
lemma wifiHmacSha1_eq (hinner : Given inner ((keyBlock sha1 64 key).map (· ^^^ 0x36)))
    (houter : Given outer ((keyBlock sha1 64 key).map (· ^^^ 0x5c))) (bytes digest : β) (size : ℕ)
    (memory : β → List Byte) :
    wifiHmacSha1 inner outer bytes size digest memory =
      Function.update memory digest (hmac sha1 64 key ((memory bytes).take size)) := by
  rw [wifiHmacSha1, (hinner.update _).finish, (houter.update _).finish]
  rfl

end

lemma length_hmac (key text : List Byte) : (hmac sha1 64 key text).length = 20 := length_sha1 _

/-! ### Whether to go on -/

section
variable {σ : Type} (continueOperation : Routine σ Bool)

/-- To be asked so many times whether to go on, up to the first no. -/
def goesOn : ℕ → Routine σ Bool
  | 0 => pure true
  | n + 1 => andAlso continueOperation (goesOn n)

/-- What is done where the answer was yes each time. -/
def whileGoing {α : Type} (n : ℕ) (a : α) : Routine σ (Option α) := do
  if ← goesOn continueOperation n then pure (some a) else pure none

variable {continueOperation} {α γ : Type}

lemma whileGoing_zero (a : α) : whileGoing continueOperation 0 a = pure (some a) := by
  simp [whileGoing, goesOn]

lemma whileGoing_succ (n : ℕ) (a : α) : whileGoing continueOperation (n + 1) a = (do
    if ← continueOperation then whileGoing continueOperation n a else pure none) := by
  rw [whileGoing, goesOn, andAlso, bind_assoc]
  refine bind_congr fun go => ?_
  cases go
  · simp
  · rfl

lemma whileGoing_bind {n k : ℕ} {a : α} {b : γ} {next : Option α → Routine σ (Option γ)}
    (hnone : next none = pure none) (hsome : next (some a) = whileGoing continueOperation k b) :
    whileGoing continueOperation n a >>= next = whileGoing continueOperation (n + k) b := by
  induction n with
  | zero => rw [whileGoing_zero, pure_bind, hsome, Nat.zero_add]
  | succ n ih =>
    rw [Nat.add_right_comm, whileGoing_succ, whileGoing_succ, bind_assoc]
    refine bind_congr fun go => ?_
    cases go
    · simpa using hnone
    · exact ih

/-! ### Blocks of the key -/

variable {inner outer : Context} {key salt : List Byte}
  (hinner : Given inner ((keyBlock sha1 64 key).map (· ^^^ 0x36)))
  (houter : Given outer ((keyBlock sha1 64 key).map (· ^^^ 0x5c)))
include hinner houter

variable (continueOperation) in
lemma rounds_eq (i : ℕ) (list : List ℕ) (j : ℕ) (memory : Memory)
    (hu : memory .u = chainValue (hmac sha1 64) key salt i j) :
    rounds continueOperation inner outer list
        (memory, keyPart (hmac sha1 64) key salt (j + 1) i) =
      whileGoing continueOperation (list.countP (· % 64 = 1))
        (Function.update memory .u (chainValue (hmac sha1 64) key salt i (j + list.length)),
          keyPart (hmac sha1 64) key salt (j + list.length + 1) i) := by
  induction list generalizing j memory with
  | nil =>
    simp only [rounds, countP_nil, whileGoing_zero, length_nil, Nat.add_zero, ← hu,
      update_eq_self]
  | cons round list ih =>
    have hround : wifiHmacSha1 inner outer .u 20 .u memory =
        Function.update memory .u (chainValue (hmac sha1 64) key salt i (j + 1)) := by
      have hlength : (memory .u).length ≤ 20 := by
        rw [hu, length_chainValue (length_hmac key)]
      rw [wifiHmacSha1_eq hinner houter, take_of_length_le hlength, hu]
      rfl
    have hpart : zipWith (· ^^^ ·) (keyPart (hmac sha1 64) key salt (j + 1) i)
        (chainValue (hmac sha1 64) key salt i (j + 1)) =
          keyPart (hmac sha1 64) key salt (j + 1 + 1) i := (keyPart_succ j i).symm
    have hrest := ih (j + 1)
      (Function.update memory .u (chainValue (hmac sha1 64) key salt i (j + 1)))
      (update_self _ _ _)
    rw [update_idem] at hrest
    have hj : j + 1 + list.length = j + (round :: list).length := by
      rw [length_cons]
      omega
    rw [hj] at hrest
    simp only [rounds, hround, update_self, hpart, hrest]
    by_cases hask : round % 64 = 1
    · rw [countP_cons_of_pos (by simpa using hask), whileGoing_succ]
      simp only [andAlso, hask, decide_true, pure_bind, if_true, bind_assoc]
      refine bind_congr fun go => ?_
      cases go <;> simp
    · rw [countP_cons_of_neg (by simpa using hask)]
      simp [andAlso, hask]

/-- The buffer of the salt, with the number of a block behind the name. -/
def saltBuffer (salt : List Byte) (index : ℕ) : List Byte :=
  salt ++ int32 index ++ List.replicate (32 - salt.length) 0

omit hinner houter in
lemma int32_of_lt {index : ℕ} (h : index < 256) :
    int32 index = [0, 0, 0, BitVec.ofNat 8 index] := by
  have hzero : ∀ shift, 8 ≤ shift → index / 2 ^ shift = 0 := fun shift hshift =>
    div_eq_of_lt <| calc
      index < 2 ^ 8 := h
      _ ≤ 2 ^ shift := Nat.pow_le_pow_right (by omega) hshift
  simp only [int32, map_cons, map_nil, hzero 24 (by omega), hzero 16 (by omega),
    hzero 8 (by omega), pow_zero, Nat.div_one]
  rfl

omit hinner houter in
lemma saltBuffer_set {index old : ℕ} (hindex : index < 256) (hold : old < 256) :
    (saltBuffer salt old).set (salt.length + 3) (BitVec.ofNat 8 index) =
      saltBuffer salt index := by
  simp [saltBuffer, int32_of_lt hindex, int32_of_lt hold]

omit hinner houter in
lemma saltBuffer_take (index : ℕ) :
    (saltBuffer salt index).take (salt.length + 4) = salt ++ int32 index :=
  take_left' (by simp [int32])

def blockMemory (key salt : List Byte) (index : ℕ) : Memory
  | .salt => saltBuffer salt index
  | .u => chainValue (hmac sha1 64) key salt index 4095

lemma keyBlocks_cons {index old k : ℕ} (hindex : index < 256) (hold : old < 256) {list : List ℕ}
    {memory : Memory} (hsalt : memory .salt = saltBuffer salt old) {output result : List Byte}
    (hrest : keyBlocks continueOperation inner outer salt.length list
      (blockMemory key salt index, copied output ((index - 1) * 20)
        ((keyPart (hmac sha1 64) key salt 4096 index).take (if index = 1 then 20 else 12))) =
      whileGoing continueOperation k result) :
    keyBlocks continueOperation inner outer salt.length (index :: list) (memory, output) =
      whileGoing continueOperation (64 + k) result := by
  set memory₁ := Function.update memory .salt (saltBuffer salt index) with hmemory₁
  have hfirst : wifiHmacSha1 inner outer .salt (salt.length + 4) .u memory₁ =
      Function.update memory₁ .u (chainValue (hmac sha1 64) key salt index 0) := by
    rw [wifiHmacSha1_eq hinner houter, hmemory₁, update_self, saltBuffer_take]
    rfl
  set memory₂ := Function.update memory₁ .u (chainValue (hmac sha1 64) key salt index 0)
    with hmemory₂
  have hu : memory₂ .u = chainValue (hmac sha1 64) key salt index 0 := update_self _ _ _
  have hcount : (range' 1 4095).countP (· % 64 = 1) = 64 := by decide +kernel
  have hrounds := rounds_eq continueOperation hinner houter index
    (range' 1 4095) 0 memory₂ hu
  have hlast : Function.update memory₂ .u (chainValue (hmac sha1 64) key salt index 4095) =
      blockMemory key salt index := by
    funext buffer
    cases buffer
    · simp [hmemory₂, hmemory₁, blockMemory]
    · simp [blockMemory]
  have hpart : (memory₂, memory₂ .u) =
      (memory₂, keyPart (hmac sha1 64) key salt (0 + 1) index) := by rw [hu]; rfl
  rw [hcount, length_range', Nat.zero_add, hlast] at hrounds
  simp only [keyBlocks, hsalt, saltBuffer_set hindex hold, ← hmemory₁, hfirst, hpart, hrounds]
  exact whileGoing_bind rfl hrest

variable (continueOperation) in
lemma keyBlocks_two {memory : Memory} (hsalt : memory .salt = saltBuffer salt 0)
    (output : List Byte) :
    keyBlocks continueOperation inner outer salt.length [1, 2] (memory, output) =
      whileGoing continueOperation 128
        (copied (copied output 0 ((keyPart (hmac sha1 64) key salt 4096 1).take 20)) 20
          ((keyPart (hmac sha1 64) key salt 4096 2).take 12)) := by
  have hend : ∀ (memory : Memory) (result : List Byte),
      keyBlocks continueOperation inner outer salt.length [] (memory, result) =
        whileGoing continueOperation 0 result := fun memory result => by
    rw [keyBlocks, whileGoing_zero]
  refine keyBlocks_cons (k := 64) hinner houter (by omega) (by omega) hsalt ?_
  exact keyBlocks_cons (k := 0) hinner houter (by omega) (by omega : 1 < 256) rfl (hend _ _)

end

/-! ### The whole key -/

def lowerHex (bytes : List Byte) : Text :=
  bytes.flatMap fun b => [Nat.digitChar (b.toNat / 16), Nat.digitChar (b.toNat % 16)]

lemma writeByte_eq (b : Byte) :
    writeByte b = [digitChar (b.toNat / 16), digitChar (b.toNat % 16)] := by
  have hall : ∀ n < 256, writeByte (BitVec.ofNat 8 n) =
      [digitChar (n / 16), digitChar (n % 16)] := by decide +kernel
  have hb := hall b.toNat b.isLt
  rwa [BitVec.ofNat_toNat, BitVec.setWidth_eq] at hb

lemma length_octets (text : Text) : (octets text).length = text.length := length_map _

lemma pad_eq {password : Text} (h : password.length ≤ 64) :
    ((List.range 64).map fun i =>
      (if i < password.length then (octets password).getD i 0 else 0) ^^^ (0x36 : Byte)) =
      (keyBlock sha1 64 (octets password)).map (· ^^^ 0x36) := by
  have hlength : (octets password).length ≤ 64 := (length_octets password).le.trans h
  refine ext_getElem (by simp [length_keyBlock_of_le hlength]) fun i hi hi' => ?_
  rw [getElem_map, getElem_range, getElem_map]
  refine congrArg (· ^^^ (0x36 : Byte)) ?_
  simp only [keyBlock_of_le hlength, getElem_append, getElem_replicate, length_octets]
  split_ifs with hlt
  · rw [getD_eq_getElem]
  · rfl

lemma pad_flip (block : List Byte) :
    (block.map (· ^^^ 0x36)).map (· ^^^ (0x36 ^^^ 0x5c)) = block.map (· ^^^ (0x5c : Byte)) := by
  rw [map_map]
  refine map_congr_left fun b _ => ?_
  calc b ^^^ 0x36 ^^^ (0x36 ^^^ 0x5c)
      = b ^^^ (0x36 ^^^ (0x36 ^^^ 0x5c)) := BitVec.xor_assoc _ _ _
    _ = b ^^^ 0x5c := congrArg (b ^^^ ·) (by decide)

lemma saltBuffer_start {ssid : Text} (h : ssid.length ≤ 32) :
    copied (List.replicate 36 0) 0 (octets ssid) = saltBuffer (octets ssid) 0 := by
  have hzeros : 36 - ssid.length = 4 + (32 - ssid.length) := by omega
  rw [copied, saltBuffer, take_zero, nil_append, Nat.zero_add, drop_replicate,
    length_octets, hzeros, replicate_add, ← append_assoc]
  rfl

lemma copied_blocks {x y : List Byte} (hx : x.length = 20) (hy : y.length = 20) :
    copied (copied (List.replicate 32 0) 0 (x.take 20)) 20 (y.take 12) = (x ++ y).take 32 := by
  have hfirst : copied (replicate 32 0) 0 (x.take 20) = x ++ replicate 12 0 := by
    rw [take_of_length_le hx.le, copied, take_zero, nil_append, drop_replicate, hx]
  have hlength : (y.take 12).length = 12 := by
    rw [length_take, hy]
    rfl
  have hend : (x ++ replicate 12 (0 : Byte)).drop (20 + 12) = [] :=
    drop_eq_nil_of_le (by rw [length_append, hx, length_replicate])
  have hall : x.take 32 = x := take_of_length_le (by omega)
  calc copied (copied (replicate 32 0) 0 (x.take 20)) 20 (y.take 12)
      = x ++ y.take 12 := by
        rw [hfirst, copied, take_left' hx, hlength, hend, append_nil]
    _ = (x ++ y).take 32 := by rw [take_append, hx, hall]

lemma key_eq (key salt : List Byte) :
    copied (copied (List.replicate 32 0) 0 ((keyPart (hmac sha1 64) key salt 4096 1).take 20)) 20
        ((keyPart (hmac sha1 64) key salt 4096 2).take 12) =
      pbkdf2 (hmac sha1 64) key salt 20 4096 32 := by
  have hblocks : range' 1 ((32 + 20 - 1) / 20) = [1, 2] := rfl
  rw [copied_blocks (length_keyPart (length_hmac key) 4096 1)
    (length_keyPart (length_hmac key) 4096 2), pbkdf2, hblocks, flatMap_cons,
    flatMap_singleton]

lemma validWpaPassphrase_of {password : Text} (hlength : 8 ≤ password.length)
    (hlength' : password.length ≤ 63) (hprintable : ∀ c ∈ password, ' ' ≤ c ∧ c ≤ '~') :
    validWpaPassphrase password = true := by
  simp only [validWpaPassphrase, Bool.and_eq_true, decide_eq_true_eq, all_eq_true, octets,
    forall_mem_map]
  refine ⟨⟨hlength, hlength'⟩, fun c hc => ?_⟩
  obtain ⟨hlow, hhigh⟩ := hprintable c hc
  have hlow' : 32 ≤ c.toNat := hlow
  have hhigh' : c.toNat ≤ 126 := hhigh
  rw [BitVec.toNat_ofNat]
  omega

/-- **The derived key**: of every name and passphrase that WPA allows it is the key of PBKDF2 with
HMAC-SHA1 in 4096 rounds, in lower-case digits, where the 129 questions whether to go on are all
answered yes, and no key where one is not. The hash is SHA-1 of the whole message in whatever parts
it is given, and the two contexts are worth the whole key of HMAC, also where a value is computed
in place. -/
theorem wpa_key {σ : Type} (continueOperation : Routine σ Bool) {ssid password : Text}
    (hssid : 1 ≤ ssid.length) (hssid' : ssid.length ≤ 32) (hpassword : 8 ≤ password.length)
    (hpassword' : password.length ≤ 63) (hprintable : ∀ c ∈ password, ' ' ≤ c ∧ c ≤ '~') :
    deriveWpaPsk continueOperation ssid password =
      whileGoing continueOperation 129
        (lowerHex (pbkdf2 (hmac sha1 64) (octets password) (octets ssid) 20 4096 32)) ∧
    (∀ parts : List (List Byte),
      wifiSha1Finish (parts.foldl wifiSha1Update wifiSha1Init) = sha1 parts.flatten) ∧
    ∀ (β : Type) [DecidableEq β] (key : List Byte) (bytes digest : β) (size : ℕ)
      (memory : β → List Byte), key.length ≤ 64 →
      wifiHmacSha1
        (wifiSha1Update wifiSha1Init ((keyBlock sha1 64 key).map (· ^^^ 0x36)))
        (wifiSha1Update wifiSha1Init ((keyBlock sha1 64 key).map (· ^^^ 0x5c)))
        bytes size digest memory =
      Function.update memory digest (hmac sha1 64 key ((memory bytes).take size)) := by
  have hgiven : ∀ block, Given (wifiSha1Update wifiSha1Init block) block := given_init.update
  refine ⟨?_, fun parts => (given_init.updates parts).finish,
    fun β _ key bytes digest size memory _ =>
      wifiHmacSha1_eq (hgiven _) (hgiven _) bytes digest size memory⟩
  have hvalid := validWpaPassphrase_of hpassword hpassword' hprintable
  have hallowed :
      ¬(ssid.length = 0 ∨ 32 < ssid.length ∨ (!validWpaPassphrase password) = true) := by
    rintro (hnone | hlong | hinvalid)
    · omega
    · omega
    · rw [hvalid] at hinvalid
      contradiction
  rw [deriveWpaPsk, if_neg hallowed]
  simp only [pad_eq (by omega : password.length ≤ 64), pad_flip]
  have hsalt := saltBuffer_start hssid'
  have hkey := fun (memory : Memory) (hmemory : memory .salt = saltBuffer (octets ssid) 0) =>
    keyBlocks_two continueOperation
      (hgiven ((keyBlock sha1 64 (octets password)).map (· ^^^ 0x36)))
      (hgiven ((keyBlock sha1 64 (octets password)).map (· ^^^ 0x5c))) hmemory
      (replicate 32 0)
  rw [length_octets, key_eq] at hkey
  rw [hkey _ hsalt]
  refine whileGoing_bind (n := 128) (k := 1) rfl ?_
  have hhex : ∀ bytes : List Byte, bytes.flatMap writeByte = lowerHex bytes := fun bytes =>
    flatMap_congr fun b _ => writeByte_eq b
  rw [whileGoing_succ, whileGoing_zero]
  simp only [hhex]

theorem wpa_key_home :
    deriveWpaPsk (pure true : Routine Unit Bool) "home".toList "password".toList =
      whileGoing (pure true) 129
        (lowerHex (pbkdf2 (hmac sha1 64) (octets "password".toList) (octets "home".toList) 20 4096
          32)) :=
  (wpa_key _ (by decide) (by decide) (by decide) (by decide) (by simp)).1

end C1auncher.Wifi.Psk
