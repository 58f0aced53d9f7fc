import C1auncher.Ui.ImeWire
import Mathlib

/-!
The requests of the input method on the wire, as the service reads them.
-/

namespace C1auncher.Ui.ImeRequest

open List Utf8Bytes Ui.ImeWire

/-- `c1_decode_request`: the request and its sequence number, where it returns 1. -/
def decodeRequest (packet : Bytes) : Option (Request × UInt32) :=
  if packet.length ≠ wireHeader ∨ get32 packet 0 ≠ wireMagic ∨
      get16 packet 4 ≠ protocolVersion ∨ get32 packet 12 ≠ UInt32.ofNat packet.length ∨
      get32 packet 28 ≠ 0 then none
  else
    let sequence := get32 packet 8
    let r : Request := ⟨(get16 packet 6).toUInt32, get32 packet 16, get32 packet 20,
      get32 packet 24⟩
    if sequence ≠ 0 ∧ validRequest r then some (r, sequence) else none

/-! ### Words -/

section
variable {packet : Bytes} {i : ℕ}

lemma byte_append (front rest : Bytes) (k : ℕ) :
    byte (front ++ rest) (front.length + k) = byte rest k := by
  rw [byte, getD_append_right _ _ _ _ (Nat.le_add_right ..), Nat.add_sub_cancel_left, byte]

lemma get32_append (front : Bytes) (n : UInt32) (rest : Bytes) :
    get32 (front ++ (put32 n ++ rest)) front.length = n := by
  have hfirst := byte_append front (put32 n ++ rest) 0
  rw [Nat.add_zero] at hfirst
  rw [get32, hfirst, byte_append, byte_append, byte_append]
  simp only [byte, put32, cons_append, nil_append, getD_cons_zero, getD_cons_succ]
  rw [← UInt32.toBitVec_inj]
  ext i hi
  simp [-UInt32.toUInt32_toUInt8]
  grind

lemma get16_append (front : Bytes) (n : UInt16) (rest : Bytes) :
    get16 (front ++ (put16 n ++ rest)) front.length = n := by
  have hfirst := byte_append front (put16 n ++ rest) 0
  rw [Nat.add_zero] at hfirst
  rw [get16, hfirst, byte_append]
  simp only [byte, put16, cons_append, nil_append, getD_cons_zero, getD_cons_succ]
  rw [← UInt16.toBitVec_inj]
  ext i hi
  simp [-UInt16.toUInt16_toUInt8]
  grind

lemma drop_cons (h : i < packet.length) : packet.drop i = byte packet i :: packet.drop (i + 1) := by
  rw [byte, getD_eq_getElem _ _ h, drop_eq_getElem_cons h]

lemma put32_get32 (h : i + 4 ≤ packet.length) :
    put32 (get32 packet i) ++ packet.drop (i + 4) = packet.drop i := by
  rw [drop_cons (by omega : i < _), drop_cons (by omega : i + 1 < _),
    drop_cons (by omega : i + 2 < _), drop_cons (by omega : i + 3 < _), get32]
  generalize byte packet i = a
  generalize byte packet (i + 1) = b
  generalize byte packet (i + 2) = c
  generalize byte packet (i + 3) = d
  simp only [put32, cons_append, nil_append, cons.injEq, and_true, ← UInt8.toBitVec_inj]
  refine ⟨?_, ?_, ?_, ?_⟩
  all_goals ext j hj
  all_goals simp
  all_goals grind

lemma put16_get16 (h : i + 2 ≤ packet.length) :
    put16 (get16 packet i) ++ packet.drop (i + 2) = packet.drop i := by
  rw [drop_cons (by omega : i < _), drop_cons (by omega : i + 1 < _), get16]
  generalize byte packet i = a
  generalize byte packet (i + 1) = b
  simp only [put16, cons_append, nil_append, cons.injEq, and_true, ← UInt8.toBitVec_inj]
  refine ⟨?_, ?_⟩
  all_goals ext j hj
  all_goals simp
  grind

end

/-! ### The codec -/

lemma encoded (r : Request) (sequence : UInt32) :
    (encodeRequest r sequence).length = wireHeader ∧
      get32 (encodeRequest r sequence) 0 = wireMagic ∧
      get16 (encodeRequest r sequence) 4 = protocolVersion ∧
      get16 (encodeRequest r sequence) 6 = r.operation.toUInt16 ∧
      get32 (encodeRequest r sequence) 8 = sequence ∧
      get32 (encodeRequest r sequence) 12 = UInt32.ofNat wireHeader ∧
      get32 (encodeRequest r sequence) 16 = r.keysym ∧
      get32 (encodeRequest r sequence) 20 = r.modifiers ∧
      get32 (encodeRequest r sequence) 24 = r.value ∧
      get32 (encodeRequest r sequence) 28 = 0 := by
  simp only [encodeRequest, append_assoc]
  exact ⟨rfl, get32_append [] _ _, get16_append (put32 _) _ _,
    get16_append (put32 _ ++ put16 _) _ _,
    get32_append (put32 _ ++ put16 _ ++ put16 _) _ _,
    get32_append (put32 _ ++ put16 _ ++ put16 _ ++ put32 _) _ _,
    get32_append (put32 _ ++ put16 _ ++ put16 _ ++ put32 _ ++ put32 _) _ _,
    get32_append (put32 _ ++ put16 _ ++ put16 _ ++ put32 _ ++ put32 _ ++ put32 _) _ _,
    get32_append (put32 _ ++ put16 _ ++ put16 _ ++ put32 _ ++ put32 _ ++ put32 _ ++ put32 _) _ _,
    get32_append (put32 _ ++ put16 _ ++ put16 _ ++ put32 _ ++ put32 _ ++ put32 _ ++ put32 _ ++
      put32 _) 0 []⟩

lemma operation_eq {r : Request} (h : validRequest r = true) :
    r.operation.toUInt16.toUInt32 = r.operation := by
  have hle : r.operation ≤ opCancel := by
    by_contra hlt
    simp [validRequest, UInt32.not_le.mp hlt] at h
  rw [UInt32.le_iff_toNat_le] at hle
  rw [← UInt32.toNat_inj, UInt16.toNat_toUInt32, UInt32.toNat_toUInt16, Nat.mod_eq_of_lt]
  exact hle.trans_lt (by decide)

lemma encode_decoded {packet : Bytes} (hlength : packet.length = wireHeader) :
    put32 (get32 packet 0) ++ put16 (get16 packet 4) ++ put16 (get16 packet 6) ++
      put32 (get32 packet 8) ++ put32 (get32 packet 12) ++ put32 (get32 packet 16) ++
      put32 (get32 packet 20) ++ put32 (get32 packet 24) ++ put32 (get32 packet 28) = packet := by
  rw [wireHeader] at hlength
  have hlast : put32 (get32 packet 28) = packet.drop 28 := by
    rw [← put32_get32 (i := 28) (by omega), drop_eq_nil_of_le (by omega), append_nil]
  simp only [append_assoc]
  rw [hlast, put32_get32 (i := 24) (by omega), put32_get32 (i := 20) (by omega),
    put32_get32 (i := 16) (by omega), put32_get32 (i := 12) (by omega),
    put32_get32 (i := 8) (by omega), put16_get16 (i := 6) (by omega),
    put16_get16 (i := 4) (by omega), put32_get32 (i := 0) (by omega), drop_zero]

/-- **The requests on the wire.** A packet is taken for a request exactly if it is the encoding of
that request, which is a valid one, under a sequence number other than zero. -/
theorem request_codec (packet : Bytes) (r : Request) (sequence : UInt32) :
    decodeRequest packet = some (r, sequence) ↔
      packet = encodeRequest r sequence ∧ sequence ≠ 0 ∧ validRequest r = true := by
  constructor
  · intro h
    rw [decodeRequest] at h
    dsimp only at h
    split_ifs at h with hhead hvalid
    obtain ⟨rfl, rfl⟩ := Prod.mk.inj (Option.some.inj h)
    simp only [not_or, not_not] at hhead
    obtain ⟨hlength, hmagic, hversion, hsize, hzero⟩ := hhead
    refine ⟨?_, hvalid⟩
    have hpacket := encode_decoded hlength
    rw [hmagic, hversion, hsize, hzero, hlength] at hpacket
    simpa [encodeRequest] using hpacket.symm
  · rintro ⟨rfl, hsequence, hvalid⟩
    obtain ⟨hlength, hmagic, hversion, hop, hseq, hsize, hkeysym, hmodifiers, hvalue, hzero⟩ :=
      encoded r sequence
    rw [decodeRequest, hlength, hmagic, hversion, hop, hseq, hsize, hkeysym, hmodifiers, hvalue,
      hzero, operation_eq hvalid, if_neg (by simp)]
    exact if_pos ⟨hsequence, hvalid⟩

end C1auncher.Ui.ImeRequest
