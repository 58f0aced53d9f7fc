import C1auncher.Wifi.Control

/-!
SSIDs as `wpa_supplicant` prints them, and as they are given back to it.

The printed form is a grammar here: the decoder accepts what has a derivation and nothing else.
-/

namespace C1auncher.Wifi.SsidCodec

open CString Wifi.Control List Option Nat

/-! ### What may be printed -/

inductive Prints : Char → Text → Prop
  | literal {c : Char} (h : c ≠ '\\') : Prints c [c]
  | backslash : Prints '\\' ['\\', '\\']
  | quote : Prints '"' ['\\', '"']
  | escape : Prints '\x1b' ['\\', 'e']
  | newline : Prints '\n' ['\\', 'n']
  | carriageReturn : Prints '\r' ['\\', 'r']
  | tab : Prints '\t' ['\\', 't']
  | hex {c high low : Char} (hhigh : hexValue high = some (c.toNat / 16))
      (hlow : hexValue low = some (c.toNat % 16)) : Prints c ['\\', 'x', high, low]

inductive PrintsSsid : Text → Text → Prop
  | nil : PrintsSsid [] []
  | cons {c : Char} {piece ssid text : Text} (h : Prints c piece) (rest : PrintsSsid ssid text) :
      PrintsSsid (c :: ssid) (piece ++ text)

lemma prints_escape {c escape : Char} (h : escapeValue escape = some c) :
    Prints c ['\\', escape] := by
  unfold escapeValue at h
  split at h <;> cases h
  · exact .backslash
  · exact .quote
  · exact .newline
  · exact .carriageReturn
  · exact .tab
  · exact .escape

/-! ### One step of the decoder -/

lemma hexValue_lt {c : Char} {n : ℕ} (h : hexValue c = some n) : n < 16 := by
  have h9 : '9'.toNat = 57 := rfl
  have hf : 'f'.toNat = 102 := rfl
  have hF : 'F'.toNat = 70 := rfl
  have hle : ∀ d : Char, c ≤ d → c.toNat ≤ d.toNat := fun d hd => hd
  unfold hexValue at h
  split_ifs at h with hdigit hlower hupper <;> obtain rfl := some_inj.mp h
  · have := hle '9' hdigit.2
    rw [show '0'.toNat = 48 from rfl]
    omega
  · have := hle 'f' hlower.2
    rw [show 'a'.toNat = 97 from rfl]
    omega
  have := hle 'F' hupper.2
  rw [show 'A'.toNat = 65 from rfl]
  omega

section Step

variable {capacity : ℕ} {decoded : Text} {c : Char} (text : Text)
include capacity decoded

lemma decodeSsid_literal (h : c ≠ '\\') : decodeSsid capacity decoded (c :: text) =
    if hasRoom capacity decoded c then decodeSsid capacity (decoded ++ [c]) text else none := by
  rw [decodeSsid.eq_def]
  split <;> simp_all

lemma decodeSsid_escape {escape : Char} (h : escapeValue escape = some c) :
    decodeSsid capacity decoded ('\\' :: escape :: text) =
      if hasRoom capacity decoded c then decodeSsid capacity (decoded ++ [c]) text else none := by
  have hx : escape ≠ 'x' := by
    rintro rfl
    cases h
  rw [decodeSsid, h]
  rintro high low rest rfl
  exact absurd rfl hx

lemma decodeSsid_hex {high low : Char} (hhigh : hexValue high = some (c.toNat / 16))
    (hlow : hexValue low = some (c.toNat % 16)) :
    decodeSsid capacity decoded ('\\' :: 'x' :: high :: low :: text) =
      if hasRoom capacity decoded c then decodeSsid capacity (decoded ++ [c]) text else none := by
  have hc : Char.ofNat (16 * (c.toNat / 16) + c.toNat % 16) = c := by
    rw [div_add_mod, Char.ofNat_toNat]
  rw [decodeSsid, hhigh, hlow]
  simp only [hc]

lemma decodeSsid_prints {piece : Text} (h : Prints c piece) :
    decodeSsid capacity decoded (piece ++ text) =
      if hasRoom capacity decoded c then decodeSsid capacity (decoded ++ [c]) text else none := by
  cases h with
  | literal h => exact decodeSsid_literal text h
  | backslash => exact decodeSsid_escape text rfl
  | quote => exact decodeSsid_escape text rfl
  | escape => exact decodeSsid_escape text rfl
  | newline => exact decodeSsid_escape text rfl
  | carriageReturn => exact decodeSsid_escape text rfl
  | tab => exact decodeSsid_escape text rfl
  | hex hhigh hlow => exact decodeSsid_hex text hhigh hlow

end Step

/-! ### The decoder reads the printed forms -/

/-- What the buffer of the caller holds: up to 32 bytes that are not zero, and one that is. -/
def Fits (capacity : ℕ) (ssid : Text) : Prop :=
  '\x00' ∉ ssid ∧ ssid.length ≤ 32 ∧ ssid.length < capacity

lemma hasRoom_iff {capacity : ℕ} {decoded : Text} {c : Char} :
    hasRoom capacity decoded c = true ↔
      c ≠ '\x00' ∧ decoded.length + 1 < capacity ∧ decoded.length < 32 := by
  simp [hasRoom, not_or]

lemma fits_snoc {capacity : ℕ} {decoded : Text} {c : Char} (h : Fits capacity decoded) :
    Fits capacity (decoded ++ [c]) ↔ hasRoom capacity decoded c = true := by
  obtain ⟨hzero, hlen, hcap⟩ := h
  rw [hasRoom_iff, Fits]
  simp only [mem_append, mem_singleton, not_or, length_append, length_singleton]
  constructor
  · rintro ⟨⟨-, hc⟩, hlen', hcap'⟩
    exact ⟨fun h => hc h.symm, hcap', by omega⟩
  · rintro ⟨hc, hcap', hlen'⟩
    exact ⟨⟨hzero, fun h => hc h.symm⟩, by omega, hcap'⟩

lemma Fits.of_append {capacity : ℕ} {a b : Text} (h : Fits capacity (a ++ b)) :
    Fits capacity a := by
  obtain ⟨hzero, hlen, hcap⟩ := h
  rw [length_append] at hlen hcap
  exact ⟨fun ha => hzero (mem_append_left _ ha), by omega, by omega⟩

lemma decodeSsid_of_prints {capacity : ℕ} {ssid text : Text} (h : PrintsSsid ssid text)
    {decoded : Text} (hfits : Fits capacity (decoded ++ ssid)) (hne : decoded ++ ssid ≠ []) :
    decodeSsid capacity decoded text = some (decoded ++ ssid) := by
  induction h generalizing decoded with
  | nil =>
    rw [append_nil] at hne ⊢
    rw [decodeSsid, if_neg hne]
  | @cons c piece ssid text h rest ih =>
    rw [append_cons] at hfits hne ⊢
    have hroom := (fits_snoc hfits.of_append.of_append).mp hfits.of_append
    rw [decodeSsid_prints text h, if_pos hroom]
    exact ih hfits hne

lemma prints_hex {high low : Char} {m n : ℕ} (hhigh : hexValue high = some m)
    (hlow : hexValue low = some n) : Prints (Char.ofNat (16 * m + n)) ['\\', 'x', high, low] := by
  have hm := hexValue_lt hhigh
  have hn := hexValue_lt hlow
  have hvalue : (Char.ofNat (16 * m + n)).toNat = 16 * m + n := by
    rw [Char.toNat_ofNat, if_pos (.inl (by omega))]
  apply Prints.hex
  · rw [hvalue, hhigh]
    congr 1
    omega
  rw [hvalue, hlow]
  congr 1
  omega

lemma decodeSsid_cases {capacity : ℕ} {decoded text result : Text}
    (h : decodeSsid capacity decoded text = some result) :
    (text = [] ∧ result = decoded ∧ decoded ≠ []) ∨
      ∃ c piece rest, text = piece ++ rest ∧ Prints c piece ∧ hasRoom capacity decoded c = true ∧
        decodeSsid capacity (decoded ++ [c]) rest = some result := by
  rw [decodeSsid.eq_def] at h
  split at h
  · obtain ⟨hne, h⟩ := Option.ite_none_left_eq_some.mp h
    exact .inl ⟨rfl, (some_inj.mp h).symm, hne⟩
  · split at h
    · rename_i hhigh hlow
      obtain ⟨hroom, h⟩ := ite_none_right_eq_some.mp h
      exact .inr ⟨_, _, _, rfl, prints_hex hhigh hlow, hroom, h⟩
    · cases h
  · split at h
    · rename_i hescape
      obtain ⟨hroom, h⟩ := ite_none_right_eq_some.mp h
      exact .inr ⟨_, _, _, rfl, prints_escape hescape, hroom, h⟩
    · cases h
  · cases h
  · rename_i c text _ hescape hend
    have hc : c ≠ '\\' := by
      rintro rfl
      rcases text with _ | ⟨escape, text⟩
      · exact hend rfl rfl
      · exact hescape escape text rfl rfl
    obtain ⟨hroom, h⟩ := ite_none_right_eq_some.mp h
    exact .inr ⟨c, [c], text, rfl, .literal hc, hroom, h⟩

lemma Prints.length_pos {c : Char} {piece : Text} (h : Prints c piece) : 0 < piece.length := by
  cases h <;> simp

lemma prints_of_decodeSsid {capacity : ℕ} {decoded text result : Text}
    (hfits : Fits capacity decoded) (h : decodeSsid capacity decoded text = some result) :
    ∃ ssid, PrintsSsid ssid text ∧ result = decoded ++ ssid ∧ result ≠ [] ∧
      Fits capacity result := by
  induction hlen : text.length using Nat.strongRecOn generalizing decoded text with
  | ind n ih =>
    rcases decodeSsid_cases h with ⟨rfl, rfl, hne⟩ | ⟨c, piece, rest, rfl, hprints, hroom, h⟩
    · exact ⟨[], .nil, by simp, hne, hfits⟩
    have hpos := hprints.length_pos
    rw [length_append] at hlen
    obtain ⟨ssid, hssid, rfl, hne, hfits'⟩ :=
      ih rest.length (by omega) ((fits_snoc hfits).mpr hroom) h rfl
    exact ⟨c :: ssid, .cons hprints hssid, by simp, hne, hfits'⟩

/-- **The decoder accepts exactly the printed forms of the SSIDs that fit.** -/
theorem decodeScanSsid_eq_some {encoded ssid : Text} {capacity : ℕ} :
    decodeScanSsid encoded capacity = some ssid ↔
      PrintsSsid ssid encoded ∧ ssid ≠ [] ∧ Fits capacity ssid := by
  rw [decodeScanSsid, ite_none_left_eq_some]
  constructor
  · rintro ⟨hcap, h⟩
    have hempty : Fits capacity [] := ⟨by simp, by simp, by simpa using Nat.pos_of_ne_zero hcap⟩
    obtain ⟨ssid', hprints, rfl, hne, hfits⟩ := prints_of_decodeSsid hempty h
    exact ⟨hprints, hne, hfits⟩
  · rintro ⟨hprints, hne, hfits⟩
    have hcap := hfits.2.2
    exact ⟨by omega, decodeSsid_of_prints hprints hfits hne⟩

/-! ### The buffer of the caller -/

/-- `buffer[index] = c`; there is no such write outside the buffer. -/
def write (buffer : Text) (index : ℕ) (c : Char) : Option Text :=
  if index < buffer.length then some (buffer.set index c) else none

/-- The end of one iteration: the limits are tested, the byte is written. -/
def put (buffer : Text) (outputIndex : ℕ) (value : Char) (next : Text → Option (Bool × Text)) :
    Option (Bool × Text) :=
  if value = '\x00' ∨ outputIndex + 1 ≥ buffer.length ∨ outputIndex ≥ 32 then some (false, buffer)
  else (write buffer outputIndex value).bind next

/-- The loop of `c1_wifi_decode_scan_ssid` on the buffer. -/
def decodeLoop (buffer : Text) (outputIndex : ℕ) : Text → Option (Bool × Text)
  | [] => (write buffer outputIndex '\x00').map fun buffer => (decide (outputIndex > 0), buffer)
  | '\\' :: 'x' :: high :: low :: text =>
    match hexValue high, hexValue low with
    | some high, some low =>
      put buffer outputIndex (Char.ofNat (16 * high + low)) fun buffer =>
        decodeLoop buffer (outputIndex + 1) text
    | _, _ => some (false, buffer)
  | '\\' :: escape :: text =>
    match escapeValue escape with
    | some value =>
      put buffer outputIndex value fun buffer => decodeLoop buffer (outputIndex + 1) text
    | none => some (false, buffer)
  | ['\\'] => some (false, buffer)
  | value :: text =>
    put buffer outputIndex value fun buffer => decodeLoop buffer (outputIndex + 1) text

/-- `c1_wifi_decode_scan_ssid` on the buffer: whether it succeeds, and the buffer after it;
`none` where it would write outside. -/
def decodeInto (buffer encoded : Text) : Option (Bool × Text) :=
  if buffer.length = 0 then some (false, buffer)
  else (write buffer 0 '\x00').bind fun buffer => decodeLoop buffer 0 encoded

/-- What is left in a buffer: the SSID and its end, or a failure. -/
def Leaves (capacity : ℕ) (result : Option Text) : Option (Bool × Text) → Prop
  | none => False
  | some (ok, buffer) => buffer.length = capacity ∧ ok = result.isSome ∧
      ∀ ssid ∈ result, ssid ++ ['\x00'] <+: buffer

lemma write_append {decoded : Text} (old : Char) (tail : Text) (c : Char) :
    write (decoded ++ old :: tail) decoded.length c = some (decoded ++ c :: tail) := by
  simp [write]

lemma put_leaves {capacity : ℕ} {decoded tail text : Text} {c : Char}
    {next : Text → Option (Bool × Text)} (hlen : decoded.length + tail.length = capacity)
    (hne : tail ≠ [])
    (hnext : hasRoom capacity decoded c = true → ∀ tail', tail' ≠ [] →
      (decoded ++ [c]).length + tail'.length = capacity →
        Leaves capacity (decodeSsid capacity (decoded ++ [c]) text)
          (next (decoded ++ [c] ++ tail'))) :
    Leaves capacity
      (if hasRoom capacity decoded c then decodeSsid capacity (decoded ++ [c]) text else none)
      (put (decoded ++ tail) decoded.length c next) := by
  by_cases hroom : hasRoom capacity decoded c = true
  · obtain ⟨hc, hcap, hlt⟩ := hasRoom_iff.mp hroom
    rcases tail with _ | ⟨old, tail⟩
    · exact absurd rfl hne
    rw [length_cons] at hlen
    have hbuffer : (decoded ++ old :: tail).length = capacity := by
      rw [length_append, length_cons, hlen]
    rw [if_pos hroom, put, hbuffer, if_neg (by simp only [hc, false_or]; omega), write_append,
      bind_some, append_cons decoded c tail]
    apply hnext hroom
    · rintro rfl
      simp at hlen
      omega
    · rw [length_append, length_singleton]
      omega
  · have hfull : c = '\x00' ∨ decoded.length + 1 ≥ (decoded ++ tail).length ∨
        decoded.length ≥ 32 := by
      rw [hasRoom_iff] at hroom
      rw [length_append, hlen]
      by_contra hnot
      simp only [not_or] at hnot
      exact hroom ⟨hnot.1, by omega, by omega⟩
    rw [if_neg hroom, put, if_pos hfull]
    exact ⟨by simpa using hlen, rfl, by simp⟩

/-- **The loop writes inside the buffer only, and leaves in it what the decoder yields.** -/
theorem decodeLoop_leaves {capacity : ℕ} (decoded text : Text) {tail : Text} (hne : tail ≠ [])
    (hlen : decoded.length + tail.length = capacity) :
    Leaves capacity (decodeSsid capacity decoded text)
      (decodeLoop (decoded ++ tail) decoded.length text) := by
  induction hn : text.length using Nat.strongRecOn generalizing decoded tail text with
  | ind n ih =>
    -- what follows one byte is shorter
    have hnext : ∀ c rest, rest.length < n → Leaves capacity
        (if hasRoom capacity decoded c then decodeSsid capacity (decoded ++ [c]) rest else none)
        (put (decoded ++ tail) decoded.length c fun buffer =>
          decodeLoop buffer (decoded.length + 1) rest) := fun c rest hrest =>
      put_leaves hlen hne fun _ tail' hne' hlen' => by
        have h := ih rest.length hrest (decoded ++ [c]) rest hne' hlen' rfl
        rwa [length_append, length_singleton] at h
    have hfails : Leaves capacity none (some (false, decoded ++ tail)) :=
      ⟨by simpa using hlen, rfl, by simp⟩
    rw [decodeSsid.eq_def]
    split
    · rcases tail with _ | ⟨old, tail⟩
      · exact absurd rfl hne
      have hbuffer : (decoded ++ '\x00' :: tail).length = capacity := by simpa using hlen
      rw [decodeLoop, write_append]
      by_cases hempty : decoded = []
      · rw [if_pos hempty, hempty]
        exact ⟨by simpa [hempty] using hbuffer, rfl, by simp⟩
      rw [if_neg hempty]
      refine ⟨hbuffer, ?_, ?_⟩
      · simpa using length_pos_of_ne_nil hempty
      rintro ssid hssid
      obtain rfl := some_inj.mp hssid
      exact ⟨tail, by simp⟩
    · rename_i high low rest
      rw [decodeLoop]
      rcases hexValue high with _ | m
      · exact hfails
      rcases hexValue low with _ | m'
      · exact hfails
      · exact hnext _ rest (by simp at hn; omega)
    · rename_i escape rest hnot
      rw [decodeLoop]
      · rcases escapeValue escape with _ | c
        · exact hfails
        · exact hnext c rest (by simp at hn; omega)
      · exact hnot
    · exact hfails
    · rename_i c rest hx hescape hend
      rw [decodeLoop]
      · exact hnext c rest (by simp at hn; omega)
      · exact hx
      · exact hescape
      · exact hend

/-- **`c1_wifi_decode_scan_ssid` never writes outside the buffer of its caller.** -/
theorem decodeInto_leaves (buffer encoded : Text) :
    Leaves buffer.length (decodeScanSsid encoded buffer.length) (decodeInto buffer encoded) := by
  rw [decodeScanSsid, decodeInto]
  rcases buffer with _ | ⟨old, tail⟩
  · exact ⟨rfl, rfl, by simp⟩
  · rw [if_neg (by simp), if_neg (by simp)]
    exact decodeLoop_leaves [] encoded (cons_ne_nil '\x00' tail) (by simp)

/-! ### The control form -/

/-- `c1_wifi_encode_control_ssid`, with the room of its caller. -/
def encodeWithin (ssid : Text) (capacity : ℕ) : Option Text :=
  if capacity < ssid.length * 2 + 1 then none else encodeControlSsid ssid

def Bytes (text : Text) : Prop := ∀ c ∈ text, c.toNat < 256

/-- Two lower-case hexadecimal digits for every byte. -/
inductive Hex : Text → Text → Prop
  | nil : Hex [] []
  | cons {c high low : Char} {ssid text : Text} (hhigh : hexValue high = some (c.toNat / 16))
      (hlow : hexValue low = some (c.toNat % 16)) (hlower : ¬high.isUpper ∧ ¬low.isUpper)
      (rest : Hex ssid text) : Hex (c :: ssid) (high :: low :: text)

lemma digitChar_hex {d : ℕ} (h : d < 16) :
    hexValue (digitChar d) = some d ∧ ¬(digitChar d).isUpper := by
  interval_cases d <;> decide

lemma hex_flatMap {ssid : Text} (h : Bytes ssid) : Hex ssid
    (ssid.flatMap fun c => [digitChar (c.toNat / 16), digitChar (c.toNat % 16)]) := by
  induction ssid with
  | nil => exact .nil
  | cons c ssid ih =>
    have hc : c.toNat < 256 := h c mem_cons_self
    obtain ⟨hhigh, hhigh'⟩ := digitChar_hex (d := c.toNat / 16) (by omega)
    obtain ⟨hlow, hlow'⟩ := digitChar_hex (d := c.toNat % 16) (by omega)
    exact .cons hhigh hlow ⟨hhigh', hlow'⟩ (ih fun x hx => h x (mem_cons_of_mem _ hx))

/-- **Two SSIDs with the same hexadecimal form are the same.** -/
theorem Hex.inj {ssid ssid' text : Text} (h : Hex ssid text) (h' : Hex ssid' text) :
    ssid = ssid' := by
  induction h generalizing ssid' with
  | nil =>
    cases h'
    rfl
  | @cons c high low ssid text hhigh hlow hlower rest ih =>
    rcases h' with _ | @⟨c', _, _, ssid', _, hhigh', hlow', -, rest'⟩
    have hdiv := some_inj.mp (hhigh.symm.trans hhigh')
    have hmod := some_inj.mp (hlow.symm.trans hlow')
    have hc : c.toNat = c'.toNat := by
      rw [← div_add_mod c.toNat 16, ← div_add_mod c'.toNat 16, hdiv, hmod]
    rw [Char.toNat_inj.mp hc, ih rest']

lemma encodeWithin_of_fits {ssid : Text} {room : ℕ} (hne : ssid ≠ []) (hlen : ssid.length ≤ 32)
    (hroom : ssid.length * 2 < room) : encodeWithin ssid room =
      some (ssid.flatMap fun c =>
        [digitChar (c.toNat / 16), digitChar (c.toNat % 16)]) := by
  have hpos := length_pos_of_ne_nil hne
  rw [encodeWithin, if_neg (by omega), encodeControlSsid, if_neg (by omega)]

lemma hex_of_encodeWithin {ssid text : Text} {room : ℕ} (hbytes : Bytes ssid)
    (h : encodeWithin ssid room = some text) : Hex ssid text := by
  obtain ⟨-, h⟩ := Option.ite_none_left_eq_some.mp h
  obtain ⟨-, h⟩ := Option.ite_none_left_eq_some.mp h
  obtain rfl := some_inj.mp h
  exact hex_flatMap hbytes

lemma prints_bytes {ssid text : Text} (h : PrintsSsid ssid text) (hbytes : Bytes text) :
    Bytes ssid := by
  induction h with
  | nil => exact hbytes
  | @cons c piece ssid text h rest ih =>
    have hrest : Bytes ssid := ih fun x hx => hbytes x (mem_append_right _ hx)
    have hc : c.toNat < 256 := by
      cases h with
      | literal => exact hbytes c (by simp)
      | hex hhigh _ =>
        have := hexValue_lt hhigh
        omega
      | _ => decide
    exact forall_mem_cons.mpr ⟨hc, hrest⟩

/-! ### The codec -/

/-- **Decoding and encoding an SSID.** What is decoded is exactly what has a printed form and
fits; nothing is written outside the buffer; the control form is hexadecimal and tells any two
SSIDs apart. -/
theorem ssid_codec :
    (∀ (ssid encoded : Text) (capacity : ℕ), PrintsSsid ssid encoded → '\x00' ∉ ssid →
      1 ≤ ssid.length → ssid.length ≤ 32 → ssid.length < capacity →
        decodeScanSsid encoded capacity = some ssid) ∧
    (∀ (encoded : Text) (capacity : ℕ),
      (¬∃ ssid, PrintsSsid ssid encoded ∧ '\x00' ∉ ssid ∧ 1 ≤ ssid.length ∧ ssid.length ≤ 32 ∧
        ssid.length < capacity) → decodeScanSsid encoded capacity = none) ∧
    (∀ buffer encoded : Text, ∃ ok buffer', decodeInto buffer encoded = some (ok, buffer') ∧
      buffer'.length = buffer.length ∧
      ok = (decodeScanSsid encoded buffer.length).isSome ∧
      ∀ ssid ∈ decodeScanSsid encoded buffer.length, ssid ++ ['\x00'] <+: buffer') ∧
    (∀ (encoded ssid : Text) (capacity room : ℕ), Bytes encoded →
      decodeScanSsid encoded capacity = some ssid → ssid.length * 2 < room →
        ∃ text, encodeWithin ssid room = some text ∧ Hex ssid text) ∧
    ∀ (ssid ssid' text : Text) (room : ℕ), Bytes ssid → Bytes ssid' →
      encodeWithin ssid room = some text → encodeWithin ssid' room = some text → ssid = ssid' := by
  refine ⟨?_, ?_, ?_, ?_, ?_⟩
  · intro ssid encoded capacity hprints hzero hpos hlen hcap
    exact decodeScanSsid_eq_some.mpr ⟨hprints, ne_nil_of_length_pos hpos, hzero, hlen, hcap⟩
  · intro encoded capacity hnone
    rw [eq_none_iff_forall_ne_some]
    intro ssid h
    obtain ⟨hprints, hne, hzero, hlen, hcap⟩ := decodeScanSsid_eq_some.mp h
    exact hnone ⟨ssid, hprints, hzero, length_pos_of_ne_nil hne, hlen, hcap⟩
  · intro buffer encoded
    have h := decodeInto_leaves buffer encoded
    rcases hout : decodeInto buffer encoded with _ | ⟨ok, buffer'⟩
    · rw [hout] at h
      exact h.elim
    · rw [hout] at h
      exact ⟨ok, buffer', rfl, h⟩
  · intro encoded ssid capacity room hbytes h hroom
    obtain ⟨hprints, hne, -, hlen, -⟩ := decodeScanSsid_eq_some.mp h
    exact ⟨_, encodeWithin_of_fits hne hlen hroom, hex_flatMap (prints_bytes hprints hbytes)⟩
  · intro ssid ssid' text room hbytes hbytes' h h'
    exact (hex_of_encodeWithin hbytes h).inj (hex_of_encodeWithin hbytes' h')

theorem ssid_codec_quoted :
    decodeScanSsid ['a', '\\', 'x', 'C', '3', '\\', '"'] 33 = some ['a', '\xc3', '"'] ∧
    decodeScanSsid ['a', '\\', 'x', '0'] 33 = none ∧
    (∃ text, encodeWithin ['a', '\xc3', '"'] 66 = some text ∧ Hex ['a', '\xc3', '"'] text) ∧
    ∀ ssid, Bytes ssid → encodeWithin ssid 66 = some ['6', '1'] → ssid = ['a'] := by
  obtain ⟨haccepts, hrejects, -, hencodes, hdistinct⟩ := ssid_codec
  have hprints : PrintsSsid ['a', '\xc3', '"'] ['a', '\\', 'x', 'C', '3', '\\', '"'] :=
    .cons (.literal (by decide)) (.cons (.hex rfl rfl) (.cons .quote .nil))
  have hdecodes := haccepts _ _ 33 hprints (by decide) (by decide) (by decide) (by decide)
  refine ⟨hdecodes, ?_, ?_, ?_⟩
  · apply hrejects
    rintro ⟨ssid, hprints, hzero, hpos, hlen, hcap⟩
    have h := decodeScanSsid_eq_some.mpr
      ⟨hprints, ne_nil_of_length_pos hpos, hzero, hlen, hcap⟩
    cases h
  · exact hencodes _ _ 33 66 (by simp [Bytes]) hdecodes (by decide)
  · intro ssid hbytes h
    exact hdistinct ssid ['a'] _ 66 hbytes (by simp [Bytes]) h (by decide)

end C1auncher.Wifi.SsidCodec
