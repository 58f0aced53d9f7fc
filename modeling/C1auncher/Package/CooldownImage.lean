import C1auncher.Package.CooldownRecord
import C1auncher.Package.CooldownScope

/-!
The image of a cooldown record, as `cooldown_store` writes it and `cooldown_read` reads it back.

Every record that is stored passes every check of `cooldown_read`, as long as no URL names its
default port twice.
-/

namespace C1auncher.Package.CooldownImage

open CString Package.Cooldown Package.CooldownScope Option List Function

/-! ### Buffers -/

/-- A `char` array of fixed size. -/
structure Buffer (n : ℕ) where
  chars : Text
  size : chars.length = n
  deriving DecidableEq

def Buffer.zero (n : ℕ) : Buffer n := ⟨List.replicate n '\x00', by simp⟩

def Buffer.text {n : ℕ} (b : Buffer n) : Text := b.chars.takeWhile (· ≠ '\x00')

/-- `strcpy`; it must not write beyond the buffer. -/
def Buffer.copy {n : ℕ} (b : Buffer n) (text : Text) : Option (Buffer n) :=
  if h : text.length < n then
    some ⟨text ++ '\x00' :: b.chars.drop (text.length + 1), by simp [b.size]; omega⟩
  else none

/-- `memcmp` with a literal, its terminator included. -/
def Buffer.starts {n : ℕ} (b : Buffer n) (literal : Text) : Bool :=
  (literal ++ ['\x00']).isPrefixOf b.chars

/-! ### Records -/

/-- `COOLDOWN_READY` -/
def ready : Text := "C1PKG-COOL-1".toList

/-- `COOLDOWN_PENDING` -/
def pending : Text := "C1PKG-REQ-2".toList

/-- The part of a record that its checksum is about. -/
structure Body where
  magic : Buffer 16
  scope : Buffer urlMax
  boot : Buffer 37
  writtenMs : UInt64
  durationMs : UInt64
  untilMs : UInt64
  deriving DecidableEq

/-- `struct cooldown_record`, the contents of a `.state` file. -/
structure Image (D : Type) where
  body : Body
  checksum : D
  deriving DecidableEq

/-- What `cooldown_boot` accepts from the kernel. -/
def bootId (boot : Text) : Bool :=
  boot.length = 36 ∧ boot.zipIdx.all fun (c, i) =>
    if i = 8 ∨ i = 13 ∨ i = 18 ∨ i = 23 then c = '-'
    else ('0' ≤ c ∧ c ≤ '9') ∨ ('a' ≤ c ∧ c ≤ 'f')

/-- `a > UINT64_MAX - b ? UINT64_MAX : b + a` -/
def add (a b : UInt64) : UInt64 :=
  if a > 0xffffffffffffffff - b then 0xffffffffffffffff else b + a

section

variable {D : Type} [DecidableEq D] (sha512 : Body → Option D)

/-- The checks of `cooldown_read` on a file of the right size. -/
def read (image : Image D) : Option (Image D) :=
  let r := image.body
  if sha512 r ≠ some image.checksum then none
  else if ¬r.magic.starts ready ∧ ¬r.magic.starts pending then none
  else if '\x00' ∉ r.scope.chars then none
  else if cooldownUrl r.scope.text ≠ some r.scope.text then none
  else if r.boot.chars[36]? ≠ some '\x00' ∨ r.boot.text.length ≠ 36 then none
  else if r.writtenMs = 0xffffffffffffffff ∨ r.untilMs < r.writtenMs then none
  else if r.untilMs ≠ add r.durationMs r.writtenMs then none
  else some image

/-- What `cooldown_store` writes. -/
def store (record : Body) : Option (Image D) := (sha512 record).map (⟨record, ·⟩)

end

/-- The record of a slot that `cooldown_open` assigns. -/
def fresh (scope boot : Text) (now : UInt64) : Option Body := do
  let magic ← (Buffer.zero 16).copy ready
  let scope ← (Buffer.zero urlMax).copy scope
  let boot ← (Buffer.zero 37).copy boot
  some ⟨magic, scope, boot, now, 0, now⟩

/-- The part of `cooldown_open` that takes a record of another boot over to this one. -/
def takeOver (selected : Body) (boot : Text) (now : UInt64) : Option Body :=
  if selected.boot.text ≠ boot then
    (selected.boot.copy boot).map fun boot =>
      { selected with boot, writtenMs := now, untilMs := add selected.durationMs now }
  else if now < selected.writtenMs then none
  else some selected

/-- The part of `cooldown_open` that consumes the marker of a request. -/
def recover (record : Body) (now : UInt64) : Option Body :=
  if record.magic.text = pending then
    let untilMs := if record.untilMs < add 60000 now then add 60000 now else record.untilMs
    (record.magic.copy ready).map fun magic =>
      { record with
        magic
        writtenMs := now
        durationMs := if untilMs = 0xffffffffffffffff then 0xffffffffffffffff else untilMs - now
        untilMs }
  else some record

/-- `cooldown_open` on the record it selected, up to the call of `cooldown_store`. -/
def reopen (selected : Body) (boot : Text) (now : UInt64) : Option Body :=
  if now = 0xffffffffffffffff then none
  else (takeOver selected boot now).bind (recover · now)

/-- `cooldown_commit_state`, up to the call of `cooldown_store`. -/
def commitState (record : Body) (untilMs : UInt64) (magic : Text) (now : UInt64) : Option Body :=
  if now = 0xffffffffffffffff ∨ now < record.writtenMs then none
  else do
    let untilMs := if untilMs < record.untilMs then record.untilMs else untilMs
    let magic ← record.magic.copy magic
    some { record with
      magic
      writtenMs := now
      durationMs :=
        if untilMs = 0xffffffffffffffff then 0xffffffffffffffff
        else if untilMs > now then untilMs - now else 0
      untilMs :=
        if untilMs = 0xffffffffffffffff then 0xffffffffffffffff
        else if untilMs > now then untilMs else now }

/-! ### What the two levels have in common -/

/-- The parts of a record that the numbers and the scope are not: as `cooldown_read` wants them. -/
structure Envelope (r : Body) : Prop where
  magic : r.magic.starts ready = true ∨ r.magic.starts pending = true
  scope : '\x00' ∈ r.scope.chars
  boot : r.boot.chars[36]? = some '\x00'
  bootLength : r.boot.text.length = 36

def Body.record (number : Text → ℕ) (r : Body) : Record :=
  ⟨r.magic.starts pending, r.scope.text, number r.boot.text, r.writtenMs.toNat, r.durationMs.toNat,
    r.untilMs.toNat⟩

@[simp] lemma toNat_max : (0xffffffffffffffff : UInt64).toNat = uint64Max := rfl

lemma toNat_le_max (n : UInt64) : n.toNat ≤ uint64Max := by
  have := n.toNat_lt
  unfold uint64Max
  omega

lemma toNat_eq_max {n : UInt64} : n = 0xffffffffffffffff ↔ n.toNat = uint64Max := by
  rw [← UInt64.toNat_inj, toNat_max]

@[simp] lemma toNat_add (a b : UInt64) : (add a b).toNat = addSaturating a.toNat b.toNat := by
  have ha := toNat_le_max a
  have hb := toNat_le_max b
  have hsub : (0xffffffffffffffff - b).toNat = uint64Max - b.toNat :=
    UInt64.toNat_sub_of_le _ _ (UInt64.le_iff_toNat_le.mpr hb)
  unfold add addSaturating
  simp only [gt_iff_lt, UInt64.lt_iff_toNat_lt, hsub]
  split_ifs with h
  · rfl
  rw [UInt64.toNat_add, Nat.mod_eq_of_lt]
  unfold uint64Max at h hb
  omega

lemma valid_record {number : Text → ℕ} {r : Body} :
    (r.record number).valid = true ↔ cooldownUrl r.scope.text = some r.scope.text ∧
      ¬(r.writtenMs = 0xffffffffffffffff ∨ r.untilMs < r.writtenMs) ∧
      r.untilMs = add r.durationMs r.writtenMs := by
  unfold Record.valid
  rw [decide_eq_true_iff]
  simp only [Body.record, ne_eq, not_or, UInt64.lt_iff_toNat_lt, not_lt, and_assoc,
    ← UInt64.toNat_inj, toNat_add]
  rfl

lemma read_eq {D : Type} [DecidableEq D] {sha512 : Body → Option D} {image : Image D}
    (number : Text → ℕ) : read sha512 image = some image ↔
      sha512 image.body = some image.checksum ∧ Envelope image.body ∧
        (image.body.record number).valid = true := by
  rw [valid_record]
  unfold read
  dsimp only
  constructor
  · intro h
    split_ifs at h with hsum hmagic hscope hfixed hboot hwritten huntil
    obtain ⟨hended, hlength⟩ := not_or.mp hboot
    refine ⟨not_not.mp hsum, ⟨?_, hscope, not_not.mp hended, not_not.mp hlength⟩,
      not_not.mp hfixed, hwritten, not_not.mp huntil⟩
    by_contra hno
    exact hmagic (not_or.mp hno)
  · rintro ⟨hsum, henv, hfixed, hwritten, huntil⟩
    rw [if_neg (not_not.mpr hsum), if_neg, if_neg (not_not.mpr henv.scope),
      if_neg (not_not.mpr hfixed), if_neg, if_neg hwritten, if_neg (not_not.mpr huntil)]
    · exact not_or.mpr ⟨not_not.mpr henv.boot, not_not.mpr henv.bootLength⟩
    · rintro ⟨hready, hpending⟩
      exact henv.magic.elim hready hpending

lemma read_eq_none {D : Type} [DecidableEq D] {sha512 : Body → Option D} {image : Image D}
    (h : cooldownUrl image.body.scope.text ≠ some image.body.scope.text) :
    read sha512 image = none := by
  unfold read
  dsimp only
  split_ifs <;> rfl

/-! ### Copies -/

lemma copy_spec {n : ℕ} {b b' : Buffer n} {text : Text} (h : b.copy text = some b')
    (hnul : ∀ c ∈ text, c ≠ '\x00') :
    b'.text = text ∧ b'.starts text = true ∧ b'.chars[text.length]? = some '\x00' ∧
      text.length < n := by
  unfold Buffer.copy at h
  split_ifs at h with hfits
  cases h
  refine ⟨?_, ?_, by simp, hfits⟩
  · have hall : ∀ c ∈ text, decide (c ≠ '\x00') = true := fun c hc => by simpa using hnul c hc
    rw [Buffer.text, takeWhile_append_of_pos hall]
    simp
  · exact isPrefixOf_iff_prefix.mpr ⟨b.chars.drop (text.length + 1), by simp⟩

lemma text_of_starts {n : ℕ} {b : Buffer n} {text : Text} (h : b.starts text = true)
    (hnul : ∀ c ∈ text, c ≠ '\x00') : b.text = text := by
  obtain ⟨rest, hrest⟩ := isPrefixOf_iff_prefix.mp h
  have hall : ∀ c ∈ text, decide (c ≠ '\x00') = true := fun c hc => by simpa using hnul c hc
  rw [Buffer.text, ← hrest, append_assoc, takeWhile_append_of_pos hall]
  simp

lemma no_nul_of_all {text : Text} (h : text.all (· ≠ '\x00') = true) : ∀ c ∈ text, c ≠ '\x00' :=
  fun c hc => by simpa using List.all_eq_true.mp h c hc

lemma ready_no_nul : ∀ c ∈ ready, c ≠ '\x00' := no_nul_of_all (by decide)

lemma pending_no_nul : ∀ c ∈ pending, c ≠ '\x00' := no_nul_of_all (by decide)

lemma text_eq_pending {b : Buffer 16} (h : b.starts ready = true ∨ b.starts pending = true) :
    b.text = pending ↔ b.starts pending = true := by
  refine ⟨fun htext => h.resolve_left fun hready => ?_, fun hp => text_of_starts hp pending_no_nul⟩
  rw [text_of_starts hready ready_no_nul] at htext
  exact absurd htext (by decide)

lemma ready_ne_pending {b : Buffer 16} (h : b.starts ready = true) : b.starts pending = false := by
  refine Bool.eq_false_iff.mpr fun hp => ?_
  have htext := (text_of_starts h ready_no_nul).symm.trans (text_of_starts hp pending_no_nul)
  exact absurd htext (by decide)

lemma bootId_spec {boot : Text} (h : bootId boot = true) :
    boot.length = 36 ∧ ∀ c ∈ boot, c ≠ '\x00' := by
  unfold bootId at h
  rw [decide_eq_true_iff] at h
  obtain ⟨hlen, hall⟩ := h
  refine ⟨hlen, ?_⟩
  rintro c hc rfl
  obtain ⟨i, hi, hget⟩ := mem_iff_getElem.mp hc
  have hmem : ('\x00', i) ∈ boot.zipIdx := by
    rw [mem_zipIdx_iff_getElem?]
    simp [getElem?_eq_getElem hi, hget]
  have hno := List.all_eq_true.mp hall _ hmem
  dsimp only at hno
  split_ifs at hno <;> exact absurd hno (by decide)

lemma exists_copy {n : ℕ} (b : Buffer n) {text : Text} (h : text.length < n) :
    ∃ b', b.copy text = some b' := ⟨_, dif_pos h⟩

/-! ### The numbers of a record -/

lemma addSaturating_le (a b : ℕ) (hb : b ≤ uint64Max) :
    b ≤ addSaturating a b ∧ addSaturating a b ≤ uint64Max := by
  unfold addSaturating
  split_ifs <;> omega

lemma addSaturating_interval {now untilMs : ℕ} (hle : now ≤ untilMs) (hmax : untilMs ≤ uint64Max) :
    addSaturating (if untilMs = uint64Max then uint64Max else untilMs - now) now = untilMs := by
  unfold addSaturating
  split_ifs <;> omega

lemma valid_iff {r : Record} : r.valid = true ↔
    cooldownUrl r.scope = some r.scope ∧ r.writtenMs ≠ uint64Max ∧ r.writtenMs ≤ r.untilMs ∧
      r.untilMs = addSaturating r.durationMs r.writtenMs := by
  unfold Record.valid
  rw [decide_eq_true_iff]

lemma valid_reopen {r r' : Record} {boot now : ℕ} (h : r.valid = true)
    (hmax : r.untilMs ≤ uint64Max) (hnow : now ≤ uint64Max)
    (hr : r.reopen boot now = some r') : r'.valid = true := by
  rw [valid_iff] at h ⊢
  obtain ⟨hscope, hwritten, hle, huntil⟩ := h
  obtain ⟨htaken, htaken'⟩ := addSaturating_le r.durationMs now hnow
  obtain ⟨hwait, hwait'⟩ := addSaturating_le recoveryMs now hnow
  unfold Record.reopen at hr
  split_ifs at hr with hclock hback hboot hpending hpending <;> cases hr
  · refine ⟨hscope, hclock, hwait.trans (le_max_left _ _), (addSaturating_interval ?_ ?_).symm⟩
    · exact hwait.trans (le_max_left _ _)
    · exact max_le hwait' htaken'
  · exact ⟨hscope, hclock, htaken, rfl⟩
  · refine ⟨hscope, hclock, hwait.trans (le_max_left _ _), (addSaturating_interval ?_ ?_).symm⟩
    · exact hwait.trans (le_max_left _ _)
    · exact max_le hwait' hmax
  · exact ⟨hscope, hwritten, hle, huntil⟩

lemma valid_commit {r r' : Record} {now untilMs : ℕ} {b : Bool} (h : r.valid = true)
    (hmax : r.untilMs ≤ uint64Max) (huntil : untilMs ≤ uint64Max) (hnow : now ≤ uint64Max)
    (hr : r.commit now untilMs b = some r') : r'.valid = true := by
  rw [valid_iff] at h ⊢
  unfold Record.commit at hr
  split_ifs at hr with hclock
  cases hr
  obtain ⟨hclock, -⟩ := not_or.mp hclock
  have hlater : max untilMs r.untilMs ≤ uint64Max := max_le huntil hmax
  generalize max untilMs r.untilMs = later at hlater
  refine ⟨h.1, hclock, ?_, ?_⟩
  · dsimp only
    split_ifs <;> omega
  · dsimp only [addSaturating]
    split_ifs <;> omega

/-! ### One level refines the other -/

section

variable {number : Text → ℕ} {r r' : Body} {boot : Text} {now : UInt64}

variable (number now) in
lemma fresh_record {scope : Text} (hscope : scope.length < urlMax)
    (hnul : ∀ c ∈ scope, c ≠ '\x00') (hboot : bootId boot = true) :
    ∃ r, fresh scope boot now = some r ∧ Envelope r ∧
      r.record number = ⟨false, scope, number boot, now.toNat, 0, now.toNat⟩ := by
  obtain ⟨hlen, hbootNul⟩ := bootId_spec hboot
  obtain ⟨magic, hmagic⟩ := exists_copy (Buffer.zero 16) (show ready.length < 16 by decide)
  obtain ⟨buffer, hbuffer⟩ := exists_copy (Buffer.zero urlMax) hscope
  obtain ⟨id, hid⟩ := exists_copy (Buffer.zero 37) (show boot.length < 37 by omega)
  obtain ⟨-, hready, -, -⟩ := copy_spec hmagic ready_no_nul
  obtain ⟨htext, -, hend, -⟩ := copy_spec hbuffer hnul
  obtain ⟨hidText, -, hidEnd, -⟩ := copy_spec hid hbootNul
  refine ⟨⟨magic, buffer, id, now, 0, now⟩, by simp [fresh, hmagic, hbuffer, hid], ?_, ?_⟩
  · exact ⟨.inl hready, mem_of_getElem? hend, hlen ▸ hidEnd, by rw [hidText, hlen]⟩
  · simp [Body.record, ready_ne_pending hready, htext, hidText]

lemma toNat_sub {a b : UInt64} (h : b.toNat ≤ a.toNat) : (a - b).toNat = a.toNat - b.toNat :=
  UInt64.toNat_sub_of_le _ _ (UInt64.le_iff_toNat_le.mpr h)

lemma toNat_later (a b : UInt64) : (if a < b then b else a).toNat = max a.toNat b.toNat := by
  split_ifs with h <;> rw [UInt64.lt_iff_toNat_lt] at h <;> omega

lemma toNat_interval (later now : UInt64) :
    (if later = 0xffffffffffffffff then (0xffffffffffffffff : UInt64)
      else if later > now then later - now else 0).toNat =
      if later.toNat = uint64Max then uint64Max else later.toNat - now.toNat := by
  by_cases hmax : later = 0xffffffffffffffff
  · rw [if_pos hmax, if_pos (toNat_eq_max.mp hmax)]
    rfl
  rw [if_neg hmax, if_neg (mt toNat_eq_max.mpr hmax)]
  split_ifs with h <;> rw [gt_iff_lt, UInt64.lt_iff_toNat_lt] at h
  · exact toNat_sub h.le
  · rw [Nat.sub_eq_zero_of_le (not_lt.mp h)]
    rfl

lemma toNat_deadline (later now : UInt64) :
    (if later = 0xffffffffffffffff then (0xffffffffffffffff : UInt64)
      else if later > now then later else now).toNat =
      if later.toNat = uint64Max then uint64Max else max later.toNat now.toNat := by
  by_cases hmax : later = 0xffffffffffffffff
  · rw [if_pos hmax, if_pos (toNat_eq_max.mp hmax)]
    rfl
  · rw [if_neg hmax, if_neg (mt toNat_eq_max.mpr hmax)]
    split_ifs with h <;> rw [gt_iff_lt, UInt64.lt_iff_toNat_lt] at h <;> omega

variable (number now) in
lemma recover_record (hr : Envelope r) : ∃ r', recover r now = some r' ∧ Envelope r' ∧
    r'.record number =
      if (r.record number).pending then
        let untilMs := max (addSaturating recoveryMs now.toNat) (r.record number).untilMs
        { r.record number with
          pending := false, writtenMs := now.toNat
          durationMs := if untilMs = uint64Max then uint64Max else untilMs - now.toNat
          untilMs := untilMs }
      else r.record number := by
  obtain ⟨magic, hmagic⟩ := exists_copy r.magic (show ready.length < 16 by decide)
  obtain ⟨-, hready, -, -⟩ := copy_spec hmagic ready_no_nul
  unfold recover
  by_cases hp : r.magic.text = pending
  · rw [if_pos hp, hmagic,
      if_pos (show (r.record number).pending = true from (text_eq_pending hr.magic).mp hp)]
    refine ⟨_, rfl, { hr with magic := .inl hready }, ?_⟩
    have huntil : (if r.untilMs < add 60000 now then add 60000 now else r.untilMs).toNat =
        max (addSaturating recoveryMs now.toNat) r.untilMs.toNat := by
      rw [toNat_later, toNat_add, max_comm]
      rfl
    generalize (if r.untilMs < add 60000 now then add 60000 now else r.untilMs) = later at huntil ⊢
    have hlater : now.toNat ≤ later.toNat := by
      rw [huntil]
      exact (addSaturating_le recoveryMs _ (toNat_le_max now)).1.trans (le_max_left _ _)
    have hduration : (if later = 0xffffffffffffffff then (0xffffffffffffffff : UInt64)
        else later - now).toNat =
        if later.toNat = uint64Max then uint64Max else later.toNat - now.toNat := by
      by_cases hmax : later = 0xffffffffffffffff
      · rw [if_pos hmax, if_pos (toNat_eq_max.mp hmax)]
        rfl
      · rw [if_neg hmax, if_neg (mt toNat_eq_max.mpr hmax), toNat_sub hlater]
    simp only [Body.record, hduration, huntil, ready_ne_pending hready]
    rfl
  · rw [if_neg hp]
    exact ⟨r, rfl, hr, (if_neg fun h => hp ((text_eq_pending hr.magic).mpr h)).symm⟩

variable (number now) in
lemma reopen_record (hr : Envelope r) (hboot : bootId boot = true)
    (hnumber : Injective number) :
    (reopen r boot now).map (Body.record number) =
        (r.record number).reopen (number boot) now.toNat ∧
      ∀ r', reopen r boot now = some r' → Envelope r' := by
  obtain ⟨hlen, hbootNul⟩ := bootId_spec hboot
  unfold reopen Record.reopen takeOver
  by_cases hclock : now = 0xffffffffffffffff
  · rw [if_pos hclock, if_pos (toNat_eq_max.mp hclock)]
    exact ⟨rfl, nofun⟩
  rw [if_neg hclock, if_neg (mt toNat_eq_max.mpr hclock)]
  by_cases hb : r.boot.text = boot
  · have hsame : (r.record number).boot = number boot := congrArg number hb
    rw [if_neg (not_not.mpr hb)]
    by_cases hback : now < r.writtenMs
    · rw [if_pos hback, if_pos ⟨hsame, UInt64.lt_iff_toNat_lt.mp hback⟩]
      exact ⟨rfl, nofun⟩
    obtain ⟨r', hrecover, henv, hrecord⟩ := recover_record number now hr
    rw [if_neg hback, if_neg fun h => hback (UInt64.lt_iff_toNat_lt.mpr h.2), bind_some,
      hrecover]
    refine ⟨?_, by rintro _ ⟨⟩; exact henv⟩
    simp only [map_some, hrecord, ne_eq, hsame, not_true_eq_false, if_false]
    split_ifs <;> rfl
  · have hother : (r.record number).boot ≠ number boot := fun h => hb (hnumber h)
    obtain ⟨id, hid⟩ := exists_copy r.boot (show boot.length < 37 by omega)
    obtain ⟨hidText, -, hidEnd, -⟩ := copy_spec hid hbootNul
    rw [if_pos hb, hid, if_neg fun h => hother h.1, map_some, bind_some]
    have henv : Envelope { r with
        boot := id, writtenMs := now, untilMs := add r.durationMs now } :=
      ⟨hr.magic, hr.scope, hlen ▸ hidEnd, by rw [hidText, hlen]⟩
    obtain ⟨r', hrecover, henv', hrecord⟩ := recover_record number now henv
    have htaken : Body.record number { r with
        boot := id, writtenMs := now, untilMs := add r.durationMs now } =
        { r.record number with
          boot := number boot, writtenMs := now.toNat
          untilMs := addSaturating (r.record number).durationMs now.toNat } := by
      simp [Body.record, hidText]
    rw [htaken] at hrecord
    rw [hrecover]
    refine ⟨?_, by rintro _ ⟨⟩; exact henv'⟩
    simp only [map_some, hrecord, ne_eq, hother, not_false_eq_true, if_true]
    split_ifs <;> rfl

variable (number now) in
lemma commitState_record (untilMs : UInt64) (b : Bool) (hr : Envelope r) :
    (commitState r untilMs (if b then pending else ready) now).map (Body.record number) =
        (r.record number).commit now.toNat untilMs.toNat b ∧
      ∀ r', commitState r untilMs (if b then pending else ready) now = some r' → Envelope r' := by
  obtain ⟨magic, hmagic⟩ := exists_copy r.magic
    (show (if b then pending else ready).length < 16 by cases b <;> decide)
  obtain ⟨-, hstarts, -, -⟩ := copy_spec hmagic
    (show ∀ c ∈ (if b then pending else ready), c ≠ '\x00' by
      cases b <;> [exact ready_no_nul; exact pending_no_nul])
  have hmark : magic.starts pending = b ∧ (magic.starts ready = true ∨
      magic.starts pending = true) := by
    cases b
    · exact ⟨ready_ne_pending hstarts, .inl hstarts⟩
    · exact ⟨hstarts, .inr hstarts⟩
  unfold commitState Record.commit
  have hguard : (now = 0xffffffffffffffff ∨ now < r.writtenMs) ↔
      now.toNat = uint64Max ∨ now.toNat < (r.record number).writtenMs := by
    rw [toNat_eq_max, UInt64.lt_iff_toNat_lt]
    rfl
  by_cases hclock : now = 0xffffffffffffffff ∨ now < r.writtenMs
  · rw [if_pos hclock, if_pos (hguard.mp hclock)]
    exact ⟨rfl, nofun⟩
  rw [if_neg hclock, if_neg (mt hguard.mpr hclock), hmagic]
  refine ⟨?_, ?_⟩
  · simp only [bind_eq_bind, bind_some, map_some, Body.record, toNat_later,
      toNat_interval, toNat_deadline, hmark.1]
    rfl
  rintro r' hr'
  simp only [bind_eq_bind, bind_some, some.injEq] at hr'
  subst hr'
  exact { hr with magic := hmark.2 }

end

/-! ### What is stored is read back -/

section

variable {D : Type} [DecidableEq D] (sha512 : Body → Option D) (urls : Set Text)

/-- The scopes of the slots that `cooldown_open` assigns to a URL of `urls`: that of the
repository, or the directory of the URL. -/
def Assigned (scope : Text) : Prop :=
  ∃ url ∈ urls, ∃ normalized, cooldownUrl url = some normalized ∧
    (scope = parentScope normalized ∨
      ∃ base ∈ urls, cooldownUrl base = some scope ∧ cooldownContains scope normalized = true)

/-- The records that `cooldown_active` goes through: a new one, one that was found on disk, and
what a commit makes of one, whether it could be stored or not. -/
inductive Active : Body → Prop
  | assigned {scope boot : Text} {started now : UInt64} {selected record : Body}
      (hscope : Assigned urls scope) (hboot : bootId boot = true)
      (hclock : started ≠ 0xffffffffffffffff) (hfresh : fresh scope boot started = some selected)
      (hopen : reopen selected boot now = some record) : Active record
  | found {image : Image D} {boot : Text} {now : UInt64} {record : Body}
      (hread : read sha512 image = some image) (hboot : bootId boot = true)
      (hopen : reopen image.body boot now = some record) : Active record
  | committed {record record' : Body} {untilMs now : UInt64} {b : Bool} (hactive : Active record)
      (hcommit : commitState record untilMs (if b then pending else ready) now = some record') :
      Active record'

/-- What `cooldown_open` and `cooldown_commit_state` write. -/
def Written (image : Image D) : Prop :=
  ∃ record, Active sha512 urls record ∧ store sha512 record = some image

variable {sha512 urls}

lemma scope_chars {input scope : Text} (h : cooldownUrl input = some scope) :
    scope.length < urlMax ∧ ∀ c ∈ scope, c ≠ '\x00' := by
  obtain ⟨host, path, rfl, hhost, hpath, hshort⟩ := cooldownUrl_parts h
  refine ⟨hshort, fun c hc => ?_⟩
  rcases mem_append.mp hc with hc | hc
  · rcases mem_append.mp hc with hc | hc
    · exact no_nul_of_all (by cases secure input <;> decide) c hc
    · rintro rfl
      exact absurd ((cooldownHost_spec hhost).1.chars _ hc) (by decide)
  · rintro rfl
    exact absurd (hpath.chars _ hc) (by decide)

lemma assigned_fixed
    (hurls : ∀ input ∈ urls, ∀ scope, cooldownUrl input = some scope → ¬NamesPortTwice input)
    {scope : Text} (h : Assigned urls scope) : cooldownUrl scope = some scope := by
  obtain ⟨url, hurl, normalized, hnormal, rfl | ⟨base, hbase, hscope, -⟩⟩ := h
  · exact ((cooldownUrl_idempotent hnormal).mpr (hurls url hurl _ hnormal)).2
  · exact ((cooldownUrl_idempotent hscope).mpr (hurls base hbase _ hscope)).1

lemma reopen_valid {number : Text → ℕ} (hnumber : Injective number)
    {selected record : Body} {boot : Text} {now : UInt64} (henv : Envelope selected)
    (hvalid : (selected.record number).valid = true) (hboot : bootId boot = true)
    (hopen : reopen selected boot now = some record) :
    Envelope record ∧ (record.record number).valid = true := by
  obtain ⟨hrecord, henv'⟩ := reopen_record _ now henv hboot hnumber
  rw [hopen, map_some] at hrecord
  exact ⟨henv' _ hopen, valid_reopen hvalid (toNat_le_max _) (toNat_le_max _) hrecord.symm⟩

lemma active_valid {number : Text → ℕ} (hnumber : Injective number)
    (hurls : ∀ input ∈ urls, ∀ scope, cooldownUrl input = some scope → ¬NamesPortTwice input)
    {record : Body} (h : Active sha512 urls record) :
    Envelope record ∧ (record.record number).valid = true := by
  induction h with
  | @assigned scope boot started now selected record hscope hboot hclock hfresh hopen =>
    have hfixed := assigned_fixed hurls hscope
    obtain ⟨hshort, hnul⟩ := scope_chars hfixed
    obtain ⟨r, hr, henv, hrecord⟩ := fresh_record number started hshort hnul
      hboot
    obtain rfl : r = selected := some.inj (hr.symm.trans hfresh)
    refine reopen_valid hnumber henv ?_ hboot hopen
    rw [hrecord, valid_iff]
    exact ⟨hfixed, mt toNat_eq_max.mpr hclock, le_rfl, by simp [addSaturating]⟩
  | found hread hboot hopen =>
    obtain ⟨-, henv, hvalid⟩ := (read_eq number).mp hread
    exact reopen_valid hnumber henv hvalid hboot hopen
  | @committed record record' untilMs now b _ hcommit ih =>
    obtain ⟨henv, hvalid⟩ := ih
    obtain ⟨hrecord, henv'⟩ := commitState_record number now untilMs b henv
    rw [hcommit, map_some] at hrecord
    exact ⟨henv' _ hcommit, valid_commit hvalid (toNat_le_max _) (toNat_le_max _) (toNat_le_max _)
      hrecord.symm⟩

lemma exists_number : ∃ number : Text → ℕ, Injective number := by
  have : Countable Char :=
    Injective.countable (f := Char.toNat) fun _ _ h => Char.toNat_inj.mp h
  exact exists_injective_nat Text

/-- **Cooldown records are read back**: the scope of every accepted URL and its directory are
fixed points of `cooldown_url`, and every record that is written passes every check and is read
back unchanged, if and only if no accepted URL names its default port twice. -/
theorem records_roundTrip (sha512 : Body → Option D) (urls : Set Text) :
    ((∀ input ∈ urls, ∀ scope, cooldownUrl input = some scope →
        cooldownUrl scope = some scope ∧
          cooldownUrl (parentScope scope) = some (parentScope scope)) ∧
      ∀ image, Written sha512 urls image → read sha512 image = some image) ↔
    ∀ input ∈ urls, ∀ scope, cooldownUrl input = some scope → ¬NamesPortTwice input := by
  constructor
  · rintro ⟨hfixed, -⟩ input hinput scope hscope
    exact (cooldownUrl_idempotent hscope).mp (hfixed input hinput scope hscope)
  · intro hurls
    refine ⟨fun input hinput scope hscope =>
      (cooldownUrl_idempotent hscope).mpr (hurls input hinput scope hscope), ?_⟩
    rintro image ⟨record, hactive, hstore⟩
    obtain ⟨number, hnumber⟩ := exists_number
    obtain ⟨henv, hvalid⟩ := active_valid hnumber hurls hactive
    obtain ⟨sum, hsum, rfl⟩ := map_eq_some_iff.mp hstore
    exact (read_eq number).mpr ⟨hsum, henv, hvalid⟩

lemma exists_written (sum : Body → D) {urls : Set Text} {scope : Text} (h : Assigned urls scope)
    (hshort : scope.length < urlMax) (hnul : ∀ c ∈ scope, c ≠ '\x00') :
    ∃ image, Written (fun r => some (sum r)) urls image ∧ image.body.scope.text = scope := by
  have hboot : bootId "01234567-89ab-cdef-0123-456789abcdef".toList = true := by decide
  obtain ⟨number, hnumber⟩ := exists_number
  obtain ⟨r, hr, henv, hrecord⟩ := fresh_record number 0 hshort hnul hboot
  obtain ⟨hsame, -⟩ := reopen_record _ 0 henv hboot hnumber
  rw [hrecord] at hsame
  simp only [Record.reopen, uint64Max, ne_eq] at hsame
  rw [if_neg (by decide), if_neg (by simp), if_neg (by simp), if_neg (by simp)] at hsame
  obtain ⟨record, hopen, hrecord'⟩ := map_eq_some_iff.mp hsame
  exact ⟨⟨record, sum record⟩, ⟨record, .assigned h hboot (by decide) hr hopen, rfl⟩,
    congrArg Record.scope hrecord'⟩

end

/-- **A port that is named twice**: the scope of the URL, and that of the record in its slot, is
none for `cooldown_read`, which then fails on that slot. -/
theorem records_roundTrip_fails :
    cooldownUrl "http://h:80:80/x".toList = some "http://h:80/x".toList ∧
      cooldownUrl "http://h:80/x".toList = some "http://h/x".toList ∧
      ∃ image : Image Unit, Written (fun _ => some ()) {"http://h:80:80/x".toList} image ∧
        read (fun _ => some ()) image = none := by
  have hnormal : cooldownUrl "http://h:80:80/x".toList = some "http://h:80/x".toList := by
    decide +kernel
  have hparent : parentScope "http://h:80/x".toList = "http://h:80".toList := by decide +kernel
  refine ⟨hnormal, by decide +kernel, ?_⟩
  obtain ⟨image, hwritten, hscope⟩ := exists_written (fun _ => ())
    (show Assigned {"http://h:80:80/x".toList} _ from ⟨_, rfl, _, hnormal, .inl rfl⟩)
    (by rw [hparent]; decide) (by rw [hparent]; exact no_nul_of_all (by decide))
  refine ⟨image, hwritten, ?_⟩
  rw [hparent] at hscope
  refine read_eq_none ?_
  rw [hscope]
  decide +kernel

end C1auncher.Package.CooldownImage
