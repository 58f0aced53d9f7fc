import C1auncher.Ui.Model

/-!
The editor for the text of the lock page: bytes and offsets in the code, characters here.

Every offset that the code stops at is one between two characters, since exactly the bytes behind
the first of a character continue it.
-/

namespace C1auncher.Ui.LockTextEditor

open CString Utf8Bytes Ui.LockText Ui.Preferences List
open Ui.Model

/-! ### The array -/

def EmptyOrFits (text : Text) : Prop := text = [] ∨ Fits text

lemma EmptyOrFits.printable {text : Text} (h : EmptyOrFits text) : ∀ c ∈ text, Printable c := by
  rcases h with rfl | h
  · simp
  · exact h.printable

lemma EmptyOrFits.size {text : Text} (h : EmptyOrFits text) :
    (encode text).length < lockTextBytes := by
  rcases h with rfl | h
  · simp [lockTextBytes]
  · exact h.size

variable {bytes : Bytes} {i : ℕ}

lemma padded_bytes (h : bytes.length < lockTextBytes) :
    (padded bytes).bytes = bytes ++ 0 :: List.replicate (lockTextBytes - bytes.length - 1) 0 := by
  obtain ⟨n, hn⟩ : ∃ n, lockTextBytes - bytes.length = n + 1 :=
    ⟨lockTextBytes - bytes.length - 1, by omega⟩
  show (bytes ++ replicate lockTextBytes 0).take lockTextBytes = _
  rw [take_append, take_of_length_le (le_of_lt h), hn, take_replicate,
    min_eq_left (by omega), replicate_succ, Nat.add_sub_cancel]

lemma cString_padded {text : Text} (h : EmptyOrFits text) :
    cString (padded (encode text)).bytes = encode text := by
  rw [padded_bytes h.size, cString_encode h.printable]

lemma getD_padded (h : bytes.length < lockTextBytes)
    (hi : i < bytes.length) : (padded bytes).bytes.getD i 0 = bytes[i] := by
  rw [padded_bytes h, getD_append _ _ _ _ hi]
  simp [hi]

lemma getD_padded_zero (h : bytes.length < lockTextBytes)
    (hi : bytes.length ≤ i) : (padded bytes).bytes.getD i 0 = 0 := by
  rw [padded_bytes h, getD_append_right _ _ _ _ hi]
  rcases i - bytes.length with _ | k
  · rfl
  rw [getD_cons_succ]
  simp only [getD_eq_getElem?_getD, getElem?_replicate]
  split <;> rfl

/-! ### Offsets between characters -/

/-- The offset lies between two characters of the text, or at one of its ends. -/
def Boundary (text : Text) (i : ℕ) : Prop :=
  ∃ before after, text = before ++ after ∧ i = (encode before).length

lemma Boundary.zero (text : Text) : Boundary text 0 := ⟨[], text, rfl, rfl⟩

lemma Boundary.length (text : Text) : Boundary text (encode text).length :=
  ⟨text, [], by simp, rfl⟩

/-- The byte at an offset of the text continues a character. -/
def Inside (text : Text) (i : ℕ) : Prop := ∃ b, (encode text)[i]? = some b ∧ Continues b

/-- **Where the characters begin**: at every offset a character begins, or a byte continues one. -/
lemma boundary_or_inside : ∀ {text : Text} {i : ℕ}, i ≤ (encode text).length →
    Boundary text i ∨ Inside text i
  | [], i, h => .inl ⟨[], [], rfl, by simpa using h⟩
  | c :: text, i, h => by
    obtain ⟨b, rest, hc, -, hrest, -⟩ := utf8EncodeChar_head c
    have henc : encode (c :: text) = b :: rest ++ encode text := by rw [encode_cons, hc]
    rcases lt_or_ge i (b :: rest).length with hlt | hge
    · rcases i with _ | i
      · exact .inl (Boundary.zero _)
      have hi : i < rest.length := by simpa using hlt
      refine .inr ⟨rest[i], ?_, hrest _ (getElem_mem hi)⟩
      rw [henc, cons_append, getElem?_cons_succ, getElem?_append_left hi, getElem?_eq_getElem hi]
    · have hlen : (encode (c :: text)).length = (b :: rest).length + (encode text).length := by
        rw [henc, length_append]
      have hle : i - (b :: rest).length ≤ (encode text).length := by omega
      rcases boundary_or_inside hle with ⟨before, after, rfl, hi⟩ | ⟨b', hb', hcont⟩
      · refine .inl ⟨c :: before, after, rfl, ?_⟩
        rw [encode_cons, hc, length_append, ← hi]
        omega
      refine .inr ⟨b', ?_, hcont⟩
      rw [henc, getElem?_append_right hge]
      exact hb'

lemma Boundary.not_inside {text : Text} (h : Boundary text i) : ¬ Inside text i := by
  obtain ⟨before, after, rfl, rfl⟩ := h
  rintro ⟨b, hb, hcont⟩
  rw [encode_append, getElem?_append_right le_rfl, Nat.sub_self] at hb
  cases after with
  | nil => simp at hb
  | cons c after =>
    obtain ⟨b', rest, hc, hno, -⟩ := utf8EncodeChar_head c
    rw [encode_cons, hc] at hb
    obtain rfl : b' = b := by simpa using hb
    exact hno hcont

lemma inside_of_between {before after : Text} {c : Char}
    (hlow : (encode before).length < i) (hhigh : i < (encode (before ++ [c])).length) :
    Inside (before ++ c :: after) i := by
  obtain ⟨b, rest, hc, -, hrest, -⟩ := utf8EncodeChar_head c
  have hlen : (encode (before ++ [c])).length = (encode before).length + (rest.length + 1) := by
    rw [encode_append, length_append, encode_cons, hc]
    simp
  obtain ⟨n, rfl⟩ : ∃ n, i = (encode before).length + (n + 1) :=
    ⟨i - (encode before).length - 1, by omega⟩
  have hn : n < rest.length := by omega
  refine ⟨rest[n], ?_, hrest _ (getElem_mem hn)⟩
  rw [encode_append, getElem?_append_right (by omega), Nat.add_sub_cancel_left, encode_cons,
    hc,
    cons_append, getElem?_cons_succ, getElem?_append_left hn,
    getElem?_eq_getElem hn]

lemma continuesAt_iff {text : Text} (h : EmptyOrFits text) (hi : i < (encode text).length) :
    continuesAt (padded (encode text)).bytes i = true ↔ Inside text i := by
  rw [continuesAt, getD_padded h.size hi, decide_eq_true_eq, and_c0]
  constructor
  · exact fun hcont => ⟨_, getElem?_eq_getElem hi, hcont⟩
  rintro ⟨b, hb, hcont⟩
  rw [getElem?_eq_getElem hi] at hb
  obtain rfl := Option.some.inj hb
  exact hcont

/-! ### The loops -/

section Loops

variable {text : Text} (h : EmptyOrFits text)

include h

lemma floorOffset_boundary : ∀ {cursor : ℕ}, cursor ≤ (encode text).length →
    Boundary text (floorOffset (padded (encode text)).bytes (encode text).length cursor)
  | 0, _ => Boundary.zero text
  | cursor + 1, hle => by
    rw [floorOffset]
    split
    · exact floorOffset_boundary (by omega)
    next hstop =>
      rcases boundary_or_inside hle with hb | hin
      · exact hb
      rcases lt_or_eq_of_le hle with hlt | heq
      · exact absurd ⟨hlt, (continuesAt_iff h hlt).mpr hin⟩ hstop
      · rw [heq]
        exact Boundary.length text

lemma floorOffset_eq {cursor : ℕ} (hb : Boundary text cursor) :
    floorOffset (padded (encode text)).bytes (encode text).length cursor = cursor := by
  cases cursor with
  | zero => rfl
  | succ cursor =>
    rw [floorOffset, if_neg]
    rintro ⟨hlt, hcont⟩
    exact hb.not_inside ((continuesAt_iff h hlt).mp hcont)

/-- **The loop back** goes to the first byte of the character. -/
lemma backOffset_eq {start : ℕ} (hb : Boundary text start) : ∀ {cursor : ℕ}, start ≤ cursor →
    cursor < (encode text).length → (∀ i, start < i → i ≤ cursor → Inside text i) →
    backOffset (padded (encode text)).bytes cursor = start
  | 0, hle, _, _ => by
    rw [backOffset]
    omega
  | cursor + 1, hle, hlt, hall => by
    rw [backOffset]
    rcases lt_or_eq_of_le hle with hbefore | heq
    · rw [if_pos ((continuesAt_iff h hlt).mpr (hall _ hbefore le_rfl))]
      exact backOffset_eq hb (by omega) (by omega) fun i hi hi' => hall i hi (by omega)
    rw [if_neg, heq]
    rw [continuesAt_iff h hlt, ← heq]
    exact hb.not_inside

/-- **The loop on** goes to the first byte behind the character. -/
lemma nextOffset_eq {stop : ℕ} (hb : Boundary text stop) (hstop : stop ≤ (encode text).length) :
    ∀ {fuel cursor : ℕ}, cursor ≤ stop → stop ≤ cursor + fuel →
    (∀ i, cursor ≤ i → i < stop → Inside text i) →
    nextOffset (padded (encode text)).bytes (encode text).length fuel cursor = stop
  | 0, cursor, hle, hfuel, _ => by
    rw [nextOffset]
    omega
  | fuel + 1, cursor, hle, hfuel, hall => by
    rw [nextOffset]
    rcases lt_or_eq_of_le hle with hbefore | rfl
    · have hlt : cursor < (encode text).length := by omega
      rw [if_pos ⟨hlt, (continuesAt_iff h hlt).mpr (hall _ le_rfl hbefore)⟩]
      exact nextOffset_eq hb hstop (by omega) (by omega) fun i hi hi' => hall i (by omega) hi'
    rw [if_neg]
    rintro ⟨hlt, hcont⟩
    exact hb.not_inside ((continuesAt_iff h hlt).mp hcont)

end Loops

/-! ### The editor on characters -/

/-- The characters before and behind the cursor. -/
structure Edit where
  before : Text
  after : Text
  deriving DecidableEq

inductive Call
  | append (memory : Bytes)
  | appendAscii (character : UInt8)
  | delete
  | move (direction : ℤ)

open Classical in
/-- The text that the memory of a call holds, if the lock page can have it. -/
noncomputable def decode (memory : Bytes) : Option Text :=
  if h : validText memory then some (Classical.choose (validText_iff.mp h)) else none

/-- A text is inserted if there is room for its bytes. -/
def Edit.append (e : Edit) : Option Text → Option Edit
  | none => none
  | some text =>
    if (encode (e.before ++ text ++ e.after)).length < lockTextBytes then
      some ⟨e.before ++ text, e.after⟩
    else none

def Edit.delete (e : Edit) : Option Edit :=
  if e.before = [] then none else some ⟨e.before.dropLast, e.after⟩

/-- The cursor passes one character. -/
def Edit.move (e : Edit) (direction : ℤ) : Option Edit :=
  if direction < 0 then
    match e.before.getLast? with
    | none => none
    | some c => some ⟨e.before.dropLast, c :: e.after⟩
  else if direction = 0 then none
  else
    match e.after with
    | [] => none
    | c :: after => some ⟨e.before ++ [c], after⟩

/-- One call, which may be refused. -/
noncomputable def Edit.call (e : Edit) : Call → Option Edit
  | .append memory => e.append (decode memory)
  | .appendAscii character =>
    if character < 32 ∨ character > 126 then none else e.append (decode [character, 0])
  | .delete => e.delete
  | .move direction => e.move direction

/-- What a call that is refused does not change. -/
noncomputable def Edit.run (e : Edit) (calls : List Call) : Edit :=
  calls.foldl (fun e c => (e.call c).getD e) e

def call (s : State) : Call → Bool × State
  | .append memory => lockTextAppend s memory
  | .appendAscii character => lockTextAppendAscii s character
  | .delete => lockTextDelete s
  | .move direction => lockTextMove s direction

def run (s : State) (calls : List Call) : State := calls.foldl (fun s c => (call s c).2) s

/-- The draft holds the characters, and the cursor is between them. -/
structure Represents (s : State) (e : Edit) : Prop where
  page : s.page = .lockText
  text : EmptyOrFits (e.before ++ e.after)
  draft : s.lockTextDraft = padded (encode (e.before ++ e.after))
  cursor : cursorOffset s = (encode e.before).length

section Represents

variable {s : State} {e : Edit} (h : Represents s e)

include h

lemma Represents.draftLength_eq : draftLength s = (encode (e.before ++ e.after)).length := by
  rw [draftLength, h.draft, cString_padded h.text]

lemma Represents.validText_iff : validText s.lockTextDraft.bytes ↔ e.before ++ e.after ≠ [] := by
  rw [h.draft, padded_bytes h.text.size]
  constructor
  · intro hv hnil
    rw [hnil] at hv
    exact absurd hv (by decide)
  intro hne
  rcases h.text with hnil | hfits
  · exact absurd hnil hne
  · exact validText_terminated hfits _

end Represents

lemma represents_of {s : State} {e : Edit} (hp : s.page = .lockText)
    (ht : EmptyOrFits (e.before ++ e.after))
    (hd : s.lockTextDraft = padded (encode (e.before ++ e.after)))
    (hc : s.lockTextCursor = (encode e.before).length) : Represents s e := by
  refine ⟨hp, ht, hd, ?_⟩
  have hlen : draftLength s = (encode (e.before ++ e.after)).length := by
    rw [draftLength, hd, cString_padded ht]
  have hle : s.lockTextCursor ≤ draftLength s := by
    rw [hlen, hc, encode_append, length_append]
    omega
  have hmin : (if s.lockTextCursor < draftLength s then s.lockTextCursor else draftLength s) =
      s.lockTextCursor := by
    split <;> omega
  rw [cursorOffset, hmin, hd, hlen, hc]
  exact floorOffset_eq ht ⟨e.before, e.after, rfl, rfl⟩

lemma Represents.unique {s s' : State} {e : Edit} (h : Represents s e) (h' : Represents s' e) :
    s'.lockTextDraft = s.lockTextDraft ∧ cursorOffset s' = cursorOffset s :=
  ⟨h'.draft.trans h.draft.symm, h'.cursor.trans h.cursor.symm⟩

/-! ### One call -/

/-- The code does what the editor on characters does; what is refused changes nothing. -/
def Follows (s : State) (c : Call) : Option Edit → Prop
  | some e => (call s c).1 = true ∧ Represents (call s c).2 e
  | none => call s c = (false, s)

lemma length_encode_snoc (before : Text) (c : Char) :
    (encode before).length < (encode (before ++ [c])).length := by
  obtain ⟨b, rest, hc, -⟩ := utf8EncodeChar_head c
  rw [encode_append, length_append, encode_cons, hc]
  simp

lemma length_encode_le (before after : Text) (c : Char) :
    (encode (before ++ [c])).length ≤ (encode (before ++ c :: after)).length := by
  rw [show before ++ c :: after = before ++ [c] ++ after by simp, encode_append (before ++ [c]),
    length_append]
  omega

lemma backOffset_snoc {before after : Text} {c : Char} (h : EmptyOrFits (before ++ c :: after)) :
    backOffset (padded (encode (before ++ c :: after))).bytes
      ((encode (before ++ [c])).length - 1) = (encode before).length := by
  have hlt := length_encode_snoc before c
  have hle := length_encode_le before after c
  exact backOffset_eq h ⟨before, c :: after, rfl, rfl⟩ (by omega) (by omega)
    fun i hi hi' => inside_of_between hi (by omega)

lemma nextOffset_cons {before after : Text} {c : Char} (h : EmptyOrFits (before ++ c :: after)) :
    nextOffset (padded (encode (before ++ c :: after))).bytes (encode (before ++ c :: after)).length
      (encode (before ++ c :: after)).length ((encode before).length + 1) =
      (encode (before ++ [c])).length := by
  have hlt := length_encode_snoc before c
  have hle := length_encode_le before after c
  exact nextOffset_eq h ⟨before ++ [c], after, by simp, rfl⟩ hle (by omega) (by omega)
    fun i hi hi' => inside_of_between (by omega) hi'

lemma move_follows {s : State} {e : Edit} (h : Represents s e) (direction : ℤ) :
    Follows s (.move direction) (e.move direction) := by
  obtain ⟨before, after⟩ := e
  have hvalid := h.validText_iff
  have hlength := h.draftLength_eq
  have hcursor := h.cursor
  simp only at hvalid hlength hcursor
  by_cases hempty : before ++ after = []
  · -- there is nothing to pass
    obtain ⟨rfl, rfl⟩ := List.append_eq_nil_iff.mp hempty
    have hmove : Edit.move ⟨[], []⟩ direction = none := by
      simp [Edit.move]
    rw [hmove, Follows, call, lockTextMove, if_pos (.inr (.inr fun hv => hvalid.mp hv hempty))]
  have hok : ¬(s.page ≠ .lockText ∨ ¬ validText s.lockTextDraft.bytes) := by
    rintro (hp | hv)
    · exact hp h.page
    · exact hv (hvalid.mpr hempty)
  by_cases hzero : direction = 0
  · subst hzero
    simp [Edit.move, Follows, call, lockTextMove]
  have hok : ¬(s.page ≠ .lockText ∨ direction = 0 ∨ ¬ validText s.lockTextDraft.bytes) := by
    rintro (hp | hd | hv)
    · exact hok (.inl hp)
    · exact hzero hd
    · exact hok (.inr hv)
  by_cases hneg : direction < 0
  · rcases eq_nil_or_concat before with rfl | ⟨before, c, rfl⟩
    · rw [Edit.move, if_pos hneg]
      simp only [getLast?_nil, Follows, call]
      rw [lockTextMove, if_neg hok]
      simp only [if_pos hneg]
      rw [if_pos (by simpa using hcursor)]
    · have hlt := length_encode_snoc before c
      have htext : before ++ [c] ++ after = before ++ c :: after := by simp
      have hmove : Edit.move ⟨before ++ [c], after⟩ direction = some ⟨before, c :: after⟩ := by
        simp [Edit.move, hneg]
      rw [concat_eq_append] at h hcursor ⊢
      rw [hmove, Follows, call, lockTextMove, if_neg hok]
      simp only [if_pos hneg]
      rw [if_neg (by rw [hcursor]; omega)]
      have hfits := h.text
      have hdraft := h.draft
      simp only [htext] at hfits hdraft
      refine ⟨rfl, represents_of h.page hfits hdraft ?_⟩
      show backOffset s.lockTextDraft.bytes (cursorOffset s - 1) = _
      rw [hdraft, hcursor]
      exact backOffset_snoc hfits
  · rcases after with _ | ⟨c, after⟩
    · rw [Edit.move, if_neg hneg, if_neg hzero]
      simp only [Follows, call]
      rw [lockTextMove, if_neg hok]
      simp only [if_neg hneg]
      rw [if_pos (by rw [hcursor, hlength, append_nil])]
    · have hlt := length_encode_snoc before c
      have hle := length_encode_le before after c
      have hmove : Edit.move ⟨before, c :: after⟩ direction = some ⟨before ++ [c], after⟩ := by
        simp [Edit.move, hneg, hzero]
      rw [hmove, Follows, call, lockTextMove, if_neg hok]
      simp only [if_neg hneg]
      rw [if_neg (by rw [hcursor, hlength]; omega)]
      have hfits := h.text
      have hdraft := h.draft
      simp only at hfits hdraft
      refine ⟨rfl, represents_of h.page (by simpa using hfits) (by simpa using hdraft) ?_⟩
      show nextOffset s.lockTextDraft.bytes (draftLength s) (draftLength s) (cursorOffset s + 1) = _
      rw [hdraft, hcursor, hlength]
      exact nextOffset_cons hfits

/-! ### Changing the draft -/

lemma padded_zero {bytes : Bytes} (h : bytes.length < lockTextBytes) :
    padded (bytes ++ [0]) = padded bytes := by
  obtain ⟨n, hn⟩ : ∃ n, lockTextBytes - bytes.length = n + 1 :=
    ⟨lockTextBytes - bytes.length - 1, by omega⟩
  have hbytes : (padded (bytes ++ [0])).bytes = (padded bytes).bytes := by
    rw [padded_bytes h]
    show (bytes ++ [0] ++ replicate lockTextBytes 0).take lockTextBytes = _
    rw [append_assoc, take_append, take_of_length_le (le_of_lt h), hn,
      singleton_append, take_succ_cons, take_replicate, min_eq_left (by omega),
      Nat.add_sub_cancel]
  unfold padded at hbytes ⊢
  congr

lemma draft_split {before after : Text} (h : EmptyOrFits (before ++ after)) :
    (padded (encode (before ++ after))).bytes.take (encode before).length = encode before ∧
      ((padded (encode (before ++ after))).bytes.drop (encode before).length).take
        ((encode (before ++ after)).length - (encode before).length + 1) = encode after ++ [0] := by
  rw [padded_bytes h.size, encode_append, append_assoc, length_append, Nat.add_sub_cancel_left]
  constructor
  · rw [take_append_of_le_length le_rfl, take_length]
  rw [drop_append_of_le_length le_rfl, drop_length, nil_append, take_append,
    take_of_length_le (by omega), Nat.add_sub_cancel_left]
  rfl

lemma delete_follows {s : State} {e : Edit} (h : Represents s e) :
    Follows s .delete e.delete := by
  obtain ⟨before, after⟩ := e
  have hvalid := h.validText_iff
  have hlength := h.draftLength_eq
  have hcursor := h.cursor
  simp only at hvalid hlength hcursor
  rcases eq_nil_or_concat before with rfl | ⟨before, c, rfl⟩
  · rw [Edit.delete, if_pos rfl, Follows, call, lockTextDelete]
    split
    · rfl
    · simp only
      rw [if_pos (by simpa using hcursor)]
  · rw [concat_eq_append] at h hcursor hvalid hlength ⊢
    have hlt := length_encode_snoc before c
    have htext : before ++ [c] ++ after = before ++ c :: after := by simp
    have hdelete : Edit.delete ⟨before ++ [c], after⟩ = some ⟨before, after⟩ := by
      simp [Edit.delete]
    have hok : ¬(s.page ≠ .lockText ∨ ¬ validText s.lockTextDraft.bytes) := by
      rintro (hp | hv)
      · exact hp h.page
      · exact hv (hvalid.mpr (by simp))
    have hfits := h.text
    have hdraft := h.draft
    simp only at hfits hdraft
    have hstart : backOffset s.lockTextDraft.bytes (cursorOffset s - 1) =
        (encode before).length := by
      rw [hdraft, hcursor, htext]
      exact backOffset_snoc (by rwa [htext] at hfits)
    have hsize : (encode (before ++ after)).length < lockTextBytes := by
      have hall := hfits.size
      rw [encode_append, length_append] at hall ⊢
      omega
    have hrest : EmptyOrFits (before ++ after) := by
      by_cases hnil : before ++ after = []
      · exact .inl hnil
      · refine .inr ⟨hnil, fun d hd => hfits.printable d ?_, hsize⟩
        rcases List.mem_append.mp hd with hd | hd <;> simp [hd]
    have hbytes : s.lockTextDraft.bytes.take (encode before).length ++
        (s.lockTextDraft.bytes.drop (cursorOffset s)).take (draftLength s - cursorOffset s + 1) =
        encode (before ++ after) ++ [0] := by
      rw [hcursor, hlength, hdraft, (draft_split hfits).2]
      have htake := (draft_split
        (show EmptyOrFits (before ++ ([c] ++ after)) by simpa using hfits)).1
      rw [← append_assoc] at htake
      rw [htake, encode_append before after, append_assoc]
    rw [hdelete, Follows, call, lockTextDelete, if_neg hok]
    simp only
    rw [if_neg (by rw [hcursor]; omega)]
    refine ⟨rfl, represents_of h.page hrest ?_ ?_⟩
    · show padded (s.lockTextDraft.bytes.take (backOffset s.lockTextDraft.bytes
        (cursorOffset s - 1)) ++ _) = _
      rw [hstart, hbytes, padded_zero hsize]
    · exact hstart

lemma decode_some {memory : Bytes} {text : Text} (h : decode memory = some text) :
    validText memory ∧ Fits text ∧ cString memory = encode text := by
  unfold decode at h
  split at h
  next hv =>
    obtain ⟨hfits, htext⟩ := Classical.choose_spec (validText_iff.mp hv)
    rw [Option.some.inj h] at hfits htext
    refine ⟨hv, hfits, ?_⟩
    -- the terminator, or the end, is among the bytes that were looked at
    have hlen := hfits.size
    rw [← htext] at hlen ⊢
    by_cases hshort : memory.length ≤ lockTextBytes
    · rw [take_of_length_le hshort]
    have hmemory : cString memory = cString (memory.take lockTextBytes ++
        memory.drop lockTextBytes) := by rw [take_append_drop]
    rw [hmemory, cString, cString, takeWhile_append, if_neg]
    intro hall
    rw [cString, hall, length_take_of_le (by omega)] at hlen
    omega
  next => exact absurd h (by simp)

lemma decode_none {memory : Bytes} (h : decode memory = none) : ¬ validText memory := by
  unfold decode at h
  split at h
  · exact absurd h (by simp)
  next hv => exact hv

lemma append_follows {s : State} {e : Edit} (h : Represents s e) (memory : Bytes) :
    Follows s (.append memory) (e.append (decode memory)) := by
  obtain ⟨before, after⟩ := e
  have hvalid := h.validText_iff
  have hlength := h.draftLength_eq
  have hcursor := h.cursor
  have hfits := h.text
  have hdraft := h.draft
  simp only at hvalid hlength hcursor hfits hdraft
  rcases hdecode : decode memory with _ | text
  · rw [Edit.append, Follows, call, lockTextAppend, if_pos (.inr (decode_none hdecode))]
  obtain ⟨hv, htext, hmemory⟩ := decode_some hdecode
  have hpage : ¬(s.page ≠ .lockText ∨ ¬ validText memory) := by
    rintro (hp | hno)
    · exact hp h.page
    · exact hno hv
  have hold : ¬(lockTextBytes ≤ draftLength s ∨
      (draftLength s ≠ 0 ∧ ¬ validText s.lockTextDraft.bytes)) := by
    rintro (hle | ⟨hne, hno⟩)
    · have := hfits.size
      omega
    refine hno (hvalid.mpr fun hnil => hne ?_)
    rw [hlength, hnil]
    rfl
  have hroom : (encode (before ++ text ++ after)).length =
      (encode (before ++ after)).length + (encode text).length := by
    simp only [encode_append, length_append]
    omega
  rw [Follows.eq_def, Edit.append, call, lockTextAppend, if_neg hpage]
  simp only [if_neg hold, hmemory]
  by_cases hsize : (encode (before ++ text ++ after)).length < lockTextBytes
  · have hnew : EmptyOrFits (before ++ text ++ after) := by
      refine .inr ⟨by simp [htext.ne_nil], fun d hd => ?_, hsize⟩
      simp only [append_assoc, mem_append] at hd
      rcases hd with hd | hd | hd
      · exact hfits.printable d (by simp [hd])
      · exact htext.printable d hd
      · exact hfits.printable d (by simp [hd])
    rw [if_pos hsize, if_neg (by omega)]
    refine ⟨rfl, represents_of h.page hnew ?_ ?_⟩
    · show padded (s.lockTextDraft.bytes.take (cursorOffset s) ++ encode text ++
        (s.lockTextDraft.bytes.drop (cursorOffset s)).take (draftLength s - cursorOffset s + 1)) = _
      rw [hcursor, hlength, hdraft, (draft_split hfits).1, (draft_split hfits).2, ← append_assoc,
        ← encode_append, ← encode_append, padded_zero hsize]
    · show cursorOffset s + (encode text).length = (encode (before ++ text)).length
      rw [hcursor, encode_append, length_append]
  · rw [if_neg hsize, if_pos (by omega)]

/-- **One call.** -/
theorem call_follows {s : State} {e : Edit} (h : Represents s e) (c : Call) :
    Follows s c (e.call c) := by
  cases c with
  | append memory => exact append_follows h memory
  | appendAscii character =>
    simp only [Edit.call]
    split
    next hc =>
      rw [Follows, call, lockTextAppendAscii, if_pos hc]
    next hc =>
      have happend := append_follows h [character, 0]
      have hcall : call s (.appendAscii character) = call s (.append [character, 0]) := by
        rw [call, call, lockTextAppendAscii, if_neg hc]
      unfold Follows at happend ⊢
      rw [hcall]
      exact happend
  | delete => exact delete_follows h
  | move direction => exact move_follows h direction

/-! ### Any calls -/

lemma represents_call {s : State} {e : Edit} (h : Represents s e) (c : Call) :
    Represents (call s c).2 ((e.call c).getD e) := by
  have hfollows := call_follows h c
  rcases hc : e.call c with _ | e'
  · rw [hc, Follows] at hfollows
    rw [hfollows]
    exact h
  · rw [hc] at hfollows
    exact hfollows.2

/-- **Any calls**: the code stays with the editor on characters. -/
lemma represents_run {s : State} {e : Edit} (h : Represents s e) (calls : List Call) :
    Represents (run s calls) (e.run calls) := by
  induction calls generalizing s e with
  | nil => exact h
  | cons c calls ih => exact ih (represents_call h c)

lemma run_deletes (text before after : Text) :
    Edit.run ⟨before ++ text, after⟩ (List.replicate text.length .delete) = ⟨before, after⟩ := by
  induction text using reverseRecOn with
  | nil => simp [Edit.run]
  | append_singleton text c ih =>
    have hdelete : Edit.delete ⟨before ++ (text ++ [c]), after⟩ = some ⟨before ++ text, after⟩ := by
      rw [Edit.delete, if_neg (by simp)]
      simp [← append_assoc]
    rw [length_append, length_singleton, replicate_succ]
    show Edit.run ((Edit.delete ⟨before ++ (text ++ [c]), after⟩).getD _) _ = _
    rw [hdelete]
    exact ih

/-- The draft is empty or valid, and there are zeros behind it. -/
structure DraftOk (draft : TextArray) : Prop where
  valid : cString draft.bytes = [] ∨ validText draft.bytes
  padding : ∀ i, (cString draft.bytes).length ≤ i → draft.bytes.getD i 0 = 0

lemma exists_draft {draft : TextArray} (h : DraftOk draft) :
    ∃ text, EmptyOrFits text ∧ draft = padded (encode text) := by
  have htext : ∃ text, EmptyOrFits text ∧ cString draft.bytes = encode text := by
    rcases h.valid with hnil | hv
    · exact ⟨[], .inl rfl, hnil⟩
    obtain ⟨text, rest, hfits, hbytes⟩ :=
      exists_terminated (le_of_eq draft.length_eq.symm) hv
    exact ⟨text, .inr hfits, by rw [hbytes, cString_encode hfits.printable]⟩
  obtain ⟨text, hok, htext⟩ := htext
  refine ⟨text, hok, ?_⟩
  have hget : ∀ i, draft.bytes.getD i 0 = (padded (encode text)).bytes.getD i 0 := by
    intro i
    rcases lt_or_ge i (encode text).length with hlt | hge
    · have hsplit := takeWhile_append_dropWhile (p := (· ≠ 0)) (l := draft.bytes)
      rw [show draft.bytes.takeWhile (· ≠ 0) = encode text from htext] at hsplit
      rw [getD_padded hok.size hlt, ← hsplit, getD_append _ _ _ _ hlt, getD_eq_getElem _ _ hlt]
    · rw [h.padding i (by rwa [htext]), getD_padded_zero hok.size hge]
  have hbytes : draft.bytes = (padded (encode text)).bytes := by
    refine ext_getElem (by rw [draft.length_eq, (padded _).length_eq]) fun i hi hi' => ?_
    have hi'' := hget i
    rwa [getD_eq_getElem _ _ hi, getD_eq_getElem _ _ hi'] at hi''
  rcases draft with ⟨bytes, hlen⟩
  simp only at hbytes
  subst hbytes
  rfl

lemma exists_represents {s : State} (hp : s.page = .lockText) (h : DraftOk s.lockTextDraft) :
    ∃ e, Represents s e := by
  obtain ⟨text, hok, hdraft⟩ := exists_draft h
  have hlen : draftLength s = (encode text).length := by
    rw [draftLength, hdraft, cString_padded hok]
  have hmin : (if s.lockTextCursor < draftLength s then s.lockTextCursor else draftLength s) ≤
      (encode text).length := by
    split <;> omega
  obtain ⟨before, after, rfl, hoffset⟩ := floorOffset_boundary hok hmin
  refine ⟨⟨before, after⟩, hp, hok, hdraft, ?_⟩
  rw [cursorOffset, hdraft, hlen]
  rw [hlen] at hoffset
  exact hoffset

lemma Represents.draftOk {s : State} {e : Edit} (h : Represents s e) : DraftOk s.lockTextDraft := by
  have hstring := cString_padded h.text
  refine ⟨?_, fun i hi => ?_⟩
  · by_cases hnil : e.before ++ e.after = []
    · rw [h.draft, hstring, hnil]
      exact .inl rfl
    · exact .inr (h.validText_iff.mpr hnil)
  · rw [h.draft, hstring] at hi
    rw [h.draft, getD_padded_zero h.text.size hi]

/-- **The editor of the lock text.** From an empty or valid draft, with the cursor anywhere, any
calls do to the bytes what they do to the characters of an editor. The draft stays empty or valid,
with zeros behind it, and the cursor between two characters. What is refused changes nothing, and
after an insertion as many deletions as it had characters restore the draft and the cursor. -/
theorem lock_text_editor (s : State) (hp : s.page = .lockText) (h : DraftOk s.lockTextDraft) :
    ∃ e : Edit, Represents s e ∧ ∀ calls,
      Represents (run s calls) (e.run calls) ∧ DraftOk (run s calls).lockTextDraft ∧
      (∀ c, Follows (run s calls) c ((e.run calls).call c)) ∧
      ∀ memory text, decode memory = some text → (call (run s calls) (.append memory)).1 = true →
        let restored := run (call (run s calls) (.append memory)).2
          (replicate text.length .delete)
        restored.lockTextDraft = (run s calls).lockTextDraft ∧
          cursorOffset restored = cursorOffset (run s calls) := by
  obtain ⟨e, he⟩ := exists_represents hp h
  refine ⟨e, he, fun calls => ?_⟩
  have hrun := represents_run he calls
  refine ⟨hrun, hrun.draftOk, call_follows hrun, fun memory text hdecode haccepted => ?_⟩
  have hfollows := append_follows hrun memory
  rw [hdecode] at hfollows
  rcases happend : (e.run calls).append (some text) with _ | e'
  · rw [happend, Follows] at hfollows
    rw [hfollows] at haccepted
    exact absurd haccepted (by simp)
  · rw [happend] at hfollows
    have he' : e' = ⟨(e.run calls).before ++ text, (e.run calls).after⟩ := by
      rw [Edit.append] at happend
      split at happend
      · exact (Option.some.inj happend).symm
      · exact absurd happend (by simp)
    have hdeleted := represents_run hfollows.2 (replicate text.length .delete)
    rw [he', run_deletes] at hdeleted
    exact hrun.unique hdeleted

theorem lock_text_editor_empty : ∃ e : Edit,
    Represents { initialState with page := .lockText } e ∧ ∀ calls,
      DraftOk (run { initialState with page := .lockText } calls).lockTextDraft := by
  have hok : DraftOk TextArray.zero := by
    refine ⟨.inl rfl, fun i _ => ?_⟩
    simp only [TextArray.zero, getD_eq_getElem?_getD, getElem?_replicate]
    split <;> rfl
  obtain ⟨e, he, hall⟩ := lock_text_editor { initialState with page := .lockText } rfl hok
  exact ⟨e, he, fun calls => (hall calls).2.1⟩

end C1auncher.Ui.LockTextEditor
