import C1auncher.Security.Sha256Context

/-!
The digest of a file. The file is asked for its size before the first read and after the last one,
and a read may return any part of what it is asked for.
-/

namespace C1auncher.Security.Sha256File

open BlockHash Sha256 Security.Sha256Context List Option

/-! ### What the system answers -/

/-- `struct stat`, as far as it is looked at. -/
structure Stat where
  dev : UInt64
  ino : UInt64
  regular : Bool
  nlink : ℕ
  size : Int64
  mtime : ℤ
  mtimeNsec : ℤ
  ctime : ℤ
  ctimeNsec : ℤ
  deriving DecidableEq

/-- What one `read` returns. -/
inductive Read where
  | bytes (data : List Byte)
  | interrupted
  | failed
  deriving DecidableEq

structure Environment where
  /-- The text of `errno` where `open` fails. -/
  opened : Option String
  before : Option Stat
  reads : List Read
  after : Option Stat
  closed : Bool
  deriving DecidableEq

/-! ### The function -/

/-- `C1_SHA256_ANY_SIZE` -/
def anySize : UInt64 := 0xffffffffffffffff

/-- The check of what `fstat` tells before the first read. -/
def accepted (maximumSize exactSize : UInt64) (before : Stat) : Bool :=
  before.regular && before.nlink = 1 && 0 ≤ before.size && before.size.toUInt64 ≤ maximumSize &&
    (exactSize = anySize || before.size.toUInt64 = exactSize)

/-- The check after the last read. -/
def unchanged (total : UInt64) (before after : Stat) : Bool :=
  total = before.size.toUInt64 && before.dev = after.dev && before.ino = after.ino &&
    before.size = after.size && before.mtime = after.mtime &&
    before.mtimeNsec = after.mtimeNsec && before.ctime = after.ctime &&
    before.ctimeNsec = after.ctimeNsec && after.regular && after.nlink = 1

/-- The loop over the reads. Where the list ends the call waits. -/
def readAll (maximumSize : UInt64) (context : Context) (total : UInt64) :
    List Read → Option (Except String (Context × UInt64))
  | [] => none
  | .interrupted :: reads => readAll maximumSize context total reads
  | .failed :: _ => some (.error "SHA-256 file read failed")
  | .bytes data :: reads =>
    let amount := UInt64.ofNat data.length
    if maximumSize - amount < total then some (.error "SHA-256 file read failed")
    else if data = [] then some (.ok (context, total))
    else do
      let context ← c1Sha256Update context data
      readAll maximumSize context (total + amount) reads

/-- The end of `c1_sha256_file`, behind the loop. -/
def finish (env : Environment) (before : Stat) (context : Context) (total : UInt64) :
    Option (Except String (List Byte × UInt64)) :=
  if env.after.any (unchanged total before) && env.closed then do
    let digest ← c1Sha256Final context
    some (.ok (digest, total))
  else some (.error "SHA-256 file changed during read")

/-- `c1_sha256_file`, with the digest and the size that it writes. -/
def c1Sha256File (maximumSize exactSize : UInt64) (env : Environment) :
    Option (Except String (List Byte × UInt64)) :=
  if maximumSize = anySize ∨ (exactSize ≠ anySize ∧ maximumSize < exactSize) then
    some (.error "invalid SHA-256 file request")
  else
    match env.opened, env.before with
    | some reason, _ => some (.error ("SHA-256 file open failed: " ++ reason))
    | none, none => some (.error "SHA-256 file metadata rejected")
    | none, some before =>
      if accepted maximumSize exactSize before then
        match readAll maximumSize c1Sha256Init 0 env.reads with
        | none => none
        | some (.error error) => some (.error error)
        | some (.ok (context, total)) => finish env before context total
      else some (.error "SHA-256 file metadata rejected")

/-! ### A file that does not change -/

inductive Splits : List Byte → List Read → Prop
  | stopped (reads : List Read) : Splits [] (.bytes [] :: reads)
  | interrupted {content : List Byte} {reads : List Read} (h : Splits content reads) :
      Splits content (.interrupted :: reads)
  | piece {data content : List Byte} {reads : List Read} (hne : data ≠ [])
      (hsize : data.length ≤ 16384) (h : Splits content reads) :
      Splits (data ++ content) (.bytes data :: reads)

structure RegularFile where
  content : List Byte
  stat : Stat
  regular : stat.regular = true
  size : stat.size.toInt = content.length

/-- The answers of the system while the file stays as it is. -/
structure Environment.Of (env : Environment) (file : RegularFile) : Prop where
  opened : env.opened = none
  before : env.before = some file.stat
  reads : Splits file.content env.reads
  after : env.after = some file.stat
  closed : env.closed = true

def RegularFile.Meets (file : RegularFile) (maximumSize exactSize : UInt64) : Prop :=
  maximumSize ≠ anySize ∧ file.stat.nlink = 1 ∧ file.content.length ≤ maximumSize.toNat ∧
    (exactSize = anySize ∨ exactSize.toNat = file.content.length)

lemma readAll_splits {content : List Byte} {reads : List Read} (h : Splits content reads)
    {maximumSize total : UInt64} {context : Context} {message : List Byte}
    (hgiven : Given context message) (htotal : total.toNat = message.length)
    (hroom : message.length + content.length ≤ maximumSize.toNat) :
    ∃ next, readAll maximumSize context total reads =
        some (.ok (next, UInt64.ofNat (message ++ content).length)) ∧
      Given next (message ++ content) := by
  induction h generalizing total context message with
  | stopped reads =>
    refine ⟨context, ?_, by rwa [append_nil]⟩
    have hle : ¬maximumSize - UInt64.ofNat ([] : List Byte).length < total := by
      rw [UInt64.not_lt, UInt64.le_iff_toNat_le, htotal]
      simpa using hroom
    rw [readAll, if_neg hle, if_pos rfl, append_nil, ← htotal, UInt64.ofNat_toNat]
  | interrupted h ih => exact ih hgiven htotal hroom
  | @piece data content reads hne hsize h ih =>
    have hmaximum := maximumSize.toNat_lt
    rw [length_append] at hroom
    have hamount : (UInt64.ofNat data.length).toNat = data.length :=
      UInt64.toNat_ofNat_of_lt' (lt_of_le_of_lt hsize (by decide))
    have hle : ¬maximumSize - UInt64.ofNat data.length < total := by
      rw [UInt64.not_lt, UInt64.le_iff_toNat_le, htotal, UInt64.toNat_sub_of_le _ _ (by
        rw [UInt64.le_iff_toNat_le, hamount]; omega), hamount]
      omega
    obtain ⟨middle, hmiddle, hmore⟩ := hgiven.update data
    have hsum : (total + UInt64.ofNat data.length).toNat = (message ++ data).length := by
      rw [UInt64.toNat_add, htotal, hamount, length_append]
      omega
    obtain ⟨next, hnext, hall⟩ := ih hmore hsum (by rw [length_append]; omega)
    refine ⟨next, ?_, by rwa [← append_assoc]⟩
    rw [readAll, if_neg hle, if_neg hne, hmiddle, ← append_assoc]
    exact hnext

namespace RegularFile

variable (file : RegularFile) (maximumSize exactSize : UInt64)

lemma size_nonneg : 0 ≤ file.stat.size := by
  rw [Int64.le_iff_toInt_le, file.size]
  exact Int.natCast_nonneg _

lemma size_toUInt64 : file.stat.size.toUInt64.toNat = file.content.length := by
  rw [Int64.toNat_toUInt64_of_le file.size_nonneg, ← Int64.toNat_toInt, file.size,
    Int.toNat_natCast]

lemma size_eq : file.stat.size.toUInt64 = UInt64.ofNat file.content.length := by
  rw [← file.size_toUInt64, UInt64.ofNat_toNat]

lemma accepted_iff : accepted maximumSize exactSize file.stat = true ↔
    file.stat.nlink = 1 ∧ file.content.length ≤ maximumSize.toNat ∧
      (exactSize = anySize ∨ exactSize.toNat = file.content.length) := by
  simp only [accepted, file.regular, file.size_nonneg, Bool.and_eq_true, Bool.or_eq_true,
    decide_eq_true_eq, Bool.true_and, and_true, UInt64.le_iff_toNat_le, file.size_toUInt64,
    ← UInt64.toNat_inj (a := file.stat.size.toUInt64), eq_comm (a := file.content.length),
    and_assoc]

variable {file maximumSize exactSize} {env : Environment}

lemma Meets.valid (h : file.Meets maximumSize exactSize) :
    ¬(maximumSize = anySize ∨ (exactSize ≠ anySize ∧ maximumSize < exactSize)) := by
  obtain ⟨hmaximum, -, hsize, hexact⟩ := h
  rintro (heq | ⟨hne, hlarge⟩)
  · exact hmaximum heq
  rw [UInt64.lt_iff_toNat_lt] at hlarge
  rcases hexact with hany | hexact
  · exact hne hany
  · omega

lemma Meets.digest (h : file.Meets maximumSize exactSize) (henv : env.Of file) :
    c1Sha256File maximumSize exactSize env =
      some (.ok (sha256 file.content, UInt64.ofNat file.content.length)) := by
  obtain ⟨next, hread, hgiven⟩ := readAll_splits henv.reads given_init
    (rfl : (0 : UInt64).toNat = _) (by simpa using h.2.2.1)
  rw [nil_append] at hread hgiven
  have hafter : unchanged (UInt64.ofNat file.content.length) file.stat file.stat = true := by
    simp [unchanged, file.size_eq, file.regular, h.2.1]
  have haccepted := (file.accepted_iff maximumSize exactSize).mpr h.2
  rw [c1Sha256File, if_neg h.valid, henv.opened, henv.before]
  simp only [haccepted, if_true, hread, finish, henv.after, henv.closed, any_some, hafter,
    Bool.and_self, hgiven.final, bind_eq_bind, bind_some]

lemma refused (h : ¬file.Meets maximumSize exactSize) (hbefore : ∀ s ∈ env.before, s = file.stat) :
    ∃ error, c1Sha256File maximumSize exactSize env = some (.error error) := by
  rw [c1Sha256File]
  split_ifs with hinvalid
  · exact ⟨_, rfl⟩
  have hrefused : ¬accepted maximumSize exactSize file.stat = true := by
    rw [file.accepted_iff]
    exact fun haccepted => h ⟨fun heq => hinvalid (.inl heq), haccepted⟩
  split
  · exact ⟨_, rfl⟩
  · exact ⟨_, rfl⟩
  rename_i before _ hsome
  rw [hbefore before hsome, if_neg hrefused]
  exact ⟨_, rfl⟩

end RegularFile

/-! ### The two together -/

/-- **The digest does not depend on the pieces**: however a message of fewer than 2⁶¹ bytes is cut,
`c1_sha256_final` writes its SHA-256, no byte outside the block is touched, and between the calls
fewer than 64 bytes wait in it. A regular file with one link that meets the request has its digest
returned for every split by short or interrupted reads; any other is refused, and so is a file that
is too long. -/
theorem sha256_streaming :
    (∀ pieces : List (List Byte), pieces.flatten.length < 2 ^ 61 →
      ∃ context, pieces.foldlM c1Sha256Update c1Sha256Init = some context ∧ context.used < 64 ∧
        context.length.toNat % 64 = context.used ∧
        c1Sha256Final context = some (sha256 pieces.flatten)) ∧
    (∀ (file : RegularFile) (env : Environment) (maximumSize exactSize : UInt64),
      env.Of file → file.content.length < 2 ^ 61 →
      (file.Meets maximumSize exactSize → c1Sha256File maximumSize exactSize env =
        some (.ok (sha256 file.content, UInt64.ofNat file.content.length))) ∧
      (¬file.Meets maximumSize exactSize →
        ∃ error, c1Sha256File maximumSize exactSize env = some (.error error))) ∧
    (∀ (file : RegularFile) (env : Environment) (maximumSize exactSize : UInt64),
      (∀ before ∈ env.before, before = file.stat) → maximumSize.toNat < file.content.length →
      ∃ error, c1Sha256File maximumSize exactSize env = some (.error error)) := by
  refine ⟨fun pieces _ => ?_, fun file env maximumSize exactSize henv _ => ⟨?_, ?_⟩,
    fun file env maximumSize exactSize hbefore hlong => ?_⟩
  · obtain ⟨context, hcontext, hgiven⟩ := given_init.updates pieces
    exact ⟨context, hcontext, hgiven.room, hgiven.length_mod, hgiven.final⟩
  · exact fun hmeets => hmeets.digest henv
  · refine fun hnot => RegularFile.refused hnot fun before hmem => ?_
    rw [henv.before] at hmem
    exact (Option.mem_some.mp hmem).symm
  · exact RegularFile.refused (fun hmeets => absurd hmeets.2.2.1 (by omega)) hbefore

/-- The three bytes `abc`, in a file of this many links. -/
def abc (links : ℕ) : RegularFile where
  content := [0x61, 0x62, 0x63]
  stat := ⟨1, 7, true, links, 3, 100, 0, 100, 0⟩
  regular := rfl
  size := rfl

def abcReads (links : ℕ) : Environment where
  opened := none
  before := some (abc links).stat
  reads := [.bytes [0x61], .interrupted, .bytes [0x62, 0x63], .bytes []]
  after := some (abc links).stat
  closed := true

lemma abcReads_of (links : ℕ) : (abcReads links).Of (abc links) where
  opened := rfl
  before := rfl
  reads := Splits.piece (cons_ne_nil 0x61 []) (by decide) (.interrupted
    (.piece (cons_ne_nil 0x62 [0x63]) (by decide) (.stopped [])))
  after := rfl
  closed := rfl

theorem sha256_streaming_abc :
    (∃ context, [[0x61], [], [0x62, 0x63]].foldlM c1Sha256Update c1Sha256Init = some context ∧
      context.used < 64 ∧ context.length.toNat % 64 = context.used ∧
      c1Sha256Final context = some (sha256 [0x61, 0x62, 0x63])) ∧
    c1Sha256File 3 3 (abcReads 1) = some (.ok (sha256 [0x61, 0x62, 0x63], 3)) ∧
    ∃ error, c1Sha256File 2 anySize (abcReads 1) = some (.error error) :=
  ⟨sha256_streaming.1 [[0x61], [], [0x62, 0x63]] (by decide),
    (sha256_streaming.2.1 (abc 1) (abcReads 1) 3 3 (abcReads_of 1) (by decide)).1
      ⟨by decide, rfl, by decide, .inr (by decide)⟩,
    sha256_streaming.2.2 (abc 1) (abcReads 1) 2 anySize (fun before h => (some.inj h).symm)
      (by decide)⟩

/-- A file with two links is as short and as regular, and is refused. -/
theorem sha256_streaming_linked : (abcReads 2).Of (abc 2) ∧ (abc 2).content.length ≤ 3 ∧
    c1Sha256File 3 3 (abcReads 2) = some (.error "SHA-256 file metadata rejected") :=
  ⟨abcReads_of 2, by decide, by decide⟩

end C1auncher.Security.Sha256File
