import C1auncher.Package.Version

/-!
The listings of an archive, which are checked before anything is extracted: the names stay inside
the payload, and the sizes inside the limits.
-/

namespace C1auncher.Package.ArchiveNames

open CString Package.Version List

/-- `C1PKG_FILE_MAX` -/
def fileMax : UInt64 := 16 * 1024 * 1024

/-- `C1PKG_UNPACKED_MAX` -/
def unpackedMax : UInt64 := 64 * 1024 * 1024

/-- The lines of a listing; the last one may lack its newline. -/
def listing (data : Text) : List Text :=
  let lines := data.splitOn '\n'
  if lines.getLast? = some [] then lines.dropLast else lines

/-! ### Names -/

def payload : Text := "payload".toList

def modeName : Text := ".c1pkg-mode".toList

def entryName : Text := ".c1pkg-entry".toList

def manifestName : Text := "manifest.v1".toList

/-- Leading `./` are skipped. -/
def skipDots : Text → Text
  | '.' :: '/' :: name => skipDots name
  | name => name

def dropSlash (name : Text) : Text := if name.getLast? = some '/' then name.dropLast else name

def normalized (line : Text) : Text := dropSlash (skipDots line)

/-- What the checks of the loop say of a name. -/
def acceptName (name : Text) : Bool :=
  safeRelpath name && name != payload ++ '/' :: modeName &&
    !(payload ++ '/' :: modeName ++ ['/']).isPrefixOf name &&
    name != payload ++ '/' :: entryName &&
    !(payload ++ '/' :: entryName ++ ['/']).isPrefixOf name &&
    (name == manifestName || name == payload || (payload ++ ['/']).isPrefixOf name)

/-- `none` is a file that cannot be read. -/
def validateTarNames (file : Option Text) : Bool :=
  match file with
  | none => false
  | some data => data != [] && (listing data).all fun line =>
      line.all (fun c => c != '\x00' && c != '\r') && acceptName (normalized line)

/-! ### Types and sizes -/

def parseTarSize (text : Text) : Option UInt64 := if text = [] then none else parseDigits 0 text

/-- The digits of the third column and what follows them. -/
def sizeColumn (line : Text) : Text × Text :=
  let rest := (line.dropWhile (· != ' ')).dropWhile (· == ' ')
  let rest := (rest.dropWhile (· != ' ')).dropWhile (· == ' ')
  (rest.takeWhile Char.isDigit, rest.dropWhile Char.isDigit)

/-- The size of a plain file or a directory; a line ends at a NUL. -/
def declaredSize (line : Text) : Option UInt64 :=
  let text := line.takeWhile (· != '\x00')
  if text.head? ≠ some '-' ∧ text.head? ≠ some 'd' then none
  else if (sizeColumn text).2 ≠ [] ∧ (sizeColumn text).2.head? ≠ some ' ' then none
  else parseTarSize (sizeColumn text).1

/-- The loop over the lines, from a total on. -/
def checkSizes : UInt64 → List Text → Bool
  | _, [] => true
  | total, line :: lines =>
    match declaredSize line with
    | none => false
    | some size =>
      if size > fileMax || total > unpackedMax - size then false
      else checkSizes (total + size) lines

def validateVerboseTypes (file : Option Text) : Bool :=
  match file with
  | none => false
  | some data => data != [] && checkSizes 0 (listing data)

/-! ### Where a path leads -/

def enter (directory : List Text) (component : Text) : List Text :=
  if component = [] ∨ component = ['.'] then directory
  else if component = ['.', '.'] then directory.dropLast
  else directory ++ [component]

def walk (directory : List Text) (components : List Text) : List Text :=
  components.foldl enter directory

/-- A component that leads one level down. -/
def Plain (component : Text) : Prop := component ≠ [] ∧ component ≠ ['.'] ∧ component ≠ ['.', '.']

lemma walk_plain (directory : List Text) {components : List Text}
    (h : ∀ c ∈ components, Plain c) : walk directory components = directory ++ components := by
  induction components generalizing directory with
  | nil => exact (append_nil directory).symm
  | cons c components ih =>
    obtain ⟨hnil, hdot, hdots⟩ := h c mem_cons_self
    have henter : enter directory c = directory ++ [c] := by
      rw [enter, if_neg (by tauto), if_neg hdots]
    calc walk directory (c :: components) = walk (directory ++ [c]) components := by
          rw [walk, foldl_cons, henter]
          rfl
      _ = (directory ++ [c]) ++ components := ih _ fun x hx => h x (mem_cons_of_mem _ hx)
      _ = directory ++ c :: components := append_assoc _ _ _

lemma walk_below (directory : List Text) {components : List Text}
    (h : ∀ c ∈ components, c = [] ∨ c = ['.'] ∨ Plain c) :
    directory <+: walk directory components := by
  induction components generalizing directory with
  | nil => exact prefix_refl _
  | cons c components ih =>
    have henter : directory <+: enter directory c := by
      unfold enter
      rcases h c mem_cons_self with hc | hc | hc
      · rw [if_pos (.inl hc)]
      · rw [if_pos (.inr hc)]
      · rw [if_neg (by have := hc.1; have := hc.2.1; tauto), if_neg hc.2.2]
        exact prefix_append _ _
    exact henter.trans (ih _ fun x hx => h x (mem_cons_of_mem _ hx))

/-! ### Accepted names -/

lemma splitOn_skipDots (line : Text) : ∃ n, line.splitOn '/' =
    List.replicate n ['.'] ++ (skipDots line).splitOn '/' := by
  induction line using skipDots.induct with
  | case1 name ih =>
    obtain ⟨n, hn⟩ := ih
    refine ⟨n + 1, ?_⟩
    calc (['.'] ++ '/' :: name).splitOn '/' = [['.']] ++ name.splitOn '/' := by
          rw [splitOn_append_cons_self]
          rfl
      _ = replicate (n + 1) ['.'] ++ (skipDots name).splitOn '/' := by
          rw [hn]
          rfl
  | case2 name hno => exact ⟨0, by rw [skipDots]; exacts [rfl, hno]⟩

lemma splitOn_dropSlash (name : Text) : ∃ n, name.splitOn '/' =
    (dropSlash name).splitOn '/' ++ List.replicate n [] := by
  unfold dropSlash
  split_ifs with hlast
  · refine ⟨1, ?_⟩
    calc name.splitOn '/' = (name.dropLast ++ '/' :: []).splitOn '/' := by
          rw [dropLast_append_getLast? '/' hlast]
      _ = name.dropLast.splitOn '/' ++ replicate 1 [] := splitOn_append_cons_self _ _
  · exact ⟨0, (append_nil _).symm⟩

lemma plain_of_safeRelpath {name : Text} (h : safeRelpath name = true) :
    ∀ c ∈ name.splitOn '/', Plain c := by
  intro c hc
  unfold safeRelpath at h
  simp only [Bool.and_eq_true, all_eq_true, bne_iff_ne] at h
  obtain ⟨⟨-, hall⟩, -⟩ := h
  exact ⟨(hall c hc).1.1, (hall c hc).1.2, (hall c hc).2⟩

lemma first_component {text first : Text} {rest : List Text}
    (h : text.splitOn '/' = first :: rest) :
    text = first ∨ (first ++ ['/']).isPrefixOf text = true := by
  have hjoin : intercalate ['/'] (first :: rest) = text := by
    rw [← h]
    exact intercalate_splitOn '/'
  rw [← hjoin]
  rcases rest with _ | ⟨second, rest⟩
  · exact .inl (by simp [intercalate])
  · refine .inr (List.isPrefixOf_iff_prefix.mpr ⟨intercalate ['/'] (second :: rest), ?_⟩)
    simp [intercalate]

lemma not_reserved {name reserved : Text}
    (hname : name = manifestName ∨ name = payload ∨ (payload ++ ['/']).isPrefixOf name = true)
    (hne : name ≠ payload ++ '/' :: reserved)
    (hbelow : (payload ++ '/' :: reserved ++ ['/']).isPrefixOf name = false) :
    ¬[payload, reserved] <+: name.splitOn '/' := by
  intro hprefix
  rcases hname with rfl | rfl | hpayload
  · have hlength : 2 ≤ (manifestName.splitOn '/').length := hprefix.length_le
    exact absurd hlength (by decide)
  · have hlength : 2 ≤ (payload.splitOn '/').length := hprefix.length_le
    exact absurd hlength (by decide)
  obtain ⟨rest, rfl⟩ := List.isPrefixOf_iff_prefix.mp hpayload
  have hsplit : (payload ++ ['/'] ++ rest).splitOn '/' = [payload] ++ rest.splitOn '/' := by
    rw [append_assoc]
    exact splitOn_append_cons_self _ _
  rw [hsplit] at hprefix
  obtain ⟨more, hmore⟩ := hprefix
  have hrest : rest.splitOn '/' = reserved :: more := (cons.inj hmore).2.symm
  rcases first_component hrest with rfl | hprefix
  · exact hne (append_assoc _ _ _)
  obtain ⟨last, rfl⟩ := List.isPrefixOf_iff_prefix.mp hprefix
  rw [Bool.eq_false_iff] at hbelow
  exact hbelow (List.isPrefixOf_iff_prefix.mpr ⟨last, by simp⟩)

/-- **Accepted names stay inside.** A listed name leads to the manifest, to the payload or to a
path under it, whose components are all plain; nothing on the way leads out of the directory, and
none of the names the installer keeps to itself is reached. -/
theorem archive_names_confined {data : Text} (h : validateTarNames (some data) = true) :
    ∀ line ∈ listing data,
      (normalized line = manifestName ∨ normalized line = payload ∨
        ∃ rest, normalized line = payload ++ '/' :: rest) ∧
      (∀ c ∈ (normalized line).splitOn '/', Plain c) ∧
      (∀ directory, walk directory (line.splitOn '/') = directory ++ (normalized line).splitOn '/' ∧
        ∀ n, directory <+: walk directory ((line.splitOn '/').take n)) ∧
      ¬[payload, modeName] <+: (normalized line).splitOn '/' ∧
      ¬[payload, entryName] <+: (normalized line).splitOn '/' := by
  intro line hline
  unfold validateTarNames at h
  have haccept := List.all_eq_true.mp (Bool.and_eq_true_iff.mp h).2 line hline
  have haccept := (Bool.and_eq_true_iff.mp haccept).2
  unfold acceptName at haccept
  simp only [Bool.and_eq_true, Bool.or_eq_true, bne_iff_ne, ne_eq, Bool.not_eq_true',
    beq_iff_eq, or_assoc] at haccept
  obtain ⟨⟨⟨⟨⟨hsafe, hmode⟩, hmodeBelow⟩, hentry⟩, hentryBelow⟩, hname⟩ := haccept
  have hplain := plain_of_safeRelpath hsafe
  obtain ⟨dots, hdots⟩ := splitOn_skipDots line
  obtain ⟨ends, hends⟩ := splitOn_dropSlash (skipDots line)
  have hcomponents : line.splitOn '/' = replicate dots ['.'] ++
      ((normalized line).splitOn '/' ++ replicate ends []) := by
    rw [hdots, hends]
    rfl
  have hstay : ∀ c ∈ line.splitOn '/', c = [] ∨ c = ['.'] ∨ Plain c := by
    intro c hc
    rw [hcomponents] at hc
    rcases List.mem_append.mp hc with hc | hc
    · exact .inr (.inl (eq_of_mem_replicate hc))
    rcases List.mem_append.mp hc with hc | hc
    · exact .inr (.inr (hplain c hc))
    · exact .inl (eq_of_mem_replicate hc)
  refine ⟨?_, hplain, fun directory => ⟨?_, fun n => ?_⟩, not_reserved hname hmode hmodeBelow,
    not_reserved hname hentry hentryBelow⟩
  · refine hname.imp_right (Or.imp_right fun hprefix => ?_)
    obtain ⟨rest, hrest⟩ := List.isPrefixOf_iff_prefix.mp hprefix
    exact ⟨rest, hrest.symm.trans (append_assoc _ _ _)⟩
  · have hstand : ∀ (n : ℕ) (c : Text) (d : List Text), c = [] ∨ c = ['.'] →
        walk d (replicate n c) = d := by
      intro n c d hc
      induction n with
      | zero => rfl
      | succ n ih =>
        rw [replicate_succ, walk, foldl_cons, enter, if_pos hc]
        exact ih
    calc walk directory (line.splitOn '/')
        = walk (walk (walk directory (replicate dots ['.']))
            ((normalized line).splitOn '/')) (replicate ends []) := by
          rw [hcomponents]
          unfold walk
          rw [foldl_append, foldl_append]
      _ = walk directory ((normalized line).splitOn '/') := by
          rw [hstand ends [] _ (.inl rfl), hstand dots ['.'] _ (.inr rfl)]
      _ = directory ++ (normalized line).splitOn '/' := walk_plain directory hplain
  · exact walk_below directory fun c hc => hstay c (mem_of_mem_take hc)

/-! ### Accepted sizes -/

def columns (line : Text) : List Text := (line.splitOn ' ').filter (· ≠ [])

lemma columns_blank (text : Text) : columns (' ' :: text) = columns text := by
  have hsplit : (' ' :: text).splitOn ' ' = [] :: text.splitOn ' ' :=
    splitOn_append_cons_self [] text
  unfold columns
  rw [hsplit, filter_cons_of_neg (by decide)]

lemma columns_skip (text : Text) : columns (text.dropWhile (· == ' ')) = columns text := by
  induction text with
  | nil => rfl
  | cons c text ih =>
    by_cases hc : c = ' '
    · subst hc
      rw [dropWhile_cons_of_pos (by decide), ih, columns_blank]
    · rw [dropWhile_cons_of_neg (by simpa using hc)]

lemma columns_cons {word rest : Text} (hne : word ≠ []) (hword : ' ' ∉ word)
    (hrest : ∀ c ∈ rest.head?, c = ' ') : columns (word ++ rest) = word :: columns rest := by
  rcases rest with _ | ⟨c, rest⟩
  · rw [append_nil]
    unfold columns
    rw [splitOn_eq_singleton hword, filter_cons_of_pos (by simpa using hne)]
    rfl
  obtain rfl := hrest c rfl
  rw [columns_blank]
  unfold columns
  rw [splitOn_append_cons_self_of_not_mem hword,
    filter_cons_of_pos (by simpa using hne)]

lemma columns_next {text : Text} (hne : text ≠ []) (hhead : text.head? ≠ some ' ') :
    columns text = text.takeWhile (· != ' ') ::
      columns ((text.dropWhile (· != ' ')).dropWhile (· == ' ')) := by
  rw [columns_skip]
  calc columns text = columns (text.takeWhile (· != ' ') ++ text.dropWhile (· != ' ')) := by
        rw [takeWhile_append_dropWhile]
    _ = _ := by
        refine columns_cons ?_ (fun hmem => ?_) fun c hc => ?_
        · obtain ⟨c, rest, rfl⟩ := exists_cons_of_ne_nil hne
          rw [takeWhile_cons_of_pos (by simpa using fun h => hhead (by rw [h]; rfl))]
          exact cons_ne_nil _ _
        · simpa using mem_takeWhile_imp hmem
        have := head?_dropWhile_not (· != ' ') text
        rw [Option.mem_def] at hc
        rw [hc] at this
        simpa using this

structure Declares (line : Text) (size : ℕ) : Prop where
  /-- A plain file or a directory. -/
  type : (line.takeWhile (· != '\x00')).head? = some '-' ∨
    (line.takeWhile (· != '\x00')).head? = some 'd'
  column : ∃ digits, (columns (line.takeWhile (· != '\x00')))[2]? = some digits ∧ digits ≠ [] ∧
    (∀ c ∈ digits, c.isDigit) ∧ size = Nat.ofDigitChars 10 digits 0

lemma declaredSize_declares {line : Text} {size : UInt64} (h : declaredSize line = some size) :
    Declares line size.toNat := by
  unfold declaredSize at h
  dsimp only at h
  generalize htext : line.takeWhile (· != '\x00') = text at h
  split_ifs at h with htype hbehind
  have htype' : text.head? = some '-' ∨ text.head? = some 'd' := by tauto
  refine ⟨htext ▸ htype', ?_⟩
  rw [htext]
  unfold parseTarSize at h
  split_ifs at h with hnil
  obtain ⟨hdigits, hvalue⟩ := parseDigits_spec h
  refine ⟨(sizeColumn text).1, ?_, hnil, hdigits, hvalue⟩
  have hskip : ∀ t : Text, (t.dropWhile (· == ' ')).head? ≠ some ' ' := by
    intro t ht
    have hnot := head?_dropWhile_not (· == ' ') t
    rw [ht] at hnot
    simp at hnot
  generalize hsecond : (text.dropWhile (· != ' ')).dropWhile (· == ' ') = second
  generalize hthird : (second.dropWhile (· != ' ')).dropWhile (· == ' ') = third
  have hcolumn : sizeColumn text =
      (third.takeWhile Char.isDigit, third.dropWhile Char.isDigit) := by
    rw [← hthird, ← hsecond]
    rfl
  rw [hcolumn] at hnil hbehind hdigits ⊢
  dsimp only at hnil hbehind hdigits ⊢
  have hne : text ≠ [] := by
    rintro rfl
    rcases htype' with h | h <;> cases h
  have hhead : text.head? ≠ some ' ' := by
    rcases htype' with h | h <;> (rw [h]; decide)
  have hne' : second ≠ [] := by
    rintro rfl
    rw [← hthird] at hnil
    exact hnil rfl
  have hlast : columns third = third.takeWhile Char.isDigit ::
      columns (third.dropWhile Char.isDigit) := by
    calc columns third
        = columns (third.takeWhile Char.isDigit ++ third.dropWhile Char.isDigit) := by
          rw [takeWhile_append_dropWhile]
      _ = _ := by
          refine columns_cons hnil (fun hmem => ?_) fun c hc => ?_
          · exact absurd (hdigits _ hmem) (by decide)
          by_contra hc'
          refine hbehind ⟨fun h => ?_, fun h => ?_⟩
          · rw [h] at hc
            cases hc
          · rw [Option.mem_def, h] at hc
            exact hc' (Option.some.inj hc).symm
  rw [columns_next hne hhead, hsecond, columns_next hne' (hsecond ▸ hskip _), hthird, hlast]
  rfl

lemma checkSizes_spec {total : UInt64} {lines : List Text} (htotal : total ≤ unpackedMax)
    (h : checkSizes total lines = true) : ∃ sizes : List ℕ, List.Forall₂ Declares lines sizes ∧
      (∀ size ∈ sizes, size ≤ fileMax.toNat) ∧ total.toNat + sizes.sum ≤ unpackedMax.toNat := by
  induction lines generalizing total with
  | nil =>
    exact ⟨[], .nil, fun _ h => (by cases h), by simpa using UInt64.le_iff_toNat_le.mp htotal⟩
  | cons line lines ih =>
    unfold checkSizes at h
    rcases hsize : declaredSize line with _ | size
    · rw [hsize] at h
      cases h
    rw [hsize] at h
    dsimp only at h
    split_ifs at h with hlimit
    simp only [gt_iff_lt, Bool.or_eq_true, decide_eq_true_eq, not_or, UInt64.not_lt,
      UInt64.le_iff_toNat_le] at hlimit
    have hmax : fileMax.toNat = 16 * 1024 * 1024 := by decide
    have hmax' : unpackedMax.toNat = 64 * 1024 * 1024 := by decide
    have hsub : (unpackedMax - size).toNat = unpackedMax.toNat - size.toNat :=
      UInt64.toNat_sub_of_le _ _ (UInt64.le_iff_toNat_le.mpr (by omega))
    have hsum : (total + size).toNat = total.toNat + size.toNat := by
      rw [UInt64.toNat_add]
      omega
    obtain ⟨sizes, hdeclares, hfiles, htotal'⟩ :=
      ih (UInt64.le_iff_toNat_le.mpr (by omega)) h
    refine ⟨size.toNat :: sizes, .cons (declaredSize_declares hsize) hdeclares, ?_, ?_⟩
    · intro n hn
      rcases List.mem_cons.mp hn with rfl | hn
      · exact hlimit.1
      · exact hfiles n hn
    · rw [sum_cons]
      omega

/-- **Accepted sizes are bounded.** Every line is a plain file or a directory with a size within
the limit, and the sizes together, as numbers that do not wrap, are within theirs. -/
theorem archive_sizes_bounded {data : Text} (h : validateVerboseTypes (some data) = true) :
    ∃ sizes : List ℕ, List.Forall₂ Declares (listing data) sizes ∧
      (∀ size ∈ sizes, size ≤ fileMax.toNat) ∧ sizes.sum ≤ unpackedMax.toNat := by
  unfold validateVerboseTypes at h
  obtain ⟨sizes, hdeclares, hfiles, hsum⟩ :=
    checkSizes_spec (show (0 : UInt64) ≤ unpackedMax by decide) (Bool.and_eq_true_iff.mp h).2
  exact ⟨sizes, hdeclares, hfiles, by simpa using hsum⟩

/-- **What an accepted archive extracts** stays inside its directory and its limits. -/
theorem archive_confined (names types : Option Text) :
    (validateTarNames names = true → ∃ data, names = some data ∧ ∀ line ∈ listing data,
      (normalized line = manifestName ∨ normalized line = payload ∨
        ∃ rest, normalized line = payload ++ '/' :: rest) ∧
      (∀ c ∈ (normalized line).splitOn '/', Plain c) ∧
      (∀ directory, walk directory (line.splitOn '/') = directory ++ (normalized line).splitOn '/' ∧
        ∀ n, directory <+: walk directory ((line.splitOn '/').take n)) ∧
      ¬[payload, modeName] <+: (normalized line).splitOn '/' ∧
      ¬[payload, entryName] <+: (normalized line).splitOn '/') ∧
    (validateVerboseTypes types = true → ∃ data, types = some data ∧ ∃ sizes : List ℕ,
      List.Forall₂ Declares (listing data) sizes ∧ (∀ size ∈ sizes, size ≤ fileMax.toNat) ∧
        sizes.sum ≤ unpackedMax.toNat) := by
  constructor
  · intro h
    cases names with
    | none => cases h
    | some data => exact ⟨data, rfl, archive_names_confined h⟩
  · intro h
    cases types with
    | none => cases h
    | some data => exact ⟨data, rfl, archive_sizes_bounded h⟩

example : validateTarNames (some "./payload/\n./payload/run\nmanifest.v1\n".toList) = true := by
  decide

example : validateTarNames (some "payload/../manifest.v1\n".toList) = false := by decide

end C1auncher.Package.ArchiveNames
