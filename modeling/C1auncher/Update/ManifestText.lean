import C1auncher.Update.CommitProgress
import C1auncher.Update.Protocol

/-!
The signed manifest of a release: the parser, and the text that it is a parser of.
-/

namespace C1auncher.Update.ManifestText

open CString Update.StateStore Update.StateCommit
open Update.CommitProgress Update.Protocol

/-! ### The parser -/

/-- `C1_UPDATE_MANIFEST_MAX` -/
def manifestMax : ℕ := 64 * 1024

/-- `C1_UPDATE_LINE_MAX` -/
def lineMax : ℕ := 512

/-- `C1_UPDATE_COMPONENT_MAX` -/
def componentMax : UInt64 := 32 * 1024 * 1024

/-- `C1_UPDATE_PAYLOAD_MAX` -/
def payloadMax : UInt64 := 96 * 1024 * 1024

/-- `C1_UPDATE_TARGET` -/
def updateTarget : Text := "mips32r2-little-o32-hard-float-double-static".toList

structure Component where
  role : Text
  path : Text
  sha256 : Text
  size : UInt64
  mode : UInt32

structure Manifest where
  sequence : UInt64
  version : Text
  securityEpoch : UInt64
  target : Text
  minBootstrap : Text
  minUpdater : Text
  compatibility : Text
  sourceRevision : Text
  sourceDateEpoch : UInt64
  components : Vector Component 4

/-- What `memset` leaves. -/
def Manifest.zero : Manifest :=
  ⟨0, [], 0, [], [], [], [], [], 0, .replicate 4 ⟨[], [], [], 0, 0⟩⟩

def parseTaggedToken (line : Text) (tag : Char) : Option Text :=
  (taggedValue tag line).filter (safeToken ·)

def parseTaggedU64 (line : Text) (tag : Char) : Option UInt64 :=
  (taggedValue tag line).bind (parseU64 · true)

/-- The fields between tabs, if there are as many as expected. -/
def splitFields (line : Text) (expected : ℕ) : Option (List Text) :=
  let fields := line.splitOn '\t'
  if fields.length = expected then some fields else none

def roles : List Text :=
  ["c1ancher".toList, "c1pkg".toList, "launcher".toList, "updater".toList]

def paths : List Text :=
  ["artifacts/C1ancher".toList, "artifacts/c1pkg".toList, "artifacts/C1ancher-launcher".toList,
    "artifacts/c1updater".toList]

def parseComponent (line : Text) (index : ℕ) : Option Component := do
  match ← splitFields line 6 with
  | [tag, role, path, sha256, size, mode] =>
    guard (tag = ['F'] ∧ roles[index]? = some role ∧ paths[index]? = some path ∧
      validDigest sha256)
    let size ← parseU64 size true
    guard (mode = ['7', '0', '0'])
    some ⟨role, path, sha256, size, 0o700⟩
  | _ => none

def manifestMagic : Text := "C1CORE-MANIFEST 1".toList

def parseLine (lineNumber : ℕ) (line : Text) (manifest : Manifest) : Option Manifest :=
  match lineNumber with
  | 0 => if line = manifestMagic then some manifest else none
  | 1 => (parseTaggedU64 line 'S').map fun n => { manifest with sequence := n }
  | 2 => (parseTaggedToken line 'V').map fun t => { manifest with version := t }
  | 3 => (parseTaggedU64 line 'E').map fun n => { manifest with securityEpoch := n }
  | 4 =>
    if line.take 2 = ['T', '\t'] ∧ line.drop 2 = updateTarget then
      some { manifest with target := line.drop 2 }
    else none
  | 5 => (parseTaggedToken line 'B').map fun t => { manifest with minBootstrap := t }
  | 6 => (parseTaggedToken line 'U').map fun t => { manifest with minUpdater := t }
  | 7 => (parseTaggedToken line 'C').map fun t => { manifest with compatibility := t }
  | 8 => (parseTaggedToken line 'R').map fun t => { manifest with sourceRevision := t }
  | 9 => (parseTaggedU64 line 'D').map fun n => { manifest with sourceDateEpoch := n }
  | index + 10 => (parseComponent line index).map fun c =>
      { manifest with components := manifest.components.setIfInBounds index c }

inductive Rejection
  | envelope
  | forbiddenBytes
  | lineStructure
  | field
  | payloadSize
  | recordCount
  deriving DecidableEq

def Rejection.message : Rejection → String
  | .envelope => "invalid manifest envelope"
  | .forbiddenBytes => "manifest contains forbidden bytes"
  | .lineStructure => "invalid manifest line structure"
  | .field => "manifest field rejected"
  | .payloadSize => "manifest payload size rejected"
  | .recordCount => "manifest record count rejected"

/-- The next line, and what is behind its newline if it has one. -/
def scanLine : Text → Except Rejection (Text × Option Text)
  | [] => .ok ([], none)
  | c :: data =>
    if c = '\n' then .ok ([], some data)
    else if forbidden c then .error .forbiddenBytes
    else (scanLine data).map fun (line, rest) => (c :: line, rest)

/-- The size of the component a line was about, checked and added up. -/
def addPayload (lineNumber : ℕ) (manifest : Manifest) (payloadSize : UInt64) : Option UInt64 :=
  if lineNumber ≥ 10 then
    (manifest.components[lineNumber - 10]?).bind fun component =>
      if component.size > componentMax ∨ payloadSize > payloadMax - component.size then none
      else some (payloadSize + component.size)
  else some payloadSize

variable {data text : Text} {tag : Char} {index lineNumber : ℕ} {c : Component}
  {payloadSize : UInt64} {m m' : Manifest}

lemma length_lt_of_scanLine {line rest : Text} (h : scanLine data = .ok (line, some rest)) :
    rest.length < data.length := by
  induction data generalizing line with
  | nil => simp [scanLine] at h
  | cons c data ih =>
    rw [scanLine] at h
    split_ifs at h with hc
    · simp only [Except.ok.injEq, Prod.mk.injEq, Option.some.injEq] at h
      simp [← h.2]
    rcases hs : scanLine data with e | ⟨line', rest'⟩
    · simp [hs, Except.map] at h
    simp only [hs, Except.map, Except.ok.injEq, Prod.mk.injEq] at h
    rw [h.2] at hs
    exact Nat.lt_succ_of_lt (ih hs)

def parseLines (data : Text) (lineNumber : ℕ) (payloadSize : UInt64) (manifest : Manifest) :
    Except Rejection Manifest :=
  if data = [] then
    if lineNumber ≠ 14 then .error .recordCount else .ok manifest
  else
    match _h : scanLine data with
    | .error e => .error e
    | .ok (_, none) => .error .lineStructure
    | .ok (line, some rest) =>
      if line.length = 0 ∨ line.length > lineMax ∨ lineNumber ≥ 14 then .error .lineStructure
      else
        match parseLine lineNumber line manifest with
        | none => .error .field
        | some manifest =>
          match addPayload lineNumber manifest payloadSize with
          | none => .error .payloadSize
          | some payloadSize => parseLines rest (lineNumber + 1) payloadSize manifest
  termination_by data.length
  decreasing_by exact length_lt_of_scanLine _h

def parseManifest (data : Text) : Except Rejection Manifest :=
  if data = [] ∨ data.length > manifestMax ∨ data.getLast? ≠ some '\n' then .error .envelope
  else parseLines data 0 0 .zero

/-! ### The text of a manifest -/

def tagged (tag : Char) (value : Text) : Text := tag :: '\t' :: value

def Component.line (c : Component) : Text :=
  ['\t'].intercalate [['F'], c.role, c.path, c.sha256, decimal c.size, ['7', '0', '0']]

def Manifest.lines (m : Manifest) : List Text :=
  [manifestMagic, tagged 'S' (decimal m.sequence), tagged 'V' m.version,
    tagged 'E' (decimal m.securityEpoch), tagged 'T' m.target, tagged 'B' m.minBootstrap,
    tagged 'U' m.minUpdater, tagged 'C' m.compatibility, tagged 'R' m.sourceRevision,
    tagged 'D' (decimal m.sourceDateEpoch), m.components[0].line, m.components[1].line,
    m.components[2].line, m.components[3].line]

def unlines (lines : List Text) : Text := lines.flatMap (· ++ ['\n'])

def Manifest.render (m : Manifest) : Text := unlines m.lines

structure Component.WellFormed (c : Component) (index : ℕ) : Prop where
  role : roles[index]? = some c.role
  path : paths[index]? = some c.path
  sha256 : validDigest c.sha256
  size : c.size ≠ 0
  mode : c.mode = 0o700

structure Manifest.WellFormed (m : Manifest) : Prop where
  sequence : m.sequence ≠ 0
  version : safeToken m.version
  securityEpoch : m.securityEpoch ≠ 0
  target : m.target = updateTarget
  minBootstrap : safeToken m.minBootstrap
  minUpdater : safeToken m.minUpdater
  compatibility : safeToken m.compatibility
  sourceRevision : safeToken m.sourceRevision
  sourceDateEpoch : m.sourceDateEpoch ≠ 0
  components : ∀ (index : ℕ) (h : index < 4), m.components[index].WellFormed index
  sizes : ∀ (index : ℕ) (h : index < 4), m.components[index].size ≤ componentMax
  payload : (m.components.toList.map (·.size.toNat)).sum ≤ payloadMax.toNat

/-! ### Fields -/

lemma taggedValue_iff {line value : Text} :
    taggedValue tag line = some value ↔ line = tagged tag value ∧ '\t' ∉ value := by
  refine ⟨fun h => ?_, fun ⟨hline, htab⟩ => hline ▸ taggedValue_eq htab⟩
  unfold taggedValue at h
  split at h
  · next c rest =>
    split_ifs at h with hc
    obtain rfl := Option.some.inj h
    simp only [Bool.and_eq_true, beq_iff_eq, Bool.not_eq_true', List.contains_eq_mem,
      decide_eq_false_iff_not] at hc
    exact ⟨by rw [tagged, hc.1], hc.2⟩
  · cases h

lemma parseTaggedU64_iff {line : Text} {n : UInt64} :
    parseTaggedU64 line tag = some n ↔ line = tagged tag (decimal n) ∧ n ≠ 0 := by
  simp only [parseTaggedU64, Option.bind_eq_some_iff, taggedValue_iff, parseU64_iff,
    forall_true_left]
  constructor
  · rintro ⟨_, ⟨rfl, -⟩, rfl, hn⟩
    exact ⟨rfl, hn⟩
  · rintro ⟨rfl, hn⟩
    exact ⟨_, ⟨rfl, tab_notMem_of_plain (plain_decimal n)⟩, rfl, hn⟩

lemma parseTaggedToken_iff {line : Text} :
    parseTaggedToken line tag = some text ↔ line = tagged tag text ∧ safeToken text := by
  simp only [parseTaggedToken, Option.filter_eq_some_iff, taggedValue_iff]
  constructor
  · rintro ⟨⟨rfl, -⟩, htoken⟩
    exact ⟨rfl, htoken⟩
  · rintro ⟨rfl, htoken⟩
    exact ⟨⟨rfl, tab_notMem_of_plain (plain_of_safeToken htoken)⟩, htoken⟩

lemma splitFields_iff {line : Text} {fields : List Text} :
    splitFields line fields.length = some fields ↔ line.splitOn '\t' = fields := by
  unfold splitFields
  dsimp only
  constructor
  · intro h
    split_ifs at h
    exact Option.some.inj h
  · intro h
    rw [if_pos (congrArg List.length h), h]

lemma plain_of_table {table : List Text}
    (hall : table.all (·.all fun c => '!' ≤ c && c ≤ '~')) (h : table[index]? = some text) :
    ∀ c ∈ text, Plain c := by
  intro c hc
  have := List.all_eq_true.mp (List.all_eq_true.mp hall text (List.mem_of_getElem? h)) c hc
  simpa [Plain] using this

lemma length_of_table {table : List Text}
    (hall : table.all (·.length ≤ 64)) (h : table[index]? = some text) : text.length ≤ 64 := by
  simpa using List.all_eq_true.mp hall text (List.mem_of_getElem? h)

def Component.fields (c : Component) : List Text :=
  [['F'], c.role, c.path, c.sha256, decimal c.size, ['7', '0', '0']]

lemma Component.WellFormed.plain (h : c.WellFormed index) :
    ∀ field ∈ c.fields, ∀ x ∈ field, Plain x := by
  simp only [Component.fields, List.mem_cons, List.not_mem_nil, or_false, forall_eq_or_imp,
    forall_eq]
  exact ⟨by simp [Plain], plain_of_table (by decide) h.role, plain_of_table (by decide) h.path,
    plain_of_validDigest h.sha256,
    plain_decimal c.size, by simp [Plain]⟩

lemma parseComponent_iff {line : Text} :
    parseComponent line index = some c ↔ line = c.line ∧ c.WellFormed index := by
  constructor
  · intro h
    obtain ⟨fields, hsplit, hfields⟩ := Option.bind_eq_some_iff.mp h
    split at hfields
    · next tag role path sha256 size mode =>
      obtain ⟨_, hguard, hsize⟩ := Option.bind_eq_some_iff.mp hfields
      obtain ⟨n, hn, hrest⟩ := Option.bind_eq_some_iff.mp hsize
      obtain ⟨_, hmode, hc⟩ := Option.bind_eq_some_iff.mp hrest
      obtain ⟨rfl, hrole, hpath, hdigest⟩ := of_guard hguard
      obtain rfl := of_guard hmode
      obtain ⟨rfl, hne⟩ := parseU64_iff.mp hn
      obtain rfl := Option.some.inj hc
      have hline : line.splitOn '\t' =
          [['F'], role, path, sha256, decimal n, ['7', '0', '0']] := splitFields_iff.mp hsplit
      refine ⟨?_, hrole, hpath, hdigest, hne rfl, rfl⟩
      rw [Component.line, ← hline, List.intercalate_splitOn]
    · cases hfields
  · rintro ⟨rfl, h⟩
    have hsplit : splitFields c.line 6 = some c.fields := splitFields_iff.mpr
      (List.splitOn_intercalate '\t' (fun field hf => tab_notMem_of_plain (h.plain field hf))
        (by simp [Component.fields]))
    obtain ⟨role, path, sha256, size, mode⟩ := c
    obtain rfl := h.mode
    have hsize := parseU64_decimal true fun _ => h.size
    simp [parseComponent, hsplit, Component.fields, hsize, h.role, h.path, h.sha256]

/-! ### Lines -/

structure Clean (line : Text) : Prop where
  ne_nil : line ≠ []
  length : line.length ≤ lineMax
  inLine : ∀ c ∈ line, InLine c

lemma scanLine_append {line : Text} (h : ∀ c ∈ line, InLine c) (rest : Text) :
    scanLine (line ++ '\n' :: rest) = .ok (line, some rest) := by
  induction line with
  | nil => simp [scanLine]
  | cons c line ih =>
    obtain ⟨hne, hok⟩ := h c List.mem_cons_self
    rw [List.cons_append, scanLine, if_neg hne, if_neg (by simp [hok]),
      ih fun x hx => h x (List.mem_cons_of_mem _ hx)]
    rfl

lemma scanLine_spec {line rest : Text} (h : scanLine data = .ok (line, some rest)) :
    data = line ++ '\n' :: rest ∧ ∀ c ∈ line, InLine c := by
  induction data generalizing line with
  | nil => simp [scanLine] at h
  | cons c data ih =>
    rw [scanLine] at h
    split_ifs at h with hc hforbidden
    · simp only [Except.ok.injEq, Prod.mk.injEq, Option.some.injEq] at h
      obtain ⟨rfl, rfl⟩ := h
      simp [hc]
    rcases hs : scanLine data with e | ⟨line', rest'⟩
    · simp [hs, Except.map] at h
    simp only [hs, Except.map, Except.ok.injEq, Prod.mk.injEq] at h
    obtain ⟨rfl, rfl⟩ := h
    obtain ⟨rfl, hin⟩ := ih hs
    refine ⟨rfl, fun x hx => ?_⟩
    rcases List.mem_cons.mp hx with rfl | hx
    · exact ⟨hc, by simpa using hforbidden⟩
    · exact hin x hx

/-- What the loop makes of the lines it takes. -/
def acceptLines : List Text → ℕ → UInt64 → Manifest → Option Manifest
  | [], lineNumber, _, m => if lineNumber = 14 then some m else none
  | line :: lines, lineNumber, payloadSize, m =>
    if lineNumber ≥ 14 then none
    else (parseLine lineNumber line m).bind fun m =>
      (addPayload lineNumber m payloadSize).bind fun payloadSize =>
        acceptLines lines (lineNumber + 1) payloadSize m

lemma unlines_cons (line : Text) (lines : List Text) :
    unlines (line :: lines) = line ++ '\n' :: unlines lines := by
  simp [unlines]

lemma parseLines_iff :
    parseLines data lineNumber payloadSize m = .ok m' ↔
      ∃ lines, data = unlines lines ∧ (∀ line ∈ lines, Clean line) ∧
        acceptLines lines lineNumber payloadSize m = some m' := by
  constructor
  · intro h
    induction hn : data.length using Nat.strongRecOn generalizing data lineNumber payloadSize m with
    | ind n ih =>
      rw [parseLines] at h
      split_ifs at h with hnil h14
      · exact ⟨[], hnil, by simp, by simpa [acceptLines, not_not.mp h14] using h⟩
      split at h
      · cases h
      · cases h
      next line rest hscan =>
      split_ifs at h with hlen
      split at h
      · cases h
      next m₁ hm₁ =>
      split at h
      · cases h
      next p₁ hp₁ =>
      obtain ⟨lines, rfl, hclean, haccept⟩ :=
        ih _ (hn ▸ length_lt_of_scanLine hscan) h rfl
      obtain ⟨rfl, hin⟩ := scanLine_spec hscan
      have hline : Clean line := by
        refine ⟨fun hc => ?_, by omega, hin⟩
        simp [hc] at hlen
      refine ⟨line :: lines, (unlines_cons _ _).symm, ?_, ?_⟩
      · simpa using ⟨hline, hclean⟩
      · rw [acceptLines, if_neg (by omega), hm₁, Option.bind_some, hp₁, Option.bind_some,
          haccept]
  · rintro ⟨lines, rfl, hclean, h⟩
    induction lines generalizing lineNumber payloadSize m with
    | nil =>
      rw [acceptLines] at h
      split_ifs at h with h14
      rw [parseLines]
      simp [unlines, h14, Option.some.inj h]
    | cons line lines ih =>
      have hline := hclean line List.mem_cons_self
      rw [acceptLines] at h
      split_ifs at h with hge
      obtain ⟨m₁, hm₁, h⟩ := Option.bind_eq_some_iff.mp h
      obtain ⟨p₁, hp₁, h⟩ := Option.bind_eq_some_iff.mp h
      have hrest := ih (fun l hl => hclean l (List.mem_cons_of_mem _ hl)) h
      have hlen : ¬(line.length = 0 ∨ line.length > lineMax ∨ lineNumber ≥ 14) := by
        have := hline.length
        have := List.length_pos_of_ne_nil hline.ne_nil
        omega
      rw [parseLines, unlines_cons, if_neg (by simp)]
      have hscan := scanLine_append hline.inLine (unlines lines)
      split
      · next e he => rw [hscan] at he; cases he
      · next l he => rw [hscan] at he; cases he
      next l rest he =>
      rw [hscan] at he
      obtain ⟨rfl, rfl⟩ : line = l ∧ unlines lines = rest := by simpa using he
      rw [if_neg hlen, hm₁]
      dsimp only
      rw [hp₁]
      exact hrest

/-! ### Manifests -/

lemma accept_cons {lines : List Text}
    (hn : lineNumber < 14) (h : acceptLines lines lineNumber payloadSize m = some m') :
    ∃ line rest m₁ p₁, lines = line :: rest ∧ parseLine lineNumber line m = some m₁ ∧
      addPayload lineNumber m₁ payloadSize = some p₁ ∧
        acceptLines rest (lineNumber + 1) p₁ m₁ = some m' := by
  rcases lines with _ | ⟨line, rest⟩
  · simp [acceptLines, show lineNumber ≠ 14 by omega] at h
  rw [acceptLines, if_neg (by omega)] at h
  obtain ⟨m₁, hm₁, h⟩ := Option.bind_eq_some_iff.mp h
  obtain ⟨p₁, hp₁, h⟩ := Option.bind_eq_some_iff.mp h
  exact ⟨line, rest, m₁, p₁, rfl, hm₁, hp₁, h⟩

lemma accept_header {lines : List Text}
    (hn : lineNumber < 10) (h : acceptLines lines lineNumber payloadSize m = some m') :
    ∃ line rest m₁, lines = line :: rest ∧ parseLine lineNumber line m = some m₁ ∧
      acceptLines rest (lineNumber + 1) payloadSize m₁ = some m' := by
  obtain ⟨line, rest, m₁, p₁, hlines, hm₁, hp₁, h⟩ := accept_cons (by omega) h
  rw [addPayload, if_neg (by omega)] at hp₁
  exact ⟨line, rest, m₁, hlines, hm₁, Option.some.inj hp₁ ▸ h⟩

lemma addPayload_iff {p p₁ : UInt64}
    (hc : m.components[index]? = some c) (hp : p ≤ payloadMax) :
    addPayload (index + 10) m p = some p₁ ↔
      c.size ≤ componentMax ∧ p₁.toNat = p.toNat + c.size.toNat ∧ p₁ ≤ payloadMax := by
  have hp' : p.toNat ≤ 100663296 := UInt64.le_iff_toNat_le.mp hp
  have hmax' : p₁ ≤ payloadMax ↔ p₁.toNat ≤ 100663296 := UInt64.le_iff_toNat_le
  rw [hmax']
  have hsum : c.size ≤ componentMax → (payloadMax - c.size).toNat = 100663296 - c.size.toNat ∧
      (p + c.size).toNat = p.toNat + c.size.toNat := by
    intro hle
    have hle' : c.size.toNat ≤ 33554432 := UInt64.le_iff_toNat_le.mp hle
    have hmax : c.size ≤ payloadMax := UInt64.le_iff_toNat_le.mpr (by
      rw [show payloadMax.toNat = 100663296 from rfl]
      omega)
    refine ⟨by rw [UInt64.toNat_sub_of_le _ _ hmax]; rfl, ?_⟩
    rw [UInt64.toNat_add]
    omega
  rw [addPayload, if_pos (by omega), Nat.add_sub_cancel, hc, Option.bind_some]
  constructor
  · intro h
    split_ifs at h with hbad
    obtain rfl := Option.some.inj h
    have hle : c.size ≤ componentMax := UInt64.not_lt.mp fun hlt => hbad (.inl hlt)
    obtain ⟨hsub, hadd⟩ := hsum hle
    have hfits : p.toNat ≤ (payloadMax - c.size).toNat := UInt64.le_iff_toNat_le.mp
      (UInt64.not_lt.mp fun hlt => hbad (.inr hlt))
    have hle' : c.size.toNat ≤ 33554432 := UInt64.le_iff_toNat_le.mp hle
    exact ⟨hle, hadd, by omega⟩
  · rintro ⟨hle, hp₁, hmax⟩
    obtain ⟨hsub, hadd⟩ := hsum hle
    rw [if_neg, Option.some.injEq, ← UInt64.toNat_inj, hadd, hp₁]
    rintro (hlt | hlt)
    · exact absurd hle (UInt64.not_le.mpr hlt)
    · have := UInt64.lt_iff_toNat_lt.mp hlt
      omega

lemma accept_component {lines : List Text}
    (hi : index < 4) (hp : payloadSize ≤ payloadMax)
    (h : acceptLines lines (index + 10) payloadSize m = some m') :
    ∃ c rest p₁, lines = Component.line c :: rest ∧ c.WellFormed index ∧ c.size ≤ componentMax ∧
      p₁ ≤ payloadMax ∧ p₁.toNat = payloadSize.toNat + c.size.toNat ∧
      acceptLines rest (index + 11) p₁
        { m with components := m.components.setIfInBounds index c } = some m' := by
  obtain ⟨line, rest, m₁, p₁, rfl, hm₁, hp₁, hrest⟩ := accept_cons (by omega) h
  obtain ⟨c, hc, rfl⟩ := Option.map_eq_some_iff.mp hm₁
  obtain ⟨rfl, hwell⟩ := parseComponent_iff.mp hc
  rw [addPayload_iff (c := c) (by simp [hi]) hp] at hp₁
  obtain ⟨hsize, hsum, hmax⟩ := hp₁
  exact ⟨c, rest, p₁, rfl, hwell, hsize, hmax, hsum, hrest⟩

lemma lines_of_accept {lines : List Text}
    (h : acceptLines lines 0 0 .zero = some m) : lines = m.lines ∧ m.WellFormed := by
  obtain ⟨l0, rest, m0, rfl, h0, h⟩ := accept_header (by omega) h
  obtain ⟨l1, rest, m1, rfl, h1, h⟩ := accept_header (by omega) h
  obtain ⟨l2, rest, m2, rfl, h2, h⟩ := accept_header (by omega) h
  obtain ⟨l3, rest, m3, rfl, h3, h⟩ := accept_header (by omega) h
  obtain ⟨l4, rest, m4, rfl, h4, h⟩ := accept_header (by omega) h
  obtain ⟨l5, rest, m5, rfl, h5, h⟩ := accept_header (by omega) h
  obtain ⟨l6, rest, m6, rfl, h6, h⟩ := accept_header (by omega) h
  obtain ⟨l7, rest, m7, rfl, h7, h⟩ := accept_header (by omega) h
  obtain ⟨l8, rest, m8, rfl, h8, h⟩ := accept_header (by omega) h
  obtain ⟨l9, rest, m9, rfl, h9, h⟩ := accept_header (by omega) h
  obtain ⟨c0, rest, p0, rfl, hc0, hs0, hp0, ht0, h⟩ := accept_component (by omega) (by decide) h
  obtain ⟨c1, rest, p1, rfl, hc1, hs1, hp1, ht1, h⟩ := accept_component (by omega) hp0 h
  obtain ⟨c2, rest, p2, rfl, hc2, hs2, hp2, ht2, h⟩ := accept_component (by omega) hp1 h
  obtain ⟨c3, rest, p3, rfl, hc3, hs3, hp3, ht3, h⟩ := accept_component (by omega) hp2 h
  have hrest : rest = [] := by
    rcases rest with _ | ⟨line, rest⟩
    · rfl
    · simp [acceptLines] at h
  subst hrest
  simp only [parseLine, parseTaggedU64_iff, parseTaggedToken_iff, Option.map_eq_some_iff,
    Option.ite_none_right_eq_some, Option.some.injEq] at h0 h1 h2 h3 h4 h5 h6 h7 h8 h9
  obtain ⟨rfl, rfl⟩ := h0
  obtain ⟨sequence, ⟨rfl, hsequence⟩, rfl⟩ := h1
  obtain ⟨version, ⟨rfl, hversion⟩, rfl⟩ := h2
  obtain ⟨epoch, ⟨rfl, hepoch⟩, rfl⟩ := h3
  obtain ⟨⟨htag, htarget⟩, rfl⟩ := h4
  obtain ⟨bootstrap, ⟨rfl, hbootstrap⟩, rfl⟩ := h5
  obtain ⟨updater, ⟨rfl, hupdater⟩, rfl⟩ := h6
  obtain ⟨compatibility, ⟨rfl, hcompatibility⟩, rfl⟩ := h7
  obtain ⟨revision, ⟨rfl, hrevision⟩, rfl⟩ := h8
  obtain ⟨date, ⟨rfl, hdate⟩, rfl⟩ := h9
  simp only [acceptLines, Option.ite_none_right_eq_some, Option.some.injEq] at h
  obtain rfl := h.2
  have hl4 : l4 = tagged 'T' (l4.drop 2) := by
    conv_lhs => rw [← List.take_append_drop 2 l4, htag]
    rfl
  generalize l4.drop 2 = target at hl4 htarget ⊢
  subst hl4
  refine ⟨?_, hsequence, hversion, hepoch, htarget, hbootstrap, hupdater, hcompatibility,
    hrevision, hdate, ?_, ?_, ?_⟩
  · rfl
  · intro index hi
    interval_cases index
    · exact hc0
    · exact hc1
    · exact hc2
    · exact hc3
  · intro index hi
    interval_cases index
    · exact hs0
    · exact hs1
    · exact hs2
    · exact hs3
  · have hsum : c0.size.toNat + (c1.size.toNat + (c2.size.toNat + (c3.size.toNat + 0)))
        ≤ payloadMax.toNat := by
      have hle := UInt64.le_iff_toNat_le.mp hp3
      have hzero : (0 : UInt64).toNat = 0 := rfl
      omega
    exact hsum

lemma accept_componentLine (rest : List Text) (p : UInt64)
    (m : Manifest) (hi : index < 4) (hwell : c.WellFormed index) (hsize : c.size ≤ componentMax)
    (hp : p ≤ payloadMax) (hsum : p.toNat + c.size.toNat ≤ payloadMax.toNat) :
    ∃ p₁, p₁ ≤ payloadMax ∧ p₁.toNat = p.toNat + c.size.toNat ∧
      acceptLines (c.line :: rest) (index + 10) p m =
        acceptLines rest (index + 11) p₁
          { m with components := m.components.setIfInBounds index c } := by
  have hadd : (p + c.size).toNat = p.toNat + c.size.toNat := by
    have hmax : payloadMax.toNat = 100663296 := rfl
    rw [UInt64.toNat_add]
    omega
  have hle : p + c.size ≤ payloadMax := UInt64.le_iff_toNat_le.mpr (hadd ▸ hsum)
  refine ⟨p + c.size, hle, hadd, ?_⟩
  have hget : (m.components.setIfInBounds index c)[index]? = some c := by simp [hi]
  have hpayload := (addPayload_iff (m := { m with
    components := m.components.setIfInBounds index c }) hget hp).mpr ⟨hsize, hadd, hle⟩
  rw [acceptLines, if_neg (by omega), parseLine, parseComponent_iff.mpr ⟨rfl, hwell⟩,
    Option.map_some, Option.bind_some, hpayload, Option.bind_some]

lemma accept_headerLines (h : m.WellFormed) (rest : List Text) :
    acceptLines (m.lines.take 10 ++ rest) 0 0 .zero =
      acceptLines rest 10 0 { m with components := Manifest.zero.components } := by
  have hnumber : ∀ tag n, n ≠ 0 → parseTaggedU64 (tagged tag (decimal n)) tag = some n :=
    fun _ _ hn => parseTaggedU64_iff.mpr ⟨rfl, hn⟩
  have htoken : ∀ tag text, safeToken text → parseTaggedToken (tagged tag text) tag = some text :=
    fun _ _ ht => parseTaggedToken_iff.mpr ⟨rfl, ht⟩
  have htake : (tagged 'T' updateTarget).take 2 = ['T', '\t'] := rfl
  have hdrop : (tagged 'T' updateTarget).drop 2 = updateTarget := rfl
  simp [Manifest.lines, acceptLines, parseLine, addPayload, hnumber _ _ h.sequence,
    htoken _ _ h.version, hnumber _ _ h.securityEpoch, h.target, htake, hdrop,
    htoken _ _ h.minBootstrap, htoken _ _ h.minUpdater, htoken _ _ h.compatibility,
    htoken _ _ h.sourceRevision, hnumber _ _ h.sourceDateEpoch, Manifest.zero]

lemma components_eq (components : Vector Component 4) :
    components = #v[components[0], components[1], components[2], components[3]] := by
  ext1 index hi
  interval_cases index <;> rfl

lemma accept_lines (h : m.WellFormed) : acceptLines m.lines 0 0 .zero = some m := by
  have hlines : m.lines = m.lines.take 10 ++ [m.components[0].line, m.components[1].line,
    m.components[2].line, m.components[3].line] := rfl
  have hsum := h.payload
  have hzero : (0 : UInt64).toNat = 0 := rfl
  rw [components_eq m.components] at hsum
  simp only [Vector.toList_mk, List.map_cons, List.map_nil, List.sum_cons, List.sum_nil] at hsum
  have hcomponent := fun index hi rest p m' =>
    accept_componentLine rest p m' hi (h.components index hi) (h.sizes index hi)
  rw [hlines, accept_headerLines h]
  obtain ⟨p0, hp0, ht0, h0⟩ := hcomponent 0 (by omega) _ 0 _ (by decide) (by omega)
  obtain ⟨p1, hp1, ht1, h1⟩ := hcomponent 1 (by omega) _ p0 _ hp0 (by omega)
  obtain ⟨p2, hp2, ht2, h2⟩ := hcomponent 2 (by omega) _ p1 _ hp1 (by omega)
  obtain ⟨p3, hp3, ht3, h3⟩ := hcomponent 3 (by omega) _ p2 _ hp2 (by omega)
  rw [h0, h1, h2, h3, acceptLines, if_pos rfl]
  have hfilled : (((Manifest.zero.components.setIfInBounds 0 m.components[0]).setIfInBounds 1
      m.components[1]).setIfInBounds 2 m.components[2]).setIfInBounds 3 m.components[3]
      = m.components := by
    ext1 index hi
    interval_cases index <;> rfl
  dsimp only
  rw [hfilled]

/-! ### The grammar -/

lemma clean_tagged {value : Text} (htag : Plain tag) (hvalue : ∀ c ∈ value, Plain c)
    (hlen : value.length ≤ 64) : Clean (tagged tag value) := by
  refine ⟨by simp [tagged], by simp only [tagged, List.length_cons, lineMax]; omega, ?_⟩
  intro c hc
  simp only [tagged, List.mem_cons] at hc
  rcases hc with rfl | rfl | hc
  · exact inLine_of_plain htag
  · exact ⟨by decide, by decide⟩
  · exact inLine_of_plain (hvalue c hc)

lemma Component.WellFormed.clean (h : c.WellFormed index) :
    Clean c.line := by
  have hline : c.line = 'F' :: '\t' :: (c.role ++ '\t' :: (c.path ++ '\t' :: (c.sha256 ++
      '\t' :: (decimal c.size ++ ['\t', '7', '0', '0'])))) := by
    simp [Component.line, List.intercalate]
  have hrole := length_of_table (by decide) h.role
  have hpath := length_of_table (by decide) h.path
  have hdigest := length_of_validDigest h.sha256
  have hsize := decimal_length_le c.size
  refine ⟨by simp [hline], ?_, fun x hx => ?_⟩
  · simp only [hline, List.length_cons, List.length_append, List.length_nil, lineMax]
    omega
  have hfields := h.plain
  simp only [Component.fields, List.mem_cons, List.not_mem_nil, or_false, forall_eq_or_imp,
    forall_eq] at hfields
  obtain ⟨hF, hr, hp, hd, hs, hm⟩ := hfields
  have htab : InLine '\t' := ⟨by decide, by decide⟩
  simp only [hline, List.mem_cons, List.mem_append, List.not_mem_nil, or_false] at hx
  rcases hx with rfl | rfl | hx | rfl | hx | rfl | hx | rfl | hx | rfl | rfl | rfl | rfl
  · exact inLine_of_plain hF
  · exact htab
  · exact inLine_of_plain (hr x hx)
  · exact htab
  · exact inLine_of_plain (hp x hx)
  · exact htab
  · exact inLine_of_plain (hd x hx)
  · exact htab
  · exact inLine_of_plain (hs x hx)
  · exact htab
  · exact inLine_of_plain hm.1
  · exact inLine_of_plain hm.2.1
  · exact inLine_of_plain hm.2.2

lemma Manifest.WellFormed.clean (h : m.WellFormed) :
    ∀ line ∈ m.lines, Clean line := by
  have htoken : ∀ {tag text}, Plain tag → safeToken text → Clean (tagged tag text) :=
    fun htag ht => clean_tagged htag (plain_of_safeToken ht) (length_of_safeToken ht)
  have hnumber : ∀ {tag} (n : UInt64), Plain tag → Clean (tagged tag (decimal n)) :=
    fun n htag => clean_tagged htag (plain_decimal n) (by have := decimal_length_le n; omega)
  have hplain : ∀ c ∈ updateTarget, Plain c := by
    have hall : updateTarget.all (fun c => '!' ≤ c && c ≤ '~') = true := by decide
    intro c hc
    simpa [Plain] using List.all_eq_true.mp hall c hc
  have hmagic : ∀ c ∈ manifestMagic, InLine c := by
    have hall : manifestMagic.all (fun c => c != '\n' && !forbidden c) = true := by decide
    intro c hc
    simpa [InLine] using List.all_eq_true.mp hall c hc
  simp only [Manifest.lines, List.mem_cons, List.not_mem_nil, or_false, forall_eq_or_imp, forall_eq]
  refine ⟨⟨by decide, by decide, hmagic⟩, hnumber _ ?_, htoken ?_ h.version, hnumber _ ?_,
    h.target ▸ clean_tagged ?_ hplain (by decide), htoken ?_ h.minBootstrap,
    htoken ?_ h.minUpdater, htoken ?_ h.compatibility, htoken ?_ h.sourceRevision, hnumber _ ?_,
    (h.components 0 (by omega)).clean, (h.components 1 (by omega)).clean,
    (h.components 2 (by omega)).clean, (h.components 3 (by omega)).clean⟩ <;> simp [Plain]

lemma length_unlines {lines : List Text} (hclean : ∀ line ∈ lines, Clean line) :
    (unlines lines).length ≤ lines.length * (lineMax + 1) := by
  induction lines with
  | nil => simp [unlines]
  | cons line lines ih =>
    have hline := (hclean line List.mem_cons_self).length
    have hrest := ih fun l hl => hclean l (List.mem_cons_of_mem _ hl)
    rw [unlines_cons]
    simp only [List.length_append, List.length_cons, Nat.add_mul, Nat.one_mul]
    omega

lemma getLast?_unlines {lines : List Text} (h : lines ≠ []) :
    (unlines lines).getLast? = some '\n' := by
  obtain ⟨init, line, rfl⟩ := (List.eq_nil_or_concat lines).resolve_left h
  simp [unlines]

lemma parseManifest_iff :
    parseManifest data = .ok m ↔ m.WellFormed ∧ data = m.render := by
  constructor
  · intro h
    unfold parseManifest at h
    split_ifs at h
    obtain ⟨lines, rfl, -, haccept⟩ := parseLines_iff.mp h
    obtain ⟨rfl, hwell⟩ := lines_of_accept haccept
    exact ⟨hwell, rfl⟩
  · rintro ⟨h, rfl⟩
    have hlast : m.render.getLast? = some '\n' := getLast?_unlines (by simp [Manifest.lines])
    have hlength : m.render.length ≤ 14 * (lineMax + 1) := length_unlines h.clean
    have hmax : 14 * (lineMax + 1) ≤ manifestMax := by decide
    have henvelope : ¬(m.render = [] ∨ m.render.length > manifestMax ∨
        m.render.getLast? ≠ some '\n') := by
      rintro (hnil | hlong | hend)
      · simp [hnil] at hlast
      · omega
      · exact hend hlast
    rw [parseManifest, if_neg henvelope]
    exact parseLines_iff.mpr ⟨m.lines, rfl, h.clean, accept_lines h⟩

/-- **The grammar of manifests.** The texts that are accepted are the canonical texts of
well-formed manifests, fourteen lines of at most 512 characters each; and the manifest that is
read determines the text. -/
theorem manifest_grammar :
    (∀ data, (∃ m, parseManifest data = .ok m) ↔
      ∃ m : Manifest, m.WellFormed ∧ data = m.render) ∧
    (∀ m : Manifest, m.WellFormed → m.lines.length = 14 ∧ ∀ line ∈ m.lines,
      line.length ≤ lineMax) ∧
    ∀ data data' m, parseManifest data = .ok m → parseManifest data' = .ok m → data = data' := by
  refine ⟨fun data => exists_congr fun m => parseManifest_iff, fun m h =>
    ⟨rfl, fun line hline => (h.clean line hline).length⟩, fun data data' m h h' => ?_⟩
  rw [(parseManifest_iff.mp h).2, (parseManifest_iff.mp h').2]

end C1auncher.Update.ManifestText
