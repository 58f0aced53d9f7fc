import C1auncher.Selection
import C1auncher.Wifi.Control

/-!
The list of networks that a scan shows: kept row by row, and the same as if all rows were
decoded first, sorted and cut.
-/

namespace C1auncher.Wifi.ScanList

open CString Wifi.Control Selection List

/-! ### `parse_scan_results` -/

/-- The saved profiles of a scan, and what `saved_profile_matches` answers for one of them; a
lookup can fail. -/
structure Profiles where
  networks : List SavedNetwork
  fits : ℤ → Security → Option Bool

/-- The loop of `scan_profile_saved`, over the profiles from the last on. -/
def profileSaved (fits : ℤ → Security → Option Bool) (ssid : Text) (security : Security) :
    List SavedNetwork → Option Bool
  | [] => some false
  | network :: networks =>
    if network.ssid ≠ ssid then profileSaved fits ssid security networks
    else
      match fits network.id security with
      | none => none
      | some true => some true
      | some false => profileSaved fits ssid security networks

/-- `scan_profile_saved` -/
def scanProfileSaved (profiles : Profiles) (ssid : Text) (security : Security) : Option Bool :=
  profileSaved profiles.fits ssid security profiles.networks.reverse

def markSaved (profiles : Option Profiles) (network : Network) : Option Network :=
  match profiles with
  | some profiles =>
    if network.supported then
      (scanProfileSaved profiles network.ssid network.security).map fun saved =>
        { network with saved := saved }
    else some network
  | none => some network

/-- The loop of `parse_scan_results` over the lines: whether it succeeds, and the networks. -/
def parseRows (profiles : Option Profiles) : List Text → List Network → Bool × List Network
  | [], networks => (true, networks)
  | line :: lines, networks =>
    match parseScanRow line with
    | none => parseRows profiles lines networks
    | some network =>
      match markSaved profiles network with
      | none => (false, networks)
      | some network => parseRows profiles lines (addNetwork networks network)

/-- `parse_scan_results` -/
def parseScanResults (profiles : Option Profiles) (output : Text) (reset : Bool)
    (networks : List Network) : Bool × List Network :=
  match tokens '\n' output with
  | [] => (false, networks)
  | heading :: lines =>
    if scanHeading.isPrefixOf heading then
      parseRows profiles lines (if reset then [] else networks)
    else (false, networks)

/-- Some calls without reset, all of which succeed. -/
def parseAll (profiles : Option Profiles) : List Text → List Network → Option (List Network)
  | [], networks => some networks
  | output :: outputs, networks =>
    match parseScanResults profiles output false networks with
    | (true, networks) => parseAll profiles outputs networks
    | (false, _) => none

/-! ### All rows at once -/

def lines (outputs : List Text) : List Text :=
  outputs.flatMap fun output => (tokens '\n' output).tail

/-- The lines that are well formed, with their marks. -/
def decoded (profiles : Option Profiles) (lines : List Text) : List Network :=
  lines.filterMap fun line => (parseScanRow line).bind (markSaved profiles)

def key (n : Network) : Text × Security := (n.ssid, n.security)

def strongest (rows : List Network) (n : Network) : Bool :=
  rows.all fun m => key m ≠ key n || m.signalDbm ≤ n.signalDbm

/-- Of every network the strongest row, in the order of `network_compare`. -/
def ranking (rows : List Network) : List Network :=
  ((rows.filter (strongest rows)).dedup).mergeSort fun a b => networkCompare a b ≠ .gt

/-! ### The order of `network_compare` -/

/-- The fields that `network_compare` looks at, in its order. -/
abbrev Rank : Type := Bool ×ₗ ℤ ×ₗ List ℕ ×ₗ ℕ

def rank (n : Network) : Rank :=
  toLex (!n.saved, toLex (-n.signalDbm, toLex (n.ssid.map Char.toNat, n.security.code)))

lemma strcmp_lt {a b : Text} :
    strcmp a b = .lt ↔ a.map Char.toNat < b.map Char.toNat := by
  induction a generalizing b with
  | nil => cases b <;> simp [strcmp]
  | cons x a ih =>
    cases b with
    | nil => simp [strcmp]
    | cons y b =>
      rw [strcmp, Ordering.then_eq_lt, compare_lt_iff_lt, compare_eq_iff_eq, ih, map_cons,
        map_cons, cons_lt_cons_iff]

lemma strcmp_gt {a b : Text} :
    strcmp a b = .gt ↔ b.map Char.toNat < a.map Char.toNat := by
  induction a generalizing b with
  | nil => cases b <;> simp [strcmp]
  | cons x a ih =>
    cases b with
    | nil => simp [strcmp]
    | cons y b =>
      rw [strcmp, Ordering.then_eq_gt, compare_gt_iff_gt, compare_eq_iff_eq, ih, map_cons,
        map_cons, cons_lt_cons_iff, eq_comm (a := x.toNat)]

lemma strcmp_eq {a b : Text} : strcmp a b = .eq ↔ a.map Char.toNat = b.map Char.toNat := by
  induction a generalizing b with
  | nil => cases b <;> simp [strcmp]
  | cons x a ih =>
    cases b with
    | nil => simp [strcmp]
    | cons y b =>
      rw [strcmp, Ordering.then_eq_eq, compare_eq_iff_eq, ih, map_cons, map_cons, cons.injEq]

lemma networkCompare_lt {a b : Network} : networkCompare a b = .lt ↔ rank a < rank b := by
  simp only [networkCompare, Ordering.then_eq_lt, compare_lt_iff_lt, compare_eq_iff_eq, strcmp_lt,
    strcmp_eq, rank, Prod.Lex.toLex_lt_toLex, neg_lt_neg_iff, neg_inj]
  cases a.saved <;> cases b.saved <;> simp [eq_comm]

lemma networkCompare_gt {a b : Network} : networkCompare a b = .gt ↔ rank b < rank a := by
  simp only [networkCompare, Ordering.then_eq_gt, compare_gt_iff_gt, compare_eq_iff_eq, strcmp_gt,
    strcmp_eq, rank, Prod.Lex.toLex_lt_toLex, neg_lt_neg_iff, neg_inj]
  cases a.saved <;> cases b.saved <;> simp [eq_comm]

/-! ### Rows of one table -/

/-- Rows that agree on what is saved, and whose other fields follow from the security. -/
structure Consistent (rows : List Network) : Prop where
  secured : ∀ n ∈ rows, n.secured = decide (n.security ≠ .opened)
  supported : ∀ n ∈ rows, n.supported = n.security.supported
  saved : ∀ n ∈ rows, ∀ m ∈ rows, key n = key m → n.saved = m.saved

lemma Consistent.of_subset {rows rows' : List Network} (h : Consistent rows) (hsub : rows' ⊆ rows) :
    Consistent rows' :=
  ⟨fun n hn => h.secured n (hsub hn), fun n hn => h.supported n (hsub hn),
    fun n hn m hm => h.saved n (hsub hn) m (hsub hm)⟩

lemma code_inj {a b : Security} (h : a.code = b.code) : a = b := by
  cases a <;> cases b <;> first | rfl | cases h

lemma rank_inj {rows : List Network} (h : Consistent rows) :
    ∀ x ∈ rows, ∀ y ∈ rows, rank x = rank y → x = y := by
  intro x hx y hy hrank
  simp only [rank, toLex_inj, Prod.mk.injEq, Bool.not_inj_iff, neg_inj] at hrank
  obtain ⟨hsaved, hsignal, hssid, hcode⟩ := hrank
  have hssid' := List.map_injective_iff.mpr (fun _ _ h => Char.toNat_inj.mp h) hssid
  have hsecurity := code_inj hcode
  have hsecured := (h.secured x hx).trans (hsecurity ▸ (h.secured y hy).symm)
  have hsupported := (h.supported x hx).trans (hsecurity ▸ (h.supported y hy).symm)
  cases x
  cases y
  simp_all

lemma rank_le {rows : List Network} (h : Consistent rows) {x y : Network} (hx : x ∈ rows)
    (hy : y ∈ rows) (hkey : key x = key y) : rank x ≤ rank y ↔ y.signalDbm ≤ x.signalDbm := by
  have hsaved := h.saved x hx y hy hkey
  obtain ⟨hssid, hsecurity⟩ := Prod.mk.inj hkey
  rw [rank, rank, hsaved, hssid, hsecurity]
  simp only [Prod.Lex.toLex_le_toLex, lt_irrefl, true_and, false_or, neg_lt_neg_iff, neg_inj,
    le_refl, and_true]
  omega

lemma best_iff {rows : List Network} (h : Consistent rows) {n : Network} :
    Best key rank rows n ↔ n ∈ rows.filter (strongest rows) := by
  simp only [Best, mem_filter, strongest, all_eq_true, Bool.or_eq_true, decide_eq_true_eq, ne_eq]
  refine and_congr_right fun hn => forall₂_congr fun m hm => ?_
  constructor
  · intro hle
    by_cases hkey : key m = key n
    · exact .inr ((rank_le h hn hm hkey.symm).mp (hle hkey))
    · exact .inl hkey
  · rintro (hne | hle) hkey
    · exact absurd hkey hne
    · exact (rank_le h hn hm hkey.symm).mpr hle

/-! ### One row -/

structure Selected (rows networks : List Network) : Prop where
  lowest : Lowest rank maxNetworks (Best key rank rows) networks
  sorted : networks.Pairwise (rank · < rank ·)

lemma compare_le {a b : Network} : decide (networkCompare a b ≠ .gt) = true ↔ rank a ≤ rank b := by
  rw [decide_eq_true_eq, ne_eq, networkCompare_gt, not_lt]

lemma sort_sorted {networks : List Network} (hnodup : networks.Nodup)
    (hinj : ∀ x ∈ networks, ∀ y ∈ networks, rank x = rank y → x = y) :
    (networks.mergeSort fun a b => networkCompare a b ≠ .gt).Pairwise (rank · < rank ·) := by
  have hperm := mergeSort_perm networks fun a b => decide (networkCompare a b ≠ .gt)
  have hle := @pairwise_mergeSort _ (fun a b => decide (networkCompare a b ≠ .gt))
    (fun a b c hab hbc => compare_le.mpr ((compare_le.mp hab).trans (compare_le.mp hbc)))
    (fun a b => by
      rw [Bool.or_eq_true, compare_le, compare_le]
      exact le_total _ _) networks
  refine (hle.and (hperm.nodup_iff.mpr hnodup)).imp_of_mem fun {a b} ha hb hab => ?_
  refine lt_of_le_of_ne (compare_le.mp hab.1) fun heq => hab.2 ?_
  exact hinj a (hperm.mem_iff.mp ha) b (hperm.mem_iff.mp hb) heq

section Step

variable {rows networks : List Network} {n : Network} (hrows : Consistent (rows ++ [n]))
  (h : Selected rows networks)

include hrows h

omit hrows in
lemma mem_rows {m : Network} (hm : m ∈ networks) : m ∈ rows ++ [n] :=
  mem_append_left _ (h.lowest.mem m hm).1

lemma place_known {i : ℕ} {m : Network} (hm : networks[i]? = some m) (hkey : key m = key n) :
    Lowest rank maxNetworks (Best key rank (rows ++ [n]))
      (if networks[i]?.any (·.signalDbm < n.signalDbm) then networks.set i n else networks) := by
  have hmem := mem_of_getElem? hm
  have hle := rank_le hrows (mem_rows h hmem) (by simp : n ∈ rows ++ [n]) hkey
  rw [hm, Option.any_some]
  by_cases hweaker : m.signalDbm < n.signalDbm
  · have hlt : rank n < rank m := not_le.mp fun hnot => by
      have := hle.mp hnot
      omega
    obtain ⟨hi, rfl⟩ := List.getElem?_eq_some_iff.mp hm
    rw [if_pos (by simpa using hweaker)]
    refine (lowest_replace (rank_inj hrows) h.lowest hmem hkey hlt).perm ?_
    rw [h.lowest.nodup.erase_getElem]
    exact set_perm_cons_eraseIdx hi n
  · rw [if_neg (by simpa using hweaker)]
    exact lowest_same (rank_inj hrows) h.lowest hmem hkey (hle.mpr (by omega))

lemma place_new (hkey : ∀ m ∈ networks, key m ≠ key n) :
    Lowest rank maxNetworks (Best key rank (rows ++ [n]))
      (if networks.length < maxNetworks then networks ++ [n]
        else if networks.getLast?.any (networkCompare n · = .lt) then networks.dropLast ++ [n]
        else networks) := by
  by_cases hroom : networks.length < maxNetworks
  · rw [if_pos hroom]
    exact lowest_append h.lowest hkey hroom
  have hfull : networks.length = maxNetworks := le_antisymm h.lowest.length (not_lt.mp hroom)
  have hne : networks ≠ [] := by
    rintro rfl
    cases hfull
  obtain ⟨kept, last, rfl⟩ := eq_nil_or_concat networks |>.resolve_left hne
  rw [concat_eq_append] at *
  have hlower := (List.pairwise_append.mp h.sorted).2.2
  rw [if_neg hroom, getLast?_concat, Option.any_some, dropLast_concat]
  by_cases hbetter : networkCompare n last = .lt
  · rw [if_pos (by simpa using hbetter)]
    exact lowest_evict h.lowest hkey hfull (fun x hx => hlower x hx last (by simp))
      (networkCompare_lt.mp hbetter)
  rw [if_neg (by simpa using hbetter)]
  have hlast : last ∈ kept ++ [last] := by simp
  have hlt : rank last < rank n := by
    refine lt_of_le_of_ne (not_lt.mp fun hlt => hbetter (networkCompare_lt.mpr hlt)) ?_
    intro heq
    have hsame := rank_inj hrows last (mem_rows h hlast) n (by simp) heq
    exact hkey last hlast (congrArg key hsame)
  refine lowest_refuse h.lowest hkey hfull fun m hm => ?_
  rcases List.mem_append.mp hm with hm | hm
  · exact (hlower m hm last (by simp)).trans hlt
  · exact List.mem_singleton.mp hm ▸ hlt

/-- **What `parse_scan_results` does with one row keeps the selection.** -/
theorem selected_step : Selected (rows ++ [n]) (addNetwork networks n) := by
  have hplaced :
      Lowest rank maxNetworks (Best key rank (rows ++ [n])) (placeNetwork networks n) := by
    rw [placeNetwork]
    split
    · rename_i i hfind
      obtain ⟨hi, hsame, -⟩ := List.findIdx?_eq_some_iff_getElem.mp hfind
      have hkey : key networks[i] = key n := by simpa [key] using hsame
      exact place_known hrows h (getElem?_eq_getElem hi) hkey
    rename_i hfind
    refine place_new hrows h fun m hm hkey => ?_
    have hnone := List.findIdx?_eq_none_iff.mp hfind m hm
    obtain ⟨hssid, hsecurity⟩ := Prod.mk.inj hkey
    simp [hssid, hsecurity] at hnone
  have hperm := mergeSort_perm (placeNetwork networks n) fun a b =>
    decide (networkCompare a b ≠ .gt)
  refine ⟨hplaced.perm hperm, sort_sorted hplaced.nodup fun x hx y hy => ?_⟩
  exact rank_inj hrows x (hplaced.mem x hx).1 y (hplaced.mem y hy).1

end Step

/-! ### All rows -/

lemma selected_ranking {rows : List Network} (hrows : Consistent rows) :
    Selected rows ((ranking rows).take maxNetworks) := by
  have hsub : ((rows.filter (strongest rows)).dedup) ⊆ rows := fun x hx =>
    mem_of_mem_filter (List.mem_dedup.mp hx)
  have hsorted := sort_sorted (nodup_dedup (rows.filter (strongest rows)))
    (rank_inj (hrows.of_subset hsub))
  have hmem : ∀ x, Best key rank rows x ↔ x ∈ ranking rows := fun x => by
    rw [best_iff hrows, ranking, mem_mergeSort, mem_dedup]
  refine ⟨?_, hsorted.sublist (take_sublist _ _)⟩
  rw [show Best key rank rows = (· ∈ ranking rows) from funext fun x => propext (hmem x)]
  exact lowest_take hsorted maxNetworks

lemma Selected.eq_ranking {rows networks : List Network} (hrows : Consistent rows)
    (h : Selected rows networks) : networks = (ranking rows).take maxNetworks :=
  h.lowest.unique (selected_ranking hrows).lowest h.sorted (selected_ranking hrows).sorted

lemma selected_nil : Selected [] [] :=
  ⟨⟨.nil, by simp, by simp, fun b hb => absurd hb.1 (by simp)⟩, .nil⟩

section Decoded

variable {profiles : Option Profiles}

lemma parseScanRow_fields {line : Text} {n : Network} (h : parseScanRow line = some n) :
    n.secured = decide (n.security ≠ .opened) ∧ n.supported = n.security.supported ∧
      n.saved = false := by
  simp only [parseScanRow, Option.bind_eq_bind, Option.bind_eq_some_iff, Option.pure_def,
    Prod.exists] at h
  obtain ⟨_, _, -, _, _, -, _, _, -, _, _, -, h⟩ := h
  split at h
  · cases h
  obtain ⟨_, -, h⟩ := Option.bind_eq_some_iff.mp h
  obtain ⟨_, -, h⟩ := Option.bind_eq_some_iff.mp h
  obtain ⟨_, -, h⟩ := Option.bind_eq_some_iff.mp h
  obtain rfl := Option.some_inj.mp h
  exact ⟨rfl, rfl, rfl⟩

def markOf (profiles : Option Profiles) (n : Network) : Option Bool :=
  match profiles with
  | some profiles =>
    if n.security.supported then scanProfileSaved profiles n.ssid n.security else some false
  | none => some false

lemma decoded_fields {line : Text} {n : Network}
    (h : (parseScanRow line).bind (markSaved profiles) = some n) :
    n.secured = decide (n.security ≠ .opened) ∧ n.supported = n.security.supported ∧
      markOf profiles n = some n.saved := by
  obtain ⟨raw, hraw, hmark⟩ := Option.bind_eq_some_iff.mp h
  obtain ⟨hsecured, hsupported, hsaved⟩ := parseScanRow_fields hraw
  rw [markSaved.eq_def] at hmark
  split at hmark
  · rw [hsupported] at hmark
    split_ifs at hmark with hwpa
    · obtain ⟨saved, hsaved, rfl⟩ := Option.map_eq_some_iff.mp hmark
      refine ⟨hsecured, rfl, ?_⟩
      rw [markOf]
      exact (if_pos hwpa).trans hsaved
    obtain rfl := Option.some_inj.mp hmark
    refine ⟨hsecured, hsupported, ?_⟩
    rw [markOf, hsaved]
    exact if_neg hwpa
  · obtain rfl := Option.some_inj.mp hmark
    exact ⟨hsecured, hsupported, by rw [markOf, hsaved]⟩

variable (profiles) in
lemma consistent_decoded (lines : List Text) : Consistent (decoded profiles lines) := by
  have hfields : ∀ n ∈ decoded profiles lines, n.secured = decide (n.security ≠ .opened) ∧
      n.supported = n.security.supported ∧ markOf profiles n = some n.saved := fun n hn => by
    obtain ⟨line, -, hline⟩ := List.mem_filterMap.mp hn
    exact decoded_fields hline
  refine ⟨fun n hn => (hfields n hn).1, fun n hn => (hfields n hn).2.1, fun n hn m hm hkey => ?_⟩
  have hmark := (hfields n hn).2.2
  obtain ⟨hssid, hsecurity⟩ := Prod.mk.inj hkey
  have hsame : markOf profiles n = markOf profiles m := by simp only [markOf, hssid, hsecurity]
  rw [hsame, (hfields m hm).2.2] at hmark
  exact (Option.some_inj.mp hmark).symm

/-- **What the loop over the lines keeps**: the selection from all rows so far. -/
theorem parseRows_selected {before lines : List Text} {networks networks' : List Network}
    (h : Selected (decoded profiles before) networks)
    (hparse : parseRows profiles lines networks = (true, networks')) :
    Selected (decoded profiles (before ++ lines)) networks' := by
  induction lines generalizing before networks with
  | nil =>
    rw [parseRows] at hparse
    obtain ⟨-, rfl⟩ := Prod.mk.inj hparse
    rwa [append_nil]
  | cons line lines ih =>
    rw [append_cons]
    have hdecoded : decoded profiles (before ++ [line]) = decoded profiles before ++
        ((parseScanRow line).bind (markSaved profiles)).toList := by
      rw [decoded, filterMap_append, decoded]
      cases h : (parseScanRow line).bind (markSaved profiles) <;> simp [h]
    have hconsistent := consistent_decoded profiles (before ++ [line])
    rw [parseRows] at hparse
    split at hparse
    · rename_i hnone
      rw [hnone] at hdecoded
      refine ih ?_ hparse
      simpa [hdecoded] using h
    rename_i network hsome
    split at hparse
    · cases hparse
    rename_i hmark
    rw [hsome, Option.bind_some, hmark] at hdecoded
    refine ih ?_ hparse
    rw [hdecoded] at hconsistent ⊢
    exact selected_step hconsistent h

/-- **After any calls without reset the list is the selection from all rows.** -/
theorem parseAll_selected {before : List Text} {outputs : List Text}
    {networks networks' : List Network} (h : Selected (decoded profiles before) networks)
    (hparse : parseAll profiles outputs networks = some networks') :
    Selected (decoded profiles (before ++ lines outputs)) networks' := by
  induction outputs generalizing before networks with
  | nil =>
    obtain rfl := Option.some_inj.mp hparse
    simpa [lines] using h
  | cons output outputs ih =>
    rw [parseAll] at hparse
    split at hparse
    · rename_i networks₁ hcall
      have hlines : before ++ lines (output :: outputs) =
          (before ++ (tokens '\n' output).tail) ++ lines outputs := by simp [lines]
      rw [hlines]
      refine ih ?_ hparse
      rw [parseScanResults] at hcall
      split at hcall
      · cases hcall
      rename_i heading rest htokens
      rw [htokens]
      by_cases hheading : scanHeading.isPrefixOf heading = true
      · rw [if_pos hheading, if_neg Bool.false_ne_true] at hcall
        exact parseRows_selected h hcall
      · rw [if_neg hheading] at hcall
        cases hcall
    · cases hparse

/-! ### The scan list -/

lemma Selected.perm {rows rows' networks : List Network} (h : Selected rows networks)
    (hperm : rows.Perm rows') : Selected rows' networks := by
  have hbest : Best key rank rows = Best key rank rows' := by
    funext x
    simp only [Best, hperm.mem_iff]
  exact ⟨hbest ▸ h.lowest, h.sorted⟩

lemma saved_of_rank_lt {x n : Network} (hlt : rank x < rank n) (hsaved : n.saved = true) :
    x.saved = true := by
  rw [rank, rank, Prod.Lex.toLex_lt_toLex, hsaved] at hlt
  rcases hlt with hlt | ⟨heq, -⟩
  · have hlt' : (!x.saved) < (!true) := hlt
    cases hx : x.saved
    · rw [hx] at hlt'
      exact absurd hlt' (by decide)
    · rfl
  · simpa using heq

lemma saved_shown {rows : List Network} (hrows : Consistent rows) {n : Network}
    (hn : n ∈ ranking rows) (hsaved : n.saved = true)
    (hfew : ((ranking rows).filter (·.saved)).length ≤ maxNetworks) :
    n ∈ (ranking rows).take maxNetworks := by
  by_contra hnot
  have hselected := selected_ranking hrows
  obtain ⟨hlen, hlower⟩ := hselected.lowest.rest n (by
    rwa [best_iff hrows, ← mem_dedup, ← mem_mergeSort]) hnot
  have hsplit := take_append_drop maxNetworks (ranking rows)
  have hdrop : n ∈ ((ranking rows).drop maxNetworks).filter (·.saved) := by
    rw [← hsplit, mem_append] at hn
    exact List.mem_filter.mpr ⟨hn.resolve_left hnot, hsaved⟩
  have htake : ((ranking rows).take maxNetworks).filter (·.saved) =
      (ranking rows).take maxNetworks :=
    List.filter_eq_self.mpr fun x hx => saved_of_rank_lt (hlower x hx) hsaved
  rw [← hsplit, filter_append, htake, length_append, hlen] at hfew
  have hpos := length_pos_of_mem hdrop
  omega

lemma parseRows_succeeds {rest : List Text} (networks : List Network)
    (hlookups : ∀ line ∈ rest, ∀ n, parseScanRow line = some n → (markSaved profiles n).isSome) :
    ∃ networks', parseRows profiles rest networks = (true, networks') := by
  induction rest generalizing networks with
  | nil => exact ⟨networks, rfl⟩
  | cons line rest ih =>
    obtain ⟨hline, hrest⟩ := List.forall_mem_cons.mp hlookups
    rw [parseRows]
    split
    · exact ih networks hrest
    rename_i network hsome
    split
    · rename_i hmark
      have h := hline network hsome
      rw [hmark] at h
      cases h
    · exact ih _ hrest

lemma parseAll_succeeds {outputs : List Text} (networks : List Network)
    (hheadings : ∀ output ∈ outputs, ∃ heading ∈ (tokens '\n' output).head?,
      scanHeading.isPrefixOf heading = true)
    (hlookups : ∀ line ∈ lines outputs, ∀ n, parseScanRow line = some n →
      (markSaved profiles n).isSome) :
    ∃ networks', parseAll profiles outputs networks = some networks' := by
  induction outputs generalizing networks with
  | nil => exact ⟨networks, rfl⟩
  | cons output outputs ih =>
    obtain ⟨⟨heading, hhead, hprefix⟩, hheadings⟩ := List.forall_mem_cons.mp hheadings
    simp only [lines, flatMap_cons, forall_mem_append] at hlookups
    obtain ⟨networks₁, hcall⟩ := parseRows_succeeds networks hlookups.1
    obtain ⟨rest, htokens⟩ := List.head?_eq_some_iff.mp hhead
    rw [parseAll, parseScanResults, htokens]
    dsimp only
    rw [htokens, tail_cons] at hcall
    rw [if_pos hprefix, if_neg Bool.false_ne_true, hcall]
    exact ih networks₁ hheadings hlookups.2

/-- **The scan list is the exact top selection.** Whatever calls the rows come in, the list is
that of all rows sorted and cut, it does not depend on their order, and a saved network is in it
unless there are too many. -/
theorem scan_list (profiles : Option Profiles) :
    (∀ outputs networks, parseAll profiles outputs [] = some networks →
      networks = (ranking (decoded profiles (lines outputs))).take maxNetworks) ∧
    (∀ outputs outputs' networks networks', (lines outputs).Perm (lines outputs') →
      parseAll profiles outputs [] = some networks →
        parseAll profiles outputs' [] = some networks' → networks = networks') ∧
    (∀ outputs networks n, parseAll profiles outputs [] = some networks →
      n ∈ ranking (decoded profiles (lines outputs)) → n.saved = true →
        ((ranking (decoded profiles (lines outputs))).filter (·.saved)).length ≤ maxNetworks →
          n ∈ networks) ∧
    ∀ outputs, (∀ output ∈ outputs, ∃ heading ∈ (tokens '\n' output).head?,
        scanHeading.isPrefixOf heading = true) →
      (∀ line ∈ lines outputs, ∀ n, parseScanRow line = some n → (markSaved profiles n).isSome) →
        ∃ networks, parseAll profiles outputs [] = some networks := by
  have hselected : ∀ outputs networks, parseAll profiles outputs [] = some networks →
      Selected (decoded profiles (lines outputs)) networks := fun outputs networks hparse =>
    @parseAll_selected profiles [] outputs [] networks selected_nil hparse
  have hranking : ∀ outputs networks, parseAll profiles outputs [] = some networks →
      networks = (ranking (decoded profiles (lines outputs))).take maxNetworks :=
    fun outputs networks hparse =>
      (hselected outputs networks hparse).eq_ranking (consistent_decoded profiles _)
  refine ⟨hranking, ?_, ?_, ?_⟩
  · intro outputs outputs' networks networks' hperm hparse hparse'
    have h := (hselected outputs networks hparse).perm (hperm.filterMap _)
    have h' := hselected outputs' networks' hparse'
    exact h.lowest.unique h'.lowest h.sorted h'.sorted
  · intro outputs networks n hparse hn hsaved hfew
    rw [hranking outputs networks hparse]
    exact saved_shown (consistent_decoded profiles _) hn hsaved hfew
  · intro outputs hheadings hlookups
    exact parseAll_succeeds [] hheadings hlookups

end Decoded

def homeProfiles : Profiles := ⟨[⟨0, false, "home".toList⟩], fun _ _ => some true⟩

def homeScan : Text :=
  ("bssid / frequency / signal level / flags / ssid\n" ++
    "02:00:00:00:00:01\t2412\t-40\t[WPA2-PSK-CCMP][ESS]\thome\n").toList

def home : Network := ⟨"home".toList, -40, true, .wpaPsk, true, true⟩

lemma decoded_home : decoded (some homeProfiles) (lines [homeScan]) = [home] := by
  decide

theorem scan_list_home : ∃ networks, parseAll (some homeProfiles) [homeScan] [] = some networks ∧
    networks = (ranking [home]).take maxNetworks ∧ home ∈ networks := by
  obtain ⟨hranking, -, hshown, hsucceeds⟩ := scan_list (some homeProfiles)
  have hlookup : ∀ n, (markSaved (some homeProfiles) n).isSome := fun n => by
    by_cases hsupported : n.supported = true
    · simp only [markSaved, hsupported, if_true, Option.isSome_map, scanProfileSaved, homeProfiles,
        reverse_singleton, profileSaved]
      split_ifs <;> rfl
    · simp [markSaved, hsupported]
  obtain ⟨networks, hparse⟩ := hsucceeds [homeScan] (by decide +kernel) fun _ _ n _ => hlookup n
  have hlist := hranking _ networks hparse
  have hhome : home ∈ ranking [home] := by
    rw [ranking, mem_mergeSort, mem_dedup]
    decide
  have hfew : ((ranking [home]).filter (·.saved)).length ≤ maxNetworks := by
    calc ((ranking [home]).filter (·.saved)).length
        ≤ (ranking [home]).length := length_filter_le _ _
      _ = ([home].filter (strongest [home])).dedup.length := length_mergeSort _
      _ ≤ maxNetworks := by decide
  rw [← decoded_home] at hhome hfew ⊢
  exact ⟨networks, hparse, hlist, hshown _ networks home hparse hhome rfl hfew⟩

end C1auncher.Wifi.ScanList
