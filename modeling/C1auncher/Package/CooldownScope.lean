import C1auncher.Package.Cooldown

/-!
A scope that `cooldown_url` makes is left as it is by `cooldown_url`, and so is its directory,
where the URL does not name its default port twice.
-/

namespace C1auncher.Package.CooldownScope

open CString Package.Cooldown List

/-! ### The parts of a scope -/

def scheme (https : Bool) : Text := if https then httpsPrefix else httpPrefix

def port (https : Bool) : Text := if https then ":443".toList else ":80".toList

/-- Whether a URL is read as one of `https`. -/
def secure (input : Text) : Bool := startsWithNoCase input httpsPrefix

/-- What stands between the scheme and the path. -/
def authority (input : Text) : Text :=
  (input.drop (scheme (secure input)).length).takeWhile (· ≠ '/')

def NamesPortTwice (input : Text) : Prop :=
  port (secure input) ++ port (secure input) <:+ authority input

/-- A host in its normal form, but for a port at its end. -/
structure Host (https : Bool) (host : Text) : Prop where
  ne_nil : host ≠ []
  short : host.length < 512
  chars : ∀ c ∈ host, hostChar c = true
  head : host.head? ≠ some ':'
  last : host.getLast? ≠ some '.'
  lower : host.map lower = host
  official : https = false → host ≠ "www.fwz233.com".toList

structure Tail (path : Text) : Prop where
  head : path = [] ∨ path.head? = some '/'
  chars : ∀ c ∈ path, pathChar c = true
  slashes : ¬"//".toList <:+: path
  dot : ¬"/./".toList <:+: path
  dots : ¬"/../".toList <:+: path
  last : path.getLast? ≠ some '/'
  lastDot : ¬"/.".toList <:+ path
  lastDots : ¬"/..".toList <:+ path

/-! ### Characters of hosts -/

lemma ascii_induction {P : Char → Prop} (h : ∀ n : Fin 128, P (Char.ofNat n)) {c : Char}
    (hc : hostChar c = true) : P c := by
  have hlt : c.toNat < 128 := by
    simp only [hostChar, decide_eq_true_eq] at hc
    have hle {d : Char} (hcd : c ≤ d) (hd : d.toNat < 128) : c.toNat < 128 :=
      lt_of_le_of_lt (show c.toNat ≤ d.toNat from hcd) hd
    rcases hc with ⟨-, h⟩ | ⟨-, h⟩ | ⟨-, h⟩ | rfl | rfl | rfl | rfl | rfl
    · exact hle h (by decide)
    · exact hle h (by decide)
    · exact hle h (by decide)
    all_goals decide
  have hsame : Char.ofNat c.toNat = c := Char.ofNat_toNat c
  rw [← hsame]
  exact h ⟨_, hlt⟩

/-- The characters of a default port, and the dot. -/
def fixedChars : List Char := [':', '8', '0', '4', '3', '.']

/-- What `lower` does to a character of a host. -/
def Lowered (c : Char) : Prop :=
  hostChar (Cooldown.lower c) = true ∧ Cooldown.lower (Cooldown.lower c) = Cooldown.lower c ∧
    (fixedChars.contains (Cooldown.lower c) = true → Cooldown.lower c = c) ∧
    (fixedChars.contains c = true → Cooldown.lower c = c) ∧ c ≠ '/'

instance (c : Char) : Decidable (Lowered c) := 
  inferInstanceAs (Decidable (_ ∧ _ ∧ _ ∧ _ ∧ _))

lemma lowered {c : Char} (hc : hostChar c = true) : Lowered c :=
  ascii_induction (P := fun c => hostChar c = true → Lowered c) (by decide) hc hc

variable {text host path : Text} {https : Bool}

lemma suffix_map_lower {suffix : Text} (htext : ∀ c ∈ text, hostChar c = true)
    (hsuffix : ∀ c ∈ suffix, c ∈ fixedChars) :
    suffix <:+ text.map Cooldown.lower ↔ suffix <:+ text := by
  have hself {l : Text} (hl : ∀ c ∈ l, Cooldown.lower c = c) : l.map Cooldown.lower = l := by
    conv_rhs => rw [← map_id l]
    exact map_congr_left hl
  constructor
  · intro h
    obtain ⟨l, hl, rfl⟩ := List.suffix_map_iff.mp h
    rwa [hself fun c hc => (lowered (htext c (hl.mem hc))).2.2.1
      (by simpa using hsuffix _ (mem_map_of_mem hc))]
  intro h
  have hmap := h.map Cooldown.lower
  rwa [hself fun c hc => (lowered (htext c (h.mem hc))).2.2.2.1
    (by simpa using hsuffix c hc)] at hmap

lemma port_fixed (https : Bool) : ∀ c ∈ port https, c ∈ fixedChars := by
  cases https <;> simp [port, fixedChars]

/-! ### Hosts -/

lemma dropSuffix_eq {suffix : Text} (h : ¬suffix <:+ text) : dropSuffix text suffix = text :=
  if_neg (by simpa using h)

lemma dropSuffix_append (text suffix : Text) : dropSuffix (text ++ suffix) suffix = text := by
  simp [dropSuffix]

lemma port_suffix_dropSuffix (https : Bool) (text : Text) :
    port https <:+ dropSuffix text (port https) ↔ port https ++ port https <:+ text := by
  by_cases h : port https <:+ text
  · obtain ⟨before, rfl⟩ := h
    rw [dropSuffix_append]
    constructor
    · rintro ⟨first, rfl⟩
      exact ⟨first, by simp⟩
    rintro ⟨first, hfirst⟩
    refine ⟨first, ?_⟩
    rw [← append_assoc] at hfirst
    exact append_cancel_right hfirst
  · rw [dropSuffix_eq h]
    exact iff_of_false h fun hp => h ((suffix_append _ _).trans hp)

lemma cooldownHost_unfold (https : Bool) (text : Text) :
    cooldownHost https text =
      let host := dropSuffix text (port https)
      if host = [] ∨ 512 ≤ host.length ∨ ¬host.all hostChar then none
      else if host.head? = some ':' ∨ host.getLast? = some '.' then none
      else if !https ∧ host.map Cooldown.lower = "www.fwz233.com".toList then
        some "123.56.214.77".toList
      else some (host.map Cooldown.lower) := rfl

lemma host_official : Host false "123.56.214.77".toList where
  ne_nil := by decide
  short := by decide
  chars := List.all_eq_true.mp (by decide)
  head := by decide
  last := by decide
  lower := by decide
  official := fun _ => by decide

lemma cooldownHost_spec (h : cooldownHost https text = some host) :
    Host https host ∧ host.length ≤ (dropSuffix text (port https)).length ∧
      (port https <:+ host ↔ port https ++ port https <:+ text) := by
  rw [← port_suffix_dropSuffix]
  rw [cooldownHost_unfold] at h
  generalize dropSuffix text (port https) = bare at h ⊢
  dsimp only at h
  split_ifs at h with hbad hends halias <;> cases h
  all_goals
    obtain ⟨hnil, hlen, hall⟩ : bare ≠ [] ∧ bare.length < 512 ∧ bare.all hostChar = true := by
      simpa using hbad
    have hchars := List.all_eq_true.mp hall
  · -- the official mirror
    obtain ⟨hhttp, hwww⟩ := halias
    obtain rfl : https = false := by simpa using hhttp
    have hlength := congrArg List.length hwww
    rw [length_map] at hlength
    refine ⟨host_official, by rw [hlength]; decide, iff_of_false (by decide) ?_⟩
    rw [← suffix_map_lower hchars (port_fixed false), hwww]
    decide
  · obtain ⟨hcolon, hdot⟩ := not_or.mp hends
    have hkeep {c d : Char} (hc : c ∈ bare) (hd : d ∈ fixedChars) (h : Cooldown.lower c = d) :
        c = d := by
      subst h
      exact ((lowered (hchars c hc)).2.2.1 (by simpa using hd)).symm
    refine ⟨⟨by simpa using hnil, by simpa using hlen, ?_, ?_, ?_, ?_, ?_⟩, by simp,
      suffix_map_lower hchars (port_fixed https)⟩
    · intro c hc
      obtain ⟨d, hd, rfl⟩ := List.mem_map.mp hc
      exact (lowered (hchars d hd)).1
    · intro hhead
      rw [head?_map, Option.map_eq_some_iff] at hhead
      obtain ⟨c, hc, hlower⟩ := hhead
      exact hcolon (hkeep (mem_of_mem_head? hc) (by decide) hlower ▸ hc)
    · intro hlast
      rw [getLast?_map, Option.map_eq_some_iff] at hlast
      obtain ⟨c, hc, hlower⟩ := hlast
      exact hdot (hkeep (mem_of_getLast? hc) (by decide) hlower ▸ hc)
    · rw [map_map]
      exact map_congr_left fun c hc => (lowered (hchars c hc)).2.1
    · intro hhttp hwww
      exact halias ⟨by simp [hhttp], hwww⟩

lemma cooldownHost_eq (h : Host https host) :
    cooldownHost https host = some host ↔ ¬port https <:+ host := by
  constructor
  · intro hfixed hport
    obtain ⟨before, rfl⟩ := hport
    have hlen := (cooldownHost_spec hfixed).2.1
    rw [dropSuffix_append] at hlen
    cases https <;> simp [port] at hlen
  · intro hport
    rw [cooldownHost_unfold, dropSuffix_eq hport]
    dsimp only
    rw [if_neg, if_neg, if_neg, h.lower]
    · rintro ⟨hhttp, hwww⟩
      exact h.official (by simpa using hhttp) (h.lower ▸ hwww)
    · exact not_or.mpr ⟨h.head, h.last⟩
    · simpa [h.ne_nil, h.short] using h.chars

lemma Host.no_slash (h : Host https host) : ∀ c ∈ host, c ≠ '/' :=
  fun c hc => (lowered (h.chars c hc)).2.2.2.2

/-! ### Paths -/

lemma dropSlashes_starts (path : Text) : dropSlashes path <+: path :=
  rdropWhile_prefix (· = '/') path

lemma dropSlashes_last (path : Text) : (dropSlashes path).getLast? ≠ some '/' := by
  intro h
  have hne : dropSlashes path ≠ [] := by
    rintro hnil
    rw [hnil] at h
    cases h
  have hlast : ¬decide ((dropSlashes path).getLast hne = '/') = true :=
    rdropWhile_last_not _ path hne
  rw [getLast?_eq_some_getLast hne] at h
  exact hlast (decide_eq_true (Option.some.inj h))

lemma dropSlashes_eq (h : path.getLast? ≠ some '/') : dropSlashes path = path := by
  rcases eq_nil_or_concat path with rfl | ⟨before, c, rfl⟩
  · rfl
  · rw [concat_eq_append] at h ⊢
    exact rdropWhile_concat_neg _ before c (by simpa using h)

lemma dropSlashes_append (path : Text)
    (h : ∀ c ∈ host, c ≠ '/') : dropSlashes (host ++ path) = host ++ dropSlashes path := by
  induction path using reverseRecOn with
  | nil =>
    rw [append_nil, dropSlashes_eq]
    · simp [dropSlashes]
    · intro hlast
      exact h _ (mem_of_getLast? hlast) rfl
  | append_singleton path c ih =>
    rw [← append_assoc]
    by_cases hc : c = '/'
    · have hdrop (text : Text) : dropSlashes (text ++ [c]) = dropSlashes text :=
        rdropWhile_concat_pos _ _ c (by simpa using hc)
      rw [hdrop, hdrop, ih]
    have hkeep (text : Text) : dropSlashes (text ++ [c]) = text ++ [c] :=
      rdropWhile_concat_neg _ _ c (by simpa using hc)
    rw [hkeep, hkeep, append_assoc]

lemma head_starts {before : Text} (h : before <+: path)
    (hpath : path = [] ∨ path.head? = some '/') : before = [] ∨ before.head? = some '/' := by
  obtain ⟨after, rfl⟩ := h
  cases before with
  | nil => exact .inl rfl
  | cons c before => exact .inr (by simpa using hpath)

lemma Tail.of_dropSlashes (hhead : path = [] ∨ path.head? = some '/')
    (hchars : ∀ c ∈ path, pathChar c = true) (hslashes : ¬"//".toList <:+: path)
    (hdot : ¬"/./".toList <:+: path) (hdots : ¬"/../".toList <:+: path)
    (hlastDot : ¬"/.".toList <:+ dropSlashes path)
    (hlastDots : ¬"/..".toList <:+ dropSlashes path) : Tail (dropSlashes path) := by
  have hpre := dropSlashes_starts path
  exact ⟨head_starts hpre hhead, fun c hc => hchars c (hpre.mem hc),
    fun h => hslashes (h.trans hpre.isInfix), fun h => hdot (h.trans hpre.isInfix),
    fun h => hdots (h.trans hpre.isInfix), dropSlashes_last path, hlastDot, hlastDots⟩

lemma Tail.cut {before after : Text} (h : Tail (before ++ '/' :: after)) : Tail before := by
  have hpre : before <+: before ++ '/' :: after := prefix_append _ _
  -- what the shorter path ends in stands before a slash in the longer one
  have hends {pattern : Text} (hp : pattern <:+ before) :
      pattern ++ ['/'] <:+: before ++ '/' :: after := by
    obtain ⟨first, rfl⟩ := hp
    exact ⟨first, after, by simp⟩
  refine ⟨head_starts hpre h.head, fun c hc => h.chars c (hpre.mem hc),
    fun hs => h.slashes (hs.trans hpre.isInfix), fun hs => h.dot (hs.trans hpre.isInfix),
    fun hs => h.dots (hs.trans hpre.isInfix), fun hlast => ?_, fun hs => h.dot (hends hs),
    fun hs => h.dots (hends hs)⟩
  obtain ⟨first, rfl⟩ := List.getLast?_eq_some_iff.mp hlast
  exact h.slashes (hends (suffix_append first ['/']))

/-! ### URLs -/

lemma secure_scheme (https : Bool) (rest : Text) : secure (scheme https ++ rest) = https := by
  cases https
  · refine beq_eq_false_iff_ne.mpr fun h => ?_
    have hfourth : some ':' = some 's' := congrArg (fun text : Text => text[4]?) h
    exact absurd hfourth (by decide)
  refine beq_iff_eq.mpr ?_
  rw [show scheme true = httpsPrefix from rfl, take_left]
  decide

/-- What `cooldown_url` makes of a host and a path. -/
def assemble (https : Bool) (path host : Text) : Option Text :=
  if "//".toList <:+: path ∨ "/./".toList <:+: path ∨ "/../".toList <:+: path then none
  else if ¬path.all pathChar ∨ urlMax ≤ (scheme https ++ host ++ path).length then none
  else
    let output := scheme https ++ dropSlashes (host ++ path)
    if "/.".toList.isSuffixOf output ∨ "/..".toList.isSuffixOf output then none
    else some output

lemma cooldownUrl_unfold (input : Text) :
    cooldownUrl input =
      if ¬secure input ∧ ¬startsWithNoCase input httpPrefix then none
      else if input.drop (scheme (secure input)).length = [] ∨ urlMax ≤ input.length then none
      else (cooldownHost (secure input) (authority input)).bind
        (assemble (secure input)
          ((input.drop (scheme (secure input)).length).dropWhile (· ≠ '/'))) := rfl

lemma split_host (hhost : ∀ c ∈ host, c ≠ '/')
    (hpath : path = [] ∨ path.head? = some '/') :
    (host ++ path).takeWhile (· ≠ '/') = host ∧ (host ++ path).dropWhile (· ≠ '/') = path := by
  have hall : ∀ c ∈ host, decide (c ≠ '/') = true := fun c hc => by simpa using hhost c hc
  rw [takeWhile_append_of_pos hall, dropWhile_append_of_pos hall]
  rcases path with _ | ⟨c, path⟩
  · simp
  · obtain rfl : c = '/' := by simpa using hpath
    simp

lemma dot_suffix (hhost : Host https host) (hpath : Tail path) :
    ¬"/.".toList <:+ scheme https ++ host ++ path ∧
      ¬"/..".toList <:+ scheme https ++ host ++ path := by
  have hmine : path <:+ scheme https ++ host ++ path := suffix_append _ _
  rcases path with _ | ⟨slash, path⟩
  · -- the dot would be the last character of the host
    have hdot {pattern : Text} (hp : pattern <:+ scheme https ++ host ++ [])
        (hlast : pattern.getLast? = some '.') : False := by
      obtain ⟨before, hbefore⟩ := hp
      have heq := congrArg getLast? hbefore
      rw [getLast?_append_of_ne_nil _ (by rintro rfl; cases hlast), hlast, append_nil,
        getLast?_append_of_ne_nil _ hhost.ne_nil] at heq
      exact hhost.last heq.symm
    exact ⟨fun h => hdot h rfl, fun h => hdot h rfl⟩
  · obtain rfl : slash = '/' := by simpa using hpath.head
    rcases path with _ | ⟨c, path⟩
    · exact absurd rfl hpath.last
    refine ⟨fun h => hpath.lastDot (suffix_of_suffix_length_le h hmine (by simp)),
      fun h => ?_⟩
    rcases path with _ | ⟨d, path⟩
    · have hdots : "..".toList <:+ ['/', c] :=
        suffix_of_suffix_length_le (IsSuffix.trans (by decide) h) hmine (by simp)
      have heq := hdots.eq_of_length rfl
      exact absurd (congrArg head? heq) (by simp)
    · exact hpath.lastDots (suffix_of_suffix_length_le h hmine (by simp))

lemma cooldownUrl_scope (hhost : Host https host)
    (hpath : Tail path) (hshort : (scheme https ++ host ++ path).length < urlMax) :
    cooldownUrl (scheme https ++ host ++ path) =
      (cooldownHost https host).map (scheme https ++ · ++ path) := by
  obtain ⟨htake, hdrop⟩ := split_host hhost.no_slash hpath.head
  rw [cooldownUrl_unfold, authority, append_assoc, secure_scheme, drop_left, htake, hdrop,
    if_neg, if_neg]
  · rw [Option.map_eq_bind]
    refine Option.bind_congr fun host' hhost' => ?_
    obtain ⟨hnormal, hlen, -⟩ := cooldownHost_spec hhost'
    have hbare : (dropSuffix host (port https)).length ≤ host.length := by
      unfold dropSuffix
      split_ifs <;> simp
    have hslashes : dropSlashes (host' ++ path) = host' ++ path := by
      rw [dropSlashes_append path hnormal.no_slash, dropSlashes_eq hpath.last]
    have hdots := dot_suffix hnormal hpath
    rw [append_assoc] at hdots
    simp only [length_append] at hshort
    unfold assemble
    rw [if_neg (not_or.mpr ⟨hpath.slashes, not_or.mpr ⟨hpath.dot, hpath.dots⟩⟩), if_neg, hslashes]
    · simpa using hdots
    · rw [not_or, not_not, not_le]
      exact ⟨List.all_eq_true.mpr hpath.chars, by simp only [length_append]; omega⟩
  · rw [not_or, not_le, ← append_assoc]
    exact ⟨by simp [hhost.ne_nil], hshort⟩
  · cases https
    · simp [scheme, startsWithNoCase]
      decide
    · simp

lemma cooldownUrl_parts {input scope : Text} (h : cooldownUrl input = some scope) :
    ∃ host path, scope = scheme (secure input) ++ host ++ path ∧
      cooldownHost (secure input) (authority input) = some host ∧ Tail path ∧
      scope.length < urlMax := by
  rw [cooldownUrl_unfold] at h
  split_ifs at h
  obtain ⟨host, hhost, hassemble⟩ := Option.bind_eq_some_iff.mp h
  have hhead : (input.drop (scheme (secure input)).length).dropWhile (· ≠ '/') = [] ∨
      ((input.drop (scheme (secure input)).length).dropWhile (· ≠ '/')).head? = some '/' := by
    have hnot := head?_dropWhile_not (· ≠ '/')
      (input.drop (scheme (secure input)).length)
    split at hnot
    · rename_i c hc
      exact .inr (hc.trans (congrArg some (by simpa using hnot)))
    · rename_i hnone
      exact .inl (List.head?_eq_none_iff.mp hnone)
  generalize (input.drop (scheme (secure input)).length).dropWhile (· ≠ '/') = path at *
  have hnormal := (cooldownHost_spec hhost).1
  unfold assemble at hassemble
  dsimp only at hassemble
  rw [dropSlashes_append path hnormal.no_slash, ← append_assoc] at hassemble
  split_ifs at hassemble with hinner hshort hends
  cases hassemble
  simp only [not_or, not_not, not_le] at hinner hshort hends
  obtain ⟨hslashes, hdot, hdots⟩ := hinner
  refine ⟨host, dropSlashes path, rfl, hhost, Tail.of_dropSlashes hhead
    (List.all_eq_true.mp hshort.1) hslashes hdot hdots ?_ ?_, ?_⟩
  · exact fun hs => hends.1 (List.isSuffixOf_iff_suffix.mpr (hs.trans (suffix_append _ _)))
  · exact fun hs => hends.2 (List.isSuffixOf_iff_suffix.mpr (hs.trans (suffix_append _ _)))
  have hlen := (dropSlashes_starts path).length_le
  simp only [length_append] at hshort ⊢
  omega

/-! ### Normal forms -/

lemma append_middle {a b c d : Text} (h : a ++ b ++ d = a ++ c ++ d) : b = c :=
  append_cancel_left (append_cancel_right h)

lemma cooldownUrl_fixed (hhost : Host https host)
    (hpath : Tail path) (hshort : (scheme https ++ host ++ path).length < urlMax) :
    cooldownUrl (scheme https ++ host ++ path) = some (scheme https ++ host ++ path) ↔
      ¬port https <:+ host := by
  rw [cooldownUrl_scope hhost hpath hshort, ← cooldownHost_eq hhost, Option.map_eq_some_iff]
  constructor
  · rintro ⟨host', hhost', heq⟩
    rw [hhost', append_middle heq]
  · exact fun hfixed => ⟨host, hfixed, rfl⟩

lemma isPrefixOf_scheme (https : Bool) (rest : Text) :
    httpsPrefix.isPrefixOf (scheme https ++ rest) = https := by
  cases https
  · rfl
  · exact List.isPrefixOf_iff_prefix.mpr (prefix_append _ _)

lemma parentScope_parts (hhost : Host https host)
    (hpath : Tail path) : ∃ before, Tail before ∧ before <+: path ∧
      parentScope (scheme https ++ host ++ path) = scheme https ++ host ++ before := by
  have hpre : (if httpsPrefix.isPrefixOf (scheme https ++ host ++ path) then httpsPrefix.length
      else httpPrefix.length) = (scheme https).length := by
    rw [append_assoc, isPrefixOf_scheme]
    cases https <;> rfl
  have hrest : (scheme https ++ host ++ path).drop (scheme https).length = host ++ path := by
    rw [append_assoc, drop_left]
  unfold parentScope
  rw [hpre]
  dsimp only
  rw [hrest]
  by_cases hslash : '/' ∈ path
  · obtain ⟨last, before, hrev, hnone⟩ := eq_append_cons_of_mem (List.mem_reverse.mpr hslash)
    have hparts : path = before.reverse ++ '/' :: last.reverse := by
      rw [← reverse_reverse path, hrev]
      simp
    have htail : (host ++ path).reverse.takeWhile (· ≠ '/') = last := by
      rw [reverse_append, hrev, append_assoc, takeWhile_append_of_pos]
      · simp
      · exact fun c hc => by simpa using fun heq : c = '/' => hnone (heq ▸ hc)
    have hindex : (host ++ path).length - 1 - last.length = (host ++ before.reverse).length := by
      simp only [hparts, length_append, length_cons, length_reverse]
      omega
    subst hparts
    refine ⟨before.reverse, hpath.cut, prefix_append _ _, ?_⟩
    simp only [mem_append, hslash, or_true, if_true, htail, hindex]
    rw [← length_append, ← append_assoc, ← append_assoc, take_left]
  · refine ⟨path, hpath, prefix_rfl, if_neg ?_⟩
    rw [mem_append]
    exact not_or.mpr ⟨fun h => hhost.no_slash _ h rfl, hslash⟩

/-- **A scope is a fixed point, and so is its directory,** if and only if the URL does not name
its default port twice. -/
theorem cooldownUrl_idempotent {input scope : Text} (h : cooldownUrl input = some scope) :
    cooldownUrl scope = some scope ∧ cooldownUrl (parentScope scope) = some (parentScope scope) ↔
      ¬NamesPortTwice input := by
  obtain ⟨host, path, rfl, hhost, hpath, hshort⟩ := cooldownUrl_parts h
  obtain ⟨hnormal, -, hport⟩ := cooldownHost_spec hhost
  obtain ⟨before, hbefore, hpre, hparent⟩ := parentScope_parts hnormal hpath
  have hlen := hpre.length_le
  rw [hparent, cooldownUrl_fixed hnormal hpath hshort, cooldownUrl_fixed hnormal hbefore, and_self,
    hport, NamesPortTwice]
  simp only [length_append] at hshort ⊢
  omega

end C1auncher.Package.CooldownScope
