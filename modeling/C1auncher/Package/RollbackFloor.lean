import C1auncher.Package.Repo

/-!
No index below the floor, or below an index handed out before.

A refresh raises the floor before its index becomes the cache and before it is handed out, so
every index it hands out is at the floor from then on. The cache is checked against the floor
when it is loaded, and does not raise it.
-/

namespace C1auncher.Package.RollbackFloor

open Durable Durable.Prog CString Package.Repo List Option

variable {ι : Type} {F : Formats ι} {d d' : Cache} {key : Option Text}

/-! ### The floor -/

/-- The floor a load finds, where the file is sound. -/
def floor (d : Cache) : Option UInt64 :=
  match d.highest with
  | none => some 0
  | some text => parseHighest text

lemma wp_readFile {file : Cache → Option Text} {limit : ℕ} :
    wp (readFile file limit) (fun text d' => d' = d ∧ file d = some text ∧ text.length ≤ limit)
      (· = d) (· = d) d := by
  refine wp_bind (wp_look (wp_get (fun text h => ?_) fun _ => rfl) rfl rfl)
  have := filter_eq_some_iff.mp h
  exact ⟨rfl, this.1, by simpa using this.2⟩

lemma wp_loadHighestSequence :
    wp loadHighestSequence (fun f d' => d' = d ∧ floor d = some f) (· = d) (· = d) d := by
  have hread : wp (do
      let text ← readFile Cache.highest 32
      .get (parseHighest text) : Prog Cache UInt64)
      (fun f d' => d' = d ∧ floor d = some f) (· = d) (· = d) d := by
    refine wp_bind (wp_mono wp_readFile ?_ (fun _ h => h) fun _ h => h)
    rintro text _ ⟨rfl, htext, -⟩
    exact wp_get (fun f hf => ⟨rfl, by simp [floor, htext, hf]⟩) fun _ => rfl
  refine wp_bind (wp_attempt (wp_look ?_ hread rfl))
  cases h : d.highest with
  | none => exact wp_pure ⟨rfl, by simp [floor, h]⟩
  | some text => exact hread

lemma parseHighest_decimal {n : UInt64} (h : n ≠ 0) :
    parseHighest (decimal n ++ ['\n']) = some n := by
  have hlen := decimal_length_le n
  have hpos : (decimal n).length ≠ 0 := by simpa using decimal_ne_nil n
  have hzero : '\x00' ∉ decimal n ++ ['\n'] := by
    intro hc
    rcases mem_append.mp hc with hc | hc
    · exact absurd (decimal_isDigit hc) (by decide)
    · simp at hc
  have hsound : ¬((decimal n ++ ['\n']).length < 2 ∨ 32 < (decimal n ++ ['\n']).length ∨
      '\x00' ∈ decimal n ++ ['\n'] ∨ (decimal n ++ ['\n']).getLast? ≠ some '\n') := by
    simp only [hzero, length_append, length_singleton, getLast?_concat, ne_eq, not_true, or_false]
    omega
  rw [parseHighest, if_neg hsound, dropLast_concat]
  exact parseU64_decimal true fun _ => h

/-! ### Pairs -/

/-- The exact bytes passed the check with this signature. -/
structure Genuine (F : Formats ι) (h : Handout ι) : Prop where
  verify : F.verify h.signature h.data h.key
  parse : F.parse h.data = some h.index

lemma wp_verifyFiles {signature index : Cache → Option Text} :
    wp (verifyFiles F key signature index)
      (fun h d' => d' = d ∧ Genuine F h ∧ key = some h.key ∧ signature d = some h.signature ∧
        h.signature.length = signatureSize ∧ index d = some h.data ∧ h.data.length ≤ indexMax)
      (· = d) (· = d) d := by
  refine wp_bind (wp_get (fun k hk => ?_) fun _ => rfl)
  refine wp_bind (wp_mono wp_readFile ?_ (fun _ h => h) fun _ h => h)
  rintro sig _ ⟨rfl, hsig, -⟩
  refine wp_bind (wp_require (fun hlen => ?_) fun _ => rfl)
  refine wp_bind (wp_mono wp_readFile ?_ (fun _ h => h) fun _ h => h)
  rintro data _ ⟨rfl, hdata, -⟩
  refine wp_bind (wp_require (fun hverify => ?_) fun _ => rfl)
  refine wp_bind (wp_mono wp_readFile ?_ (fun _ h => h) fun _ h => h)
  rintro data' _ ⟨rfl, hdata', hmax⟩
  obtain rfl := some.inj (hdata.symm.trans hdata')
  refine wp_bind (wp_get (fun candidate hparse => wp_pure ?_) fun _ => rfl)
  exact ⟨rfl, ⟨hverify, hparse⟩, hk, hsig, hlen, hdata, hmax⟩

/-! ### The cache -/

/-- The signature and the index a load finds. -/
def cachedPair (d : Cache) : Option (Text × Text) :=
  match d.verified with
  | some bundle =>
    if signatureSize < bundle.length then
      some (bundle.take signatureSize, bundle.drop signatureSize)
    else none
  | none =>
    match d.signature, d.index with
    | some sig, some data => some (sig, data)
    | _, _ => none

/-- What a load takes from the cache, before it looks at the floor. -/
def cached (F : Formats ι) (key : Option Text) (d : Cache) : Option (Handout ι) :=
  match key, cachedPair d with
  | some key, some (sig, data) =>
    if sig.length = signatureSize ∧ data.length ≤ indexMax ∧ F.verify sig data key then
      (F.parse data).map fun index => ⟨key, sig, data, index⟩
    else none
  | _, _ => none

variable {h : Handout ι} {highest f : UInt64} {step : Step} {steps : List Step}

lemma cached_eq_some : cached F key d = some h ↔
    key = some h.key ∧ cachedPair d = some (h.signature, h.data) ∧
      h.signature.length = signatureSize ∧ h.data.length ≤ indexMax ∧ Genuine F h := by
  unfold cached
  constructor
  · intro heq
    split at heq
    · rename_i k sig data hpair
      split_ifs at heq with hsound
      obtain ⟨index, hparse, rfl⟩ := map_eq_some_iff.mp heq
      exact ⟨rfl, hpair, hsound.1, hsound.2.1, hsound.2.2, hparse⟩
    · cases heq
  · rintro ⟨rfl, hpair, hlen, hmax, hgenuine⟩
    simp [hpair, hlen, hmax, hgenuine.verify, hgenuine.parse]

lemma wp_verifyBundle : wp (verifyBundle F key)
    (fun h d' => d' = d ∧ cached F key d = some h) (· = d) (· = d) d := by
  refine wp_bind (wp_get (fun k hk => ?_) fun _ => rfl)
  refine wp_bind (wp_mono wp_readFile ?_ (fun _ h => h) fun _ h => h)
  rintro bundle _ ⟨rfl, hbundle, hmax⟩
  refine wp_bind (wp_require (fun hverify => ?_) fun _ => rfl)
  refine wp_bind (wp_get (fun candidate hparse => wp_pure ?_) fun _ => rfl)
  refine ⟨rfl, cached_eq_some.mpr ⟨hk, ?_, ?_, ?_, hverify.2, hparse⟩⟩
  · simp [cachedPair, hbundle, hverify.1]
  · rw [length_take]
    have := hverify.1
    omega
  · rw [length_drop]
    omega

lemma wp_cached : wp (do
      match ← .attempt (.look Cache.verified) with
      | some none => verifyFiles F key Cache.signature Cache.index
      | _ => verifyBundle F key : Prog Cache (Handout ι))
      (fun h d' => d' = d ∧ cached F key d = some h) (· = d) (· = d) d := by
  refine wp_bind (wp_attempt (wp_look ?_ wp_verifyBundle rfl))
  cases hv : d.verified with
  | some bundle => exact wp_verifyBundle
  | none =>
    refine wp_mono wp_verifyFiles ?_ (fun _ h => h) fun _ h => h
    rintro h _ ⟨rfl, hgenuine, hkey, hsig, hlen, hdata, hmax⟩
    refine ⟨rfl, cached_eq_some.mpr ⟨hkey, ?_, hlen, hmax, hgenuine⟩⟩
    simp [cachedPair, hv, hsig, hdata]

lemma wp_loadCached : wp (loadCached F key)
    (fun h d' => d' = d ∧ cached F key d = some h ∧
      ∃ f, floor d = some f ∧ f ≤ F.sequence h.index) (· = d) (· = d) d := by
  refine wp_bind (wp_mono wp_cached ?_ (fun _ h => h) fun _ h => h)
  rintro h _ ⟨rfl, hh⟩
  refine wp_bind (wp_mono wp_loadHighestSequence ?_ (fun _ h => h) fun _ h => h)
  rintro f _ ⟨rfl, hf⟩
  refine wp_bind (wp_require (fun hle => wp_pure ?_) fun _ => rfl)
  exact ⟨rfl, hh, f, hf, UInt64.not_lt.mp hle⟩

/-! ### One attempt after another -/

/-- Only temporary files differ. -/
structure Kept (d d' : Cache) : Prop where
  highest : d'.highest = d.highest
  verified : d'.verified = d.verified
  index : d'.index = d.index
  signature : d'.signature = d.signature

lemma Kept.refl (d : Cache) : Kept d d := ⟨rfl, rfl, rfl, rfl⟩

lemma Kept.trans {a b c : Cache} (h : Kept a b) (h' : Kept b c) : Kept a c :=
  ⟨h'.highest.trans h.highest, h'.verified.trans h.verified, h'.index.trans h.index,
    h'.signature.trans h.signature⟩

lemma Kept.floor {d d' : Cache} (h : Kept d d') : floor d' = floor d := by
  simp only [RollbackFloor.floor, h.highest]

lemma kept_indexTmp (text : Option Text) (d : Cache) : Kept d (d.setIndexTmp text) :=
  ⟨rfl, rfl, rfl, rfl⟩

lemma kept_signatureTmp (text : Option Text) (d : Cache) : Kept d (d.setSignatureTmp text) :=
  ⟨rfl, rfl, rfl, rfl⟩

lemma kept_bundleTmp (text : Option Text) (d : Cache) : Kept d (d.setBundleTmp text) :=
  ⟨rfl, rfl, rfl, rfl⟩

lemma wp_fetchEndpoint (set : Option Text → Cache → Cache) {limit : ℕ} {reply : Fetched}
    (hset : ∀ t t' d, set t (set t' d) = set t d) :
    wp (fetchEndpoint set limit reply)
      (fun b d' => ∃ t, d' = set t d ∧ (b = true → ∃ text, reply = .file text ∧ t = some text))
      (fun d' => d' = d ∨ ∃ t, d' = set t d) (fun d' => d' = d ∨ ∃ t, d' = set t d) d := by
  cases reply with
  | file text =>
    refine wp_bind (wp_act ?_ (.inl rfl) (.inl rfl))
    split_ifs
    · refine wp_bind (wp_act (wp_pure ?_) (.inr ⟨_, rfl⟩) (.inr ⟨_, rfl⟩))
      exact ⟨some text, hset _ _ _, fun _ => ⟨text, rfl, rfl⟩⟩
    · exact wp_bind (wp_act (wp_fail (.inr ⟨_, hset _ _ _⟩)) (.inr ⟨_, rfl⟩) (.inr ⟨_, rfl⟩))
  | failed =>
    exact wp_bind (wp_act (wp_pure ⟨none, rfl, fun h => by cases h⟩) (.inl rfl) (.inl rfl))
  | stopped => exact wp_bind (wp_act (wp_fail (.inr ⟨_, rfl⟩)) (.inl rfl) (.inl rfl))

/-- A verified pair that lies in the temporary files. -/
structure Ready (F : Formats ι) (key : Option Text) (highest : UInt64) (h : Handout ι)
    (d : Cache) : Prop where
  genuine : Genuine F h
  key : key = some h.key
  highest : highest ≤ F.sequence h.index
  data : d.indexTmp = some h.data
  signature : d.signatureTmp = some h.signature
  length : h.signature.length = signatureSize

lemma wp_tryFetched {offer : Fetched × Fetched} {d1 : Cache} (h1 : Kept d d1) :
    wp (do
      .tick
      if ¬(← fetchEndpoint Cache.setIndexTmp indexMax offer.1) then pure .nextEndpoint
      else if ¬(← fetchEndpoint Cache.setSignatureTmp signatureSize offer.2) then
        pure .nextEndpoint
      else
        match ← .attempt (verifyFiles F key Cache.signatureTmp Cache.indexTmp) with
        | none => pure .again
        | some candidate =>
          if highest ≤ F.sequence candidate.index then pure (.verified candidate)
          else pure .nextEndpoint : Prog Cache (Attempt ι))
      (fun r d' => Kept d d' ∧ ∀ h, r = .verified h →
        Ready F key highest h d' ∧ offer = (.file h.data, .file h.signature))
      (Kept d) (Kept d) d1 := by
  have hindex : ∀ d2, (d2 = d1 ∨ ∃ t, d2 = d1.setIndexTmp t) → Kept d d2 := by
    rintro d2 (rfl | ⟨t, rfl⟩)
    · exact h1
    · exact h1.trans (kept_indexTmp t _)
  refine wp_bind (wp_tick ?_ h1 h1)
  refine wp_bind (wp_mono (wp_fetchEndpoint Cache.setIndexTmp fun _ _ _ => rfl) ?_ hindex
    hindex)
  intro got d2 hgot
  obtain ⟨t, rfl, hgot⟩ := hgot
  have h2 := h1.trans (kept_indexTmp t d1)
  by_cases hg : ¬got = true
  · rw [if_pos hg]
    exact wp_pure ⟨h2, fun _ h => by cases h⟩
  rw [if_neg hg]
  have hsig : ∀ d3, (d3 = d1.setIndexTmp t ∨ ∃ t', d3 = (d1.setIndexTmp t).setSignatureTmp t') →
      Kept d d3 := by
    rintro d3 (rfl | ⟨t', rfl⟩)
    · exact h2
    · exact h2.trans (kept_signatureTmp t' _)
  refine wp_bind (wp_mono (wp_fetchEndpoint Cache.setSignatureTmp fun _ _ _ => rfl) ?_ hsig
    hsig)
  intro got' d3 hgot'
  obtain ⟨t', rfl, hgot'⟩ := hgot'
  have h3 := h2.trans (kept_signatureTmp t' _)
  by_cases hg' : ¬got' = true
  · rw [if_pos hg']
    exact wp_pure ⟨h3, fun _ h => by cases h⟩
  rw [if_neg hg']
  obtain ⟨index, hoffer, rfl⟩ := hgot (not_not.mp hg)
  obtain ⟨sig, hoffer', rfl⟩ := hgot' (not_not.mp hg')
  refine wp_bind (wp_attempt (wp_mono wp_verifyFiles ?_ ?_ ?_))
  · rintro h _ ⟨rfl, hgenuine, hkey, hsig, hlen, hdata, -⟩
    dsimp only
    split_ifs with hle
    · refine wp_pure ⟨h3, ?_⟩
      intro h' heq
      cases heq
      refine ⟨⟨hgenuine, hkey, hle, hdata, hsig, hlen⟩, ?_⟩
      have hdata : index = h.data := some.inj hdata
      have hsig : sig = h.signature := some.inj hsig
      rw [← hdata, ← hsig, ← hoffer, ← hoffer']
    · exact wp_pure ⟨h3, fun _ h => by cases h⟩
  · rintro _ rfl
    exact wp_pure ⟨h3, fun _ h => by cases h⟩
  · rintro _ rfl
    exact h3

lemma wp_tryPair {offer : Fetched × Fetched} :
    wp (tryPair F key highest offer)
      (fun r d' => Kept d d' ∧ ∀ h, r = .verified h →
        Ready F key highest h d' ∧ offer = (.file h.data, .file h.signature))
      (Kept d) (Kept d) d := by
  have hkeep : ∀ set : Option Text → Cache → Cache, (∀ t d, Kept d (set t d)) →
      ∀ d1, Kept d d1 → wp (.act (set none)) (fun _ => Kept d) (Kept d) (Kept d) d1 :=
    fun set hset d1 h1 => wp_act (h1.trans (hset none d1)) h1 h1
  refine wp_attempt_then (hkeep _ kept_indexTmp d (Kept.refl d)) fun d1 h1 => ?_
  exact wp_attempt_then (hkeep _ kept_signatureTmp d1 h1) fun _ h2 => wp_tryFetched h2

lemma wp_tryEndpoint (offers : List (Fetched × Fetched)) :
    wp (tryEndpoint F key highest offers)
      (fun found d' => Kept d d' ∧ ∀ h, found = some h →
        Ready F key highest h d' ∧ (.file h.data, .file h.signature) ∈ offers)
      (Kept d) (Kept d) d := by
  induction offers generalizing d with
  | nil => exact wp_pure ⟨Kept.refl d, fun _ h => by cases h⟩
  | cons offer offers ih =>
    refine wp_bind (wp_mono wp_tryPair ?_ (fun _ h => h) fun _ h => h)
    rintro r d1 ⟨h1, hr⟩
    cases r with
    | verified candidate =>
      refine wp_pure ⟨h1, fun h heq => ?_⟩
      cases heq
      obtain ⟨hready, hoffer⟩ := hr _ rfl
      exact ⟨hready, hoffer ▸ mem_cons_self⟩
    | nextEndpoint => exact wp_pure ⟨h1, fun _ h => by cases h⟩
    | again =>
      have hnext : wp (tryEndpoint F key highest offers)
          (fun found d' => Kept d d' ∧ ∀ h, found = some h →
            Ready F key highest h d' ∧ (.file h.data, .file h.signature) ∈ offer :: offers)
          (Kept d) (Kept d) d1 :=
        wp_mono ih (fun found d' h => ⟨h1.trans h.1, fun c hc =>
          ⟨(h.2 c hc).1, mem_cons_of_mem _ (h.2 c hc).2⟩⟩) (fun _ h => h1.trans h)
          fun _ h => h1.trans h
      exact wp_bind (wp_when (fun _ => wp_tick hnext h1 h1) fun _ => hnext)

def Offered (endpoints : List Offers) (sig data : Text) : Prop :=
  ∃ endpoint ∈ endpoints, ∃ attempt < 3, endpoint attempt = (.file data, .file sig)

lemma wp_tryEndpoints (endpoints : List Offers) :
    wp (tryEndpoints F key highest endpoints)
      (fun found d' => Kept d d' ∧ ∀ h, found = some h →
        Ready F key highest h d' ∧ Offered endpoints h.signature h.data)
      (Kept d) (Kept d) d := by
  induction endpoints generalizing d with
  | nil => exact wp_pure ⟨Kept.refl d, fun _ h => by cases h⟩
  | cons endpoint endpoints ih =>
    refine wp_bind (wp_mono (wp_tryEndpoint _) ?_ (fun _ h => h) fun _ h => h)
    rintro found d1 ⟨h1, hfound⟩
    refine wp_bind (wp_tick ?_ h1 h1)
    cases found with
    | some candidate =>
      refine wp_pure ⟨h1, fun h heq => ?_⟩
      cases heq
      obtain ⟨hready, hoffer⟩ := hfound _ rfl
      obtain ⟨attempt, hlt, heq⟩ := List.mem_map.mp hoffer
      exact ⟨hready, endpoint, mem_cons_self, attempt, mem_range.mp hlt, heq⟩
    | none =>
      refine wp_mono ih (fun found d' h => ⟨h1.trans h.1, fun c hc => ?_⟩)
        (fun _ h => h1.trans h) fun _ h => h1.trans h
      obtain ⟨hready, e, he, hoffer⟩ := h.2 c hc
      exact ⟨hready, e, mem_cons_of_mem _ he, hoffer⟩

/-! ### A refresh -/

structure Refreshes (F : Formats ι) (endpoints : List Offers) (d d' : Cache) : Prop where
  index : d'.index = d.index
  signature : d'.signature = d.signature
  /-- The floor is kept or raised. -/
  highest : d'.highest = d.highest ∨ ∃ f f', floor d = some f ∧ floor d' = some f' ∧ f < f'
  /-- The cache is kept, or becomes a pair of one attempt that is not above the floor. -/
  verified : d'.verified = d.verified ∨ ∃ h : Handout ι, Genuine F h ∧
    h.signature.length = signatureSize ∧ Offered endpoints h.signature h.data ∧
    d'.verified = some (h.signature ++ h.data) ∧ floor d' = some (F.sequence h.index)

structure Refreshed (F : Formats ι) (key : Option Text) (endpoints : List Offers) (d : Cache)
    (h : Handout ι) (d' : Cache) : Prop where
  refreshes : Refreshes F endpoints d d'
  genuine : Genuine F h
  key : key = some h.key
  offered : Offered endpoints h.signature h.data
  /-- Not below the floor that was found, and at the one that is left. -/
  above : ∃ f, floor d = some f ∧ f ≤ F.sequence h.index
  floor : floor d' = some (F.sequence h.index)

variable {endpoints : List Offers}

lemma Kept.refreshes (h : Kept d d') : Refreshes F endpoints d d' :=
  ⟨h.index, h.signature, .inl h.highest, .inl h.verified⟩

lemma Refreshes.kept {d'' : Cache} (h : Refreshes F endpoints d d') (h' : Kept d' d'') :
    Refreshes F endpoints d d'' := by
  refine ⟨h'.index.trans h.index, h'.signature.trans h.signature, ?_, ?_⟩
  · rcases h.highest with heq | ⟨f, f', hf, hf', hlt⟩
    · exact .inl (h'.highest.trans heq)
    · exact .inr ⟨f, f', hf, h'.floor.trans hf', hlt⟩
  rcases h.verified with heq | ⟨c, hc, hlen, hoffer, hv, hfloor⟩
  · exact .inl (h'.verified.trans heq)
  · exact .inr ⟨c, hc, hlen, hoffer, h'.verified.trans hv, h'.floor.trans hfloor⟩

lemma Refreshed.kept {d'' : Cache} (hr : Refreshed F key endpoints d h d')
    (h' : Kept d' d'') : Refreshed F key endpoints d h d'' :=
  { hr with refreshes := hr.refreshes.kept h', floor := h'.floor.trans hr.floor }

lemma wp_raise {sequence : UInt64} {d0 : Cache} (h0 : Kept d0 d) (hf : floor d0 = some f)
    (hle : f ≤ sequence) :
    wp (.when (sequence > f) (storeHighestSequence sequence))
      (fun _ d' => Refreshes F endpoints d0 d' ∧ floor d' = some sequence ∧
        d'.bundleTmp = d.bundleTmp)
      (Refreshes F endpoints d0) (Refreshes F endpoints d0) d := by
  have hP : Refreshes F endpoints d0 d := h0.refreshes
  refine wp_when (fun hlt => ?_) fun hge => ?_
  · have hne : sequence ≠ 0 := by
      rintro rfl
      exact absurd hlt (UInt64.not_lt.mpr UInt64.zero_le)
    have hfloor : floor (d.setHighest (some (decimal sequence ++ ['\n']))) = some sequence :=
      parseHighest_decimal hne
    have hraise : Refreshes F endpoints d0
        (d.setHighest (some (decimal sequence ++ ['\n']))) :=
      ⟨h0.index, h0.signature, .inr ⟨f, sequence, hf, hfloor, hlt⟩, .inl h0.verified⟩
    refine wp_bind (wp_tick (wp_bind (wp_act (wp_tick ?_ hraise hraise) hP hP)) hP hP)
    exact ⟨hraise, hfloor, rfl⟩
  · have heq : f = sequence := UInt64.le_antisymm hle (UInt64.not_lt.mp hge)
    exact ⟨hP, h0.floor.trans (heq ▸ hf), rfl⟩

lemma refreshed_commit (hr : Refreshes F endpoints d d')
    (hgenuine : Genuine F h) (hkey : key = some h.key) (hlen : h.signature.length = signatureSize)
    (hoffer : Offered endpoints h.signature h.data) (hf : floor d = some f)
    (hle : f ≤ F.sequence h.index) (hfloor : floor d' = some (F.sequence h.index))
    (hbundle : d'.bundleTmp = some (h.signature ++ h.data)) :
    Refreshed F key endpoints d h d'.commitBundle where
  refreshes :=
    { index := hr.index
      signature := hr.signature
      highest := hr.highest
      verified := .inr ⟨h, hgenuine, hlen, hoffer, hbundle, hfloor⟩ }
  genuine := hgenuine
  key := hkey
  offered := hoffer
  above := ⟨f, hf, hle⟩
  floor := hfloor

lemma wp_refreshLocked : wp (refreshLocked F key endpoints) (Refreshed F key endpoints d)
    (Refreshes F endpoints d) (Refreshes F endpoints d) d := by
  have hself : Refreshes F endpoints d d := (Kept.refl d).refreshes
  have hkept : ∀ d', Kept d d' → Refreshes F endpoints d d' := fun _ h => h.refreshes
  refine wp_bind (wp_get (fun k hk => ?_) fun _ => hself)
  refine wp_bind (wp_mono wp_loadHighestSequence ?_ (fun _ h => h ▸ hself) fun _ h => h ▸ hself)
  rintro f d0 ⟨hd0, hf⟩
  subst d0
  refine wp_bind (wp_mono (wp_tryEndpoints endpoints) ?_ hkept hkept)
  rintro found d1 ⟨h1, hfound⟩
  refine wp_bind (wp_get (fun c hc => ?_) fun _ => hkept d1 h1)
  obtain ⟨hready, hoffer⟩ := hfound c hc
  have hback : ∀ d', d' = d1 → Refreshes F endpoints d d' := fun _ h => h ▸ hkept d1 h1
  -- the files are read once more
  refine wp_bind (wp_mono wp_readFile ?_ hback hback)
  rintro data _ ⟨rfl, hdata, -⟩
  obtain rfl := some.inj (hready.data.symm.trans hdata)
  refine wp_bind (wp_mono wp_readFile ?_ hback hback)
  rintro sig _ ⟨rfl, hsig, -⟩
  obtain rfl := some.inj (hready.signature.symm.trans hsig)
  refine wp_bind (wp_require (fun _ => ?_) fun _ => hkept _ h1)
  have hbundleTmp : ∀ (t : Option Text) d', Kept d d' → Kept d (d'.setBundleTmp t) :=
    fun t d' h => h.trans (kept_bundleTmp t d')
  refine wp_attempt_then (P := Kept d) (wp_act (hbundleTmp _ _ h1) h1 (hkept _ h1)) fun d2 h2 => ?_
  have h3 := hbundleTmp (some (c.signature ++ c.data)) d2 h2
  refine wp_bind (wp_act ?_ (hkept _ h2) (hkept _ h2))
  refine wp_bind (wp_mono (wp_raise h3 hf hready.highest) ?_ (fun _ h => h) fun _ h => h)
  rintro - d4 ⟨h4, hfloor, hbundle⟩
  have hcommit := refreshed_commit h4 hready.genuine (hk.trans hready.key) hready.length hoffer hf
    hready.highest hfloor hbundle
  refine wp_bind (wp_act ?_ h4 h4)
  exact wp_bind (wp_tick (wp_pure hcommit) hcommit.refreshes hcommit.refreshes)

lemma wp_removeTemporary {P C : Cache → Prop} (hP : ∀ d d', Kept d d' → P d → P d')
    (hC : ∀ d, P d → C d) (h : P d) : wp removeTemporary (fun _ => P) P C d := by
  have hstep : ∀ set : Option Text → Cache → Cache, (∀ t d, Kept d (set t d)) →
      ∀ d, P d → wp (.act (set none)) (fun _ => P) P C d :=
    fun set hset d h => wp_act (hP _ _ (hset none d) h) h (hC d h)
  refine wp_attempt_then (hstep _ kept_indexTmp d h) fun d1 h1 => ?_
  refine wp_attempt_then (hstep _ kept_signatureTmp d1 h1) fun d2 h2 => ?_
  exact wp_attempt_then (hstep _ kept_bundleTmp d2 h2) fun d3 h3 => wp_pure h3

lemma wp_refresh {primary : Offers} {fallback : Option Offers} :
    wp (refresh F key primary fallback) (Refreshed F key (primary :: fallback.toList) d)
      (Refreshes F (primary :: fallback.toList) d) (Refreshes F (primary :: fallback.toList) d)
      d := by
  have hself : Refreshes F (primary :: fallback.toList) d d := (Kept.refl d).refreshes
  refine wp_bind (wp_tick (wp_bind (wp_tick ?_ hself hself)) hself hself)
  refine wp_bind (wp_attempt (wp_mono wp_refreshLocked ?_ ?_ fun _ h => h))
  · intro h d1 h1
    refine wp_bind (wp_mono (wp_removeTemporary (fun _ _ hk h => Refreshed.kept h hk)
      (fun _ h => h.refreshes) h1) (fun _ _ h => wp_pure h) (fun _ h => h.refreshes) fun _ h => h)
  intro d1 h1
  refine wp_bind (wp_mono (wp_removeTemporary (fun _ _ hk h => Refreshes.kept h hk)
    (fun _ h => h) h1) (fun _ _ h => wp_fail h) (fun _ h => h) fun _ h => h)

/-! ### One run -/

/-- The floor of a sound file is kept or raised. -/
def NotLower (d d' : Cache) : Prop := ∀ f, floor d = some f → ∃ f', floor d' = some f' ∧ f ≤ f'

lemma NotLower.trans {a b c : Cache} (h : NotLower a b) (h' : NotLower b c) : NotLower a c := by
  intro f hf
  obtain ⟨f', hf', hle⟩ := h f hf
  obtain ⟨f'', hf'', hle'⟩ := h' f' hf'
  exact ⟨f'', hf'', UInt64.le_trans hle hle'⟩

lemma Refreshes.notLower (h : Refreshes F endpoints d d') : NotLower d d' := by
  intro f hf
  rcases h.highest with heq | ⟨f0, f', hf0, hf', hlt⟩
  · exact ⟨f, by simpa only [RollbackFloor.floor, heq] using hf, UInt64.le_refl f⟩
  · obtain rfl := some.inj (hf.symm.trans hf0)
    exact ⟨f', hf', UInt64.le_of_lt hlt⟩

def Runs (F : Formats ι) (d d' : Cache) : Op → Prop
  | .refresh _ primary fallback => Refreshes F (primary :: fallback.toList) d d'
  | .loadCached _ => d' = d

lemma runs_exec (step : Step) (d : Cache) : Runs F d (exec F step d) step.op := by
  obtain ⟨op, replies⟩ := step
  cases op with
  | refresh key primary fallback =>
    exact wp_after (wp_mono wp_refresh (fun _ _ h => h.refreshes) (fun _ h => h) fun _ h => h)
      replies
  | loadCached key =>
    exact wp_after (wp_mono wp_loadCached (fun _ _ h => h.1) (fun _ h => h) fun _ h => h) replies

/-- What a run that hands out an index has found and left. -/
def HandsOut (F : Formats ι) (d : Cache) (h : Handout ι) (d' : Cache) : Op → Prop
  | .refresh key primary fallback => Refreshed F key (primary :: fallback.toList) d h d'
  | .loadCached key => d' = d ∧ cached F key d = some h ∧
      ∃ f, floor d = some f ∧ f ≤ F.sequence h.index

lemma handsOut_of_handed (hh : handed F step d = some h) :
    HandsOut F d h (exec F step d) step.op := by
  obtain ⟨op, replies⟩ := step
  have hdone : (program F op replies d).1 = .done h := by
    unfold handed at hh
    split at hh
    · rename_i h' heq
      rw [heq, some.inj hh]
    · cases hh
  cases op with
  | refresh key primary fallback => exact wp_done wp_refresh hdone
  | loadCached key => exact wp_done wp_loadCached hdone

lemma notLower_exec (step : Step) (d : Cache) : NotLower d (exec F step d) := by
  have h := runs_exec (F := F) step d
  cases hop : step.op with
  | refresh key primary fallback =>
    rw [hop] at h
    exact Refreshes.notLower h
  | loadCached key =>
    rw [hop] at h
    rw [show exec F step d = d from h]
    exact fun f hf => ⟨f, hf, UInt64.le_refl f⟩

lemma floor_le_of_handed (hh : handed F step d = some h) :
    ∃ f, floor d = some f ∧ f ≤ F.sequence h.index := by
  have hout := handsOut_of_handed hh
  cases hop : step.op with
  | refresh key primary fallback =>
    rw [hop] at hout
    exact Refreshed.above hout
  | loadCached key =>
    rw [hop] at hout
    exact hout.2.2

lemma genuine_of_handed (hh : handed F step d = some h) :
    Genuine F h := by
  have hout := handsOut_of_handed hh
  cases hop : step.op with
  | refresh key primary fallback =>
    rw [hop] at hout
    exact Refreshed.genuine hout
  | loadCached key =>
    rw [hop] at hout
    exact (cached_eq_some.mp hout.2.1).2.2.2.2

/-! ### Sequences of runs -/

/-- A load does not find an index above the floor. -/
def Clear (F : Formats ι) (step : Step) (d : Cache) : Prop :=
  ∀ key, step.op = .loadCached key → ∀ h, cached F key d = some h →
    ∀ f, floor d = some f → F.sequence h.index ≤ f

lemma le_floor_of_handed (hc : Clear F step d)
    (hh : handed F step d = some h) :
    ∃ f, floor (exec F step d) = some f ∧ F.sequence h.index ≤ f := by
  have hout := handsOut_of_handed hh
  cases hop : step.op with
  | refresh key primary fallback =>
    rw [hop] at hout
    exact ⟨_, Refreshed.floor hout, UInt64.le_refl _⟩
  | loadCached key =>
    rw [hop] at hout
    obtain ⟨heq, hcached, f, hf, -⟩ := hout
    exact ⟨f, by rw [heq]; exact hf, hc key hop h hcached f hf⟩

lemma floor_le_of_mem (hf : floor d = some f)
    (hmem : h ∈ handouts F d steps) : f ≤ F.sequence h.index := by
  induction steps generalizing d f with
  | nil => cases hmem
  | cons step steps ih =>
    rcases mem_append.mp hmem with hnow | hlater
    · obtain ⟨f', hf', hle⟩ := floor_le_of_handed (mem_toList.mp hnow)
      obtain rfl := some.inj (hf.symm.trans hf')
      exact hle
    · obtain ⟨f', hf', hle⟩ := notLower_exec (F := F) step d f hf
      exact UInt64.le_trans hle (ih hf' hlater)

lemma handouts_ordered (hm : Meets (exec F) (Clear F) d steps) :
    (handouts F d steps).Pairwise fun a b => F.sequence a.index ≤ F.sequence b.index := by
  induction steps generalizing d with
  | nil => exact Pairwise.nil
  | cons step steps ih =>
    refine pairwise_append.mpr ⟨?_, ih hm.2, ?_⟩
    · cases handed F step d <;> simp
    intro a ha b hb
    obtain ⟨f, hf, hle⟩ := le_floor_of_handed hm.1 (mem_toList.mp ha)
    exact UInt64.le_trans hle (floor_le_of_mem hf hb)

/-- Where a pair comes from: the files that were there at first, or one attempt of a refresh. -/
def Origin (d : Cache) (steps : List Step) (sig data : Text) : Prop :=
  (∃ bundle, d.verified = some bundle ∧ sig = bundle.take signatureSize ∧
    data = bundle.drop signatureSize) ∨
  (d.signature = some sig ∧ d.index = some data) ∨
  ∃ step ∈ steps, ∃ key primary fallback, step.op = .refresh key primary fallback ∧
    Offered (primary :: fallback.toList) sig data

lemma origin_of_cachedPair {sig data : Text}
    (h : cachedPair d = some (sig, data)) : Origin d steps sig data := by
  unfold cachedPair at h
  split at h
  · rename_i bundle hb
    split_ifs at h
    obtain ⟨rfl, rfl⟩ := Prod.mk.inj (some.inj h)
    exact .inl ⟨bundle, hb, rfl, rfl⟩
  split at h
  · rename_i s t hs ht
    obtain ⟨rfl, rfl⟩ := Prod.mk.inj (some.inj h)
    exact .inr (.inl ⟨hs, ht⟩)
  · cases h

lemma Origin.of_exec {sig data : Text}
    (h : Origin (exec F step d) steps sig data) : Origin d (step :: steps) sig data := by
  have hruns := runs_exec (F := F) step d
  have hlater : (∃ step ∈ steps, ∃ key primary fallback,
      step.op = .refresh key primary fallback ∧
        Offered (primary :: fallback.toList) sig data) → Origin d (step :: steps) sig data := by
    rintro ⟨later, hmem, hrest⟩
    exact .inr (.inr ⟨later, mem_cons_of_mem _ hmem, hrest⟩)
  cases hop : step.op with
  | loadCached key =>
    rw [hop] at hruns
    rw [show exec F step d = d from hruns] at h
    rcases h with h | h | h
    · exact .inl h
    · exact .inr (.inl h)
    · exact hlater h
  | refresh key primary fallback =>
    rw [hop] at hruns
    have hr : Refreshes F (primary :: fallback.toList) d (exec F step d) := hruns
    rcases h with ⟨bundle, hb, rfl, rfl⟩ | h | h
    · rcases hr.verified with heq | ⟨c, -, hlen, hoffer, hv, -⟩
      · exact .inl ⟨bundle, heq ▸ hb, rfl, rfl⟩
      obtain rfl := some.inj (hb.symm.trans hv)
      refine .inr (.inr ⟨step, mem_cons_self, key, primary, fallback, hop, ?_⟩)
      rwa [take_left' hlen, drop_left' hlen]
    · exact .inr (.inl ⟨hr.signature ▸ h.1, hr.index ▸ h.2⟩)
    · exact hlater h

lemma origin_of_mem (hmem : h ∈ handouts F d steps) :
    Origin d steps h.signature h.data := by
  induction steps generalizing d with
  | nil => cases hmem
  | cons step steps ih =>
    rcases mem_append.mp hmem with hnow | hlater
    · have hout := handsOut_of_handed (mem_toList.mp hnow)
      cases hop : step.op with
      | refresh key primary fallback =>
        rw [hop] at hout
        exact .inr (.inr ⟨step, mem_cons_self, key, primary, fallback, hop,
          Refreshed.offered hout⟩)
      | loadCached key =>
        rw [hop] at hout
        exact origin_of_cachedPair (cached_eq_some.mp hout.2.1).2.1
    · exact (ih hlater).of_exec

lemma genuine_of_mem (hmem : h ∈ handouts F d steps) :
    Genuine F h := by
  induction steps generalizing d with
  | nil => cases hmem
  | cons step steps ih =>
    rcases mem_append.mp hmem with hnow | hlater
    · exact genuine_of_handed (mem_toList.mp hnow)
    · exact ih hlater

/-- What the floor guarantees of a sequence of runs. -/
structure Guarded (F : Formats ι) (d : Cache) (steps : List Step) : Prop where
  /-- The floor never goes down. -/
  floor : (visited (exec F) d steps).Pairwise NotLower
  /-- No index is below the floor its run found. -/
  checked : ∀ ran step rest h, steps = ran ++ step :: rest →
    handed F step (final (exec F) d ran) = some h →
    ∃ f, RollbackFloor.floor (final (exec F) d ran) = some f ∧ f ≤ F.sequence h.index
  /-- No index is below one that was handed out before. -/
  ordered : (handouts F d steps).Pairwise fun a b => F.sequence a.index ≤ F.sequence b.index
  /-- The exact bytes passed the check with the signature, and the two come from one place. -/
  genuine : ∀ h ∈ handouts F d steps, Genuine F h ∧ Origin d steps h.signature h.data

/-- **No rollback.** Whatever the cache holds at first, and wherever runs are cut short: as long
as no load finds an index above the floor in the cache. -/
theorem repository_guarded (steps : List Step) (hm : Meets (exec F) (Clear F) d steps) :
    Guarded F d steps where
  floor := visited_pairwise (I := fun _ => True) trivial
    (fun step d _ => ⟨trivial, notLower_exec step d⟩) (fun _ _ _ => NotLower.trans) steps
  checked := fun _ _ _ _ _ hh => floor_le_of_handed hh
  ordered := handouts_ordered hm
  genuine := fun _ hmem => ⟨genuine_of_mem hmem, origin_of_mem hmem⟩

/-! ### The cache of this version -/

def NewBelow (F : Formats ι) (d : Cache) : Prop :=
  d.verified.isSome → ∀ key h, cached F key d = some h →
    ∀ f, floor d = some f → F.sequence h.index ≤ f

lemma Refreshes.newBelow (hr : Refreshes F endpoints d d') (hd : NewBelow F d)
    (hsound : floor d = none → floor d' = none) : NewBelow F d' := by
  intro hsome key h hh f' hf'
  rcases hr.verified with heq | ⟨c, hc, hlen, -, hv, hfloor⟩
  · have hpair : cachedPair d' = cachedPair d := by
      unfold cachedPair
      rw [heq, hr.index, hr.signature]
    have hcached : cached F key d = some h := by
      rw [cached_eq_some] at hh ⊢
      exact ⟨hh.1, hpair ▸ hh.2.1, hh.2.2⟩
    cases hf : floor d with
    | none => simp [hsound hf] at hf'
    | some f =>
      obtain ⟨f'', hf'', hle⟩ := hr.notLower f hf
      obtain rfl := some.inj (hf'.symm.trans hf'')
      exact UInt64.le_trans (hd (heq ▸ hsome) key h hcached f hf) hle
  · have hpair := (cached_eq_some.mp hh).2.1
    simp only [cachedPair, hv, take_left' hlen, drop_left' hlen] at hpair
    split_ifs at hpair
    have hdata : h.data = c.data := (congrArg Prod.snd (some.inj hpair)).symm
    have hparse := (cached_eq_some.mp hh).2.2.2.2.parse
    rw [hdata, hc.parse] at hparse
    obtain rfl := some.inj (hf'.symm.trans hfloor)
    rw [some.inj hparse]
    exact UInt64.le_refl _

lemma Refreshes.floor_none (hr : Refreshes F endpoints d d') (h : floor d = none) :
    floor d' = none := by
  rcases hr.highest with heq | ⟨f, -, hf, -⟩
  · simpa only [RollbackFloor.floor, heq] using h
  · rw [h] at hf
    cases hf

/-- **The floor is raised before the cache.** Where no cache of this version was there at
first, none is ever above the floor: only the files of an earlier version can be. -/
theorem newBelow_run (h0 : d.verified = none) (steps : List Step) :
    NewBelow F (final (exec F) d steps) := by
  refine final_inv (I := NewBelow F) (fun h => by simp [h0] at h) fun step _ d hd => ?_
  have hruns := runs_exec (F := F) step d
  cases hop : step.op with
  | loadCached key =>
    rw [hop] at hruns
    rw [show exec F step d = d from hruns]
    exact hd
  | refresh key primary fallback =>
    rw [hop] at hruns
    have hr : Refreshes F (primary :: fallback.toList) d (exec F step d) := hruns
    exact hr.newBelow hd hr.floor_none

/-! ### A repository with two signed indexes -/

def sampleIndex (sequence : UInt64) : Text :=
  ['C', '1', 'P', 'K', 'G', '-', 'I', 'N', 'D', 'E', 'X', ' ', '2', '\n', 'S', '\t'] ++
    decimal sequence ++ ['\n']

def sampleSignature (sequence : UInt64) : Text :=
  List.replicate signatureSize (if sequence = 10 then 'a' else 'b')

/-- The indexes 7 and 10 are signed. -/
def sampleFormats : Formats UInt64 where
  verify sig data _ := [7, 10].any fun n => sig == sampleSignature n && data == sampleIndex n
  parse data := [7, 10].find? fun n => data == sampleIndex n
  sequence := id

def sampleOffers (sequence : UInt64) : Offers := fun _ =>
  (.file (sampleIndex sequence), .file (sampleSignature sequence))

def refreshSample (sequence : UInt64) : Step :=
  ⟨.refresh (some ['k']) (sampleOffers sequence) none, []⟩

def loadSample : Step := ⟨.loadCached (some ['k']), []⟩

/-- A device on which nothing was fetched. -/
def emptyCache : Cache := ⟨none, none, none, none, none, none, none⟩

/-- The files of an earlier version, and no floor. -/
def legacyCache : Cache :=
  { emptyCache with index := some (sampleIndex 10), signature := some (sampleSignature 10) }

theorem repository_guarded_refresh :
    Guarded sampleFormats emptyCache [refreshSample 7, loadSample] := by
  refine repository_guarded _ ⟨fun key hop => (by cases hop), ?_, trivial⟩
  intro key _ h hh f hf
  exact newBelow_run (F := sampleFormats) (d := emptyCache) rfl [refreshSample 7]
    (by decide +kernel) key h hh f hf

/-- The cache of an earlier version is handed out above the floor, and the floor stays: a
refresh then hands out an older index. -/
theorem repository_guarded_fails :
    (handouts sampleFormats legacyCache [loadSample, refreshSample 7]).map
      (fun h => sampleFormats.sequence h.index) = [10, 7] ∧
    ¬∀ (d : Cache) (steps : List Step), (handouts sampleFormats d steps).Pairwise
      fun a b => sampleFormats.sequence a.index ≤ sampleFormats.sequence b.index := by
  have h : (handouts sampleFormats legacyCache [loadSample, refreshSample 7]).map
      (fun h => sampleFormats.sequence h.index) = [10, 7] := by decide +kernel
  refine ⟨h, fun hall => ?_⟩
  have hp := pairwise_map.mpr (hall legacyCache [loadSample, refreshSample 7])
  rw [h] at hp
  exact absurd hp (by decide)

end C1auncher.Package.RollbackFloor
