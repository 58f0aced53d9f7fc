import C1auncher.Battery.Samples

/-!
What `valid_history` asks for, and that every observation keeps it.
-/

namespace C1auncher.Battery.HistoryInvariant

open Battery.Samples List Bool

/-! ### Valid samples -/

/-- A sample belongs to a later minute, and to the next one if it is connected. -/
def Follows (p q : Sample) : Prop :=
  p.timestamp / 60 < q.timestamp / 60 ∧
    (q.connected = true → q.timestamp / 60 = p.timestamp / 60 + 1)

def InBounds (p : Sample) : Prop :=
  minTime ≤ p.timestamp ∧ p.timestamp < maxTime ∧ p.percent ≤ 100 ∧ p.power ≤ plugged

structure Valid (samples : List Sample) : Prop where
  bounds : ∀ p ∈ samples, InBounds p
  chain : samples.IsChain Follows
  first : ∀ p ∈ samples.head?, p.connected = false
  span : ∀ p ∈ samples, ∀ q ∈ samples, q.timestamp / 60 - p.timestamp / 60 < historyPoints

lemma validSample_none {p : Sample} :
    validSample none p = true ↔ InBounds p ∧ p.connected = false := by
  cases h : p.connected <;> simp [validSample, InBounds, h]

lemma validSample_some {p q : Sample} :
    validSample (some q) p = true ↔ InBounds p ∧ Follows q p := by
  cases h : p.connected <;> simp [validSample, InBounds, Follows, h] <;> omega

lemma validSamples_some {q : Sample} {samples : List Sample} :
    validSamples (some q) samples = true ↔
      (∀ p ∈ samples, InBounds p) ∧ (q :: samples).IsChain Follows := by
  induction samples generalizing q with
  | nil => simp [validSamples]
  | cons p samples ih =>
    rw [validSamples, and_eq_true, validSample_some, ih, forall_mem_cons, isChain_cons_cons]
    tauto

lemma validSamples_none {samples : List Sample} :
    validSamples none samples = true ↔ (∀ p ∈ samples, InBounds p) ∧
      samples.IsChain Follows ∧ ∀ p ∈ samples.head?, p.connected = false := by
  cases samples with
  | nil => simp [validSamples]
  | cons p samples =>
    rw [validSamples, and_eq_true, validSample_none, validSamples_some, forall_mem_cons]
    simp only [head?_cons, Option.mem_some, forall_eq']
    tauto

lemma length_le {p : Sample} {samples : List Sample} (h : (p :: samples).IsChain Follows) :
    ∀ q ∈ (p :: samples).getLast?,
      (samples.length : ℤ) ≤ q.timestamp / 60 - p.timestamp / 60 := by
  induction samples generalizing p with
  | nil => simp
  | cons p' samples ih =>
    intro q hq
    rw [getLast?_cons_cons] at hq
    obtain ⟨hfollows, hrest⟩ := List.isChain_cons_cons.mp h
    have hle := ih hrest q hq
    have hlt := hfollows.1
    rw [length_cons]
    omega

lemma chain_pairwise {samples : List Sample} (h : samples.IsChain Follows) :
    samples.Pairwise fun p q => p.timestamp / 60 < q.timestamp / 60 := by
  have hchain : samples.IsChain fun p q => p.timestamp / 60 < q.timestamp / 60 :=
    h.imp fun _ _ hf => hf.1
  exact hchain.pairwise

lemma head_le {samples : List Sample} (h : samples.IsChain Follows) :
    ∀ p ∈ samples.head?, ∀ q ∈ samples, p.timestamp / 60 ≤ q.timestamp / 60 := by
  rcases samples with _ | ⟨p, samples⟩
  · simp
  rintro _ ⟨⟩ q hq
  rcases mem_cons.mp hq with rfl | hq
  · exact le_rfl
  · exact ((List.pairwise_cons.mp (chain_pairwise h)).1 q hq).le

lemma le_getLast {samples : List Sample} (h : samples.IsChain Follows) :
    ∀ p ∈ samples.getLast?, ∀ q ∈ samples, q.timestamp / 60 ≤ p.timestamp / 60 := by
  intro p hp q hq
  obtain ⟨initial, rfl⟩ := getLast?_eq_some_iff.mp hp
  rcases mem_append.mp hq with hq | hq
  · exact ((pairwise_append.mp (chain_pairwise h)).2.2 q hq p mem_cons_self).le
  · exact (mem_singleton.mp hq ▸ le_rfl)

/-- **`valid_history`, and its bound on the number of samples follows from the rest.** -/
theorem validHistory_iff {h : History} : validHistory h = true ↔ Valid h.samples := by
  rw [validHistory, and_eq_true, and_eq_true, validSamples_none, decide_eq_true_eq]
  constructor
  · rintro ⟨⟨-, hbounds, hchain, hfirst⟩, hspan⟩
    refine ⟨hbounds, hchain, hfirst, fun p hp q hq => ?_⟩
    have hhead := head_le hchain
    have hlast := le_getLast hchain
    split at hspan
    · rename_i first last hfirst hlast'
      have := hhead first hfirst p hp
      have := hlast last hlast' q hq
      rw [decide_eq_true_eq] at hspan
      omega
    · rename_i hnone
      have hne := ne_nil_of_mem hp
      exact (hnone _ _ (head?_eq_some_head hne) (getLast?_eq_some_getLast hne)).elim
  · rintro ⟨hbounds, hchain, hfirst, hspan⟩
    refine ⟨⟨?_, hbounds, hchain, hfirst⟩, ?_⟩
    · rcases hs : h.samples with _ | ⟨p, samples⟩
      · simp
      rw [hs] at hchain hspan
      have hlast := getLast?_eq_some_getLast (cons_ne_nil p samples)
      have hlen := length_le hchain _ hlast
      have := hspan p mem_cons_self _ (getLast_mem (cons_ne_nil p samples))
      rw [length_cons]
      omega
    · split
      · rename_i p q hp hq
        simpa using hspan p (mem_of_mem_head? hp) q (mem_of_mem_getLast? hq)
      · rfl

lemma Valid.length {samples : List Sample} (h : Valid samples) :
    samples.length ≤ historyPoints := by
  have hvalid := validHistory_iff (h := ⟨samples, 0, 0, false⟩).mpr h
  rw [validHistory, and_eq_true, and_eq_true, decide_eq_true_eq] at hvalid
  exact hvalid.1.1

/-! ### Eviction -/

/-- What was read, apart from whether it continues anything. -/
def reading (p : Sample) : ℤ × ℕ × ℕ := (p.timestamp, p.percent, p.power)

/-- A relation that asks nothing of the connection of its first argument. -/
def Forgets (R : Sample → Sample → Prop) : Prop :=
  ∀ p p' q, reading p = reading p' → R p q → R p' q

lemma forgets_follows : Forgets Follows := by
  intro p p' q hreading h
  obtain ⟨htime, -⟩ := Prod.mk.inj hreading
  rw [Follows, ← htime]
  exact h

lemma disconnectFirst_map (samples : List Sample) :
    (disconnectFirst samples).map reading = samples.map reading := by
  cases samples <;> rfl

lemma disconnectFirst_chain {R : Sample → Sample → Prop} (hR : Forgets R) {samples : List Sample}
    (h : samples.IsChain R) : (disconnectFirst samples).IsChain R := by
  rcases samples with _ | ⟨p, _ | ⟨q, samples⟩⟩
  · exact h
  · exact .singleton _
  · obtain ⟨hpq, hrest⟩ := List.isChain_cons_cons.mp h
    exact List.isChain_cons_cons.mpr ⟨hR p _ q rfl hpq, hrest⟩

lemma dropWhile_eq_filter {samples : List Sample} {oldest : ℤ}
    (h : samples.Pairwise fun p q => p.timestamp / 60 < q.timestamp / 60) :
    samples.dropWhile (fun p => decide (p.timestamp < oldest)) =
      samples.filter fun p => decide (oldest ≤ p.timestamp) := by
  induction samples with
  | nil => rfl
  | cons p samples ih =>
    obtain ⟨hp, hrest⟩ := List.pairwise_cons.mp h
    by_cases hold : p.timestamp < oldest
    · rw [dropWhile_cons_of_pos (by simpa using hold),
        filter_cons_of_neg (by simpa using hold), ih hrest]
    rw [dropWhile_cons_of_neg (by simpa using hold), eq_comm, filter_eq_self]
    intro q hq
    rcases mem_cons.mp hq with rfl | hq
    · simpa using hold
    have := hp q hq
    simp only [decide_eq_true_eq]
    omega

section Evict

variable {samples : List Sample} {wall : ℤ}

def latest (samples : List Sample) (wall : ℤ) : List Sample :=
  samples.dropWhile fun p => decide (p.timestamp < (wall / 60 - (historyPoints - 1)) * 60)

lemma latest_suffix (samples : List Sample) (wall : ℤ) : latest samples wall <:+ samples :=
  dropWhile_suffix _

lemma evict_cases (samples : List Sample) (wall : ℤ) :
    (latest samples wall = samples ∧ evict samples wall = (samples, false)) ∨
      ((latest samples wall).length < samples.length ∧
        evict samples wall = (disconnectFirst (latest samples wall), true)) := by
  by_cases hlt : (latest samples wall).length < samples.length
  · exact .inr ⟨hlt, if_pos hlt⟩
  · have hlen := (latest_suffix samples wall).length_le
    exact .inl ⟨(latest_suffix samples wall).eq_of_length (by omega), if_neg hlt⟩

lemma evict_map : (evict samples wall).1.map reading = (latest samples wall).map reading := by
  rcases evict_cases samples wall with ⟨h, heq⟩ | ⟨-, heq⟩
  · rw [heq, h]
  · rw [heq]
    exact disconnectFirst_map _

/-- **What is left is what was read in the latest minutes.** -/
lemma evict_readings (h : Valid samples) : (evict samples wall).1.map reading =
    (samples.map reading).filter fun x => decide (wall / 60 < x.1 / 60 + historyPoints) := by
  rw [evict_map, latest, dropWhile_eq_filter (chain_pairwise h.chain), filter_map]
  congr 1
  apply filter_congr
  intro p _
  rw [Function.comp_apply, decide_eq_decide, reading, historyPoints]
  omega

lemma evict_chain {R : Sample → Sample → Prop} (hR : Forgets R) (h : samples.IsChain R) :
    (evict samples wall).1.IsChain R := by
  rcases evict_cases samples wall with ⟨-, heq⟩ | ⟨-, heq⟩
  · rw [heq]
    exact h
  · rw [heq]
    exact disconnectFirst_chain hR (h.suffix (latest_suffix _ _))

lemma evict_valid (h : Valid samples) : Valid (evict samples wall).1 := by
  have hmem : ∀ p ∈ (evict samples wall).1, ∃ q ∈ samples, reading q = reading p := by
    intro p hp
    have hread : reading p ∈ (latest samples wall).map reading := by
      rw [← evict_map]
      exact mem_map_of_mem hp
    obtain ⟨q, hq, heq⟩ := mem_map.mp hread
    exact ⟨q, (latest_suffix _ _).mem hq, heq⟩
  refine ⟨?_, evict_chain forgets_follows h.chain, ?_, ?_⟩
  · intro p hp
    obtain ⟨q, hq, heq⟩ := hmem p hp
    simp only [reading, Prod.mk.injEq] at heq
    rw [InBounds, ← heq.1, ← heq.2.1, ← heq.2.2]
    exact h.bounds q hq
  · rcases evict_cases samples wall with ⟨-, heq⟩ | ⟨-, heq⟩ <;> rw [heq]
    · exact h.first
    · cases latest samples wall <;> simp [disconnectFirst]
  · intro p hp q hq
    obtain ⟨p', hp', heqp⟩ := hmem p hp
    obtain ⟨q', hq', heqq⟩ := hmem q hq
    simp only [reading, Prod.mk.injEq] at heqp heqq
    rw [← heqp.1, ← heqq.1]
    exact h.span p' hp' q' hq'

lemma evict_changed : (evict samples wall).2 = true ↔ (evict samples wall).1 ≠ samples := by
  rcases evict_cases samples wall with ⟨-, heq⟩ | ⟨hlt, heq⟩
  · simp [heq]
  rw [heq]
  refine ⟨fun _ hsame => ?_, fun _ => rfl⟩
  have hlen := congrArg List.length hsame
  have hmap := congrArg List.length (disconnectFirst_map (latest samples wall))
  rw [length_map, length_map] at hmap
  dsimp only at hlen
  omega

end Evict

/-! ### One observation -/

section Observe

variable (h : History) (o : Observation)

def base : List Sample := if rolledBack h o then [] else h.samples

def kept : List Sample := (evict (base h o) o.wall).1

/-- Nothing was missed since the last sample. -/
def unbroken : Bool :=
  !rolledBack h o && h.continuous && h.lastWall ≠ 0 && steady h.lastWall h.lastMonotonic o

def added : Sample :=
  ⟨o.wall, o.percent, o.power,
    unbroken h o && (kept h o).getLast?.any fun p => p.timestamp / 60 + 1 = o.wall / 60⟩

def dropped : Bool := (rolledBack h o && h.samples ≠ []) || (evict (base h o) o.wall).2

variable {h o}

lemma observe_out_of_range (hv : Valid h.samples) (hr : o.inRange = false) :
    observe h o = (false, { h with continuous := false, lastWall := 0 }) := by
  rw [observe, validHistory_iff.mpr hv, hr]
  rfl

/-- **What an observation does**: its minute is added, or has a sample already, or nothing was
read. -/
lemma observe_cases (hv : Valid h.samples) (hr : o.inRange = true) :
    (o.usable = false ∧
      observe h o = (dropped h o, ⟨kept h o, o.wall, o.mono, false⟩)) ∨
    (o.usable = true ∧ (∃ p ∈ (kept h o).getLast?, p.timestamp / 60 = o.minute) ∧
      observe h o = (dropped h o, ⟨kept h o, o.wall, o.mono, unbroken h o⟩)) ∨
    (o.usable = true ∧ (∀ p ∈ (kept h o).getLast?, p.timestamp / 60 ≠ o.minute) ∧
      observe h o = (true, ⟨kept h o ++ [added h o], o.wall, o.mono, true⟩)) := by
  have hobserve : observe h o =
      record ⟨kept h o, o.wall, o.mono, unbroken h o⟩ o (dropped h o) := by
    rw [observe, validHistory_iff.mpr hv, hr]
    by_cases hrollback : rolledBack h o = true
    · simp [hrollback, kept, base, unbroken, dropped, init]
    · simp [hrollback, kept, base, unbroken, dropped]
  rw [hobserve, record]
  by_cases husable : o.usable = true
  · refine .inr ?_
    rw [husable]
    by_cases hlast : (kept h o).getLast?.any (fun p => p.timestamp / 60 = o.wall / 60) = true
    · refine .inl ⟨rfl, ?_, by simp [hlast]⟩
      simpa [Option.any_eq_true, Observation.minute] using hlast
    refine .inr ⟨rfl, ?_, by simp [hlast, added]⟩
    intro p hp
    rw [hp] at hlast
    simpa [Observation.minute] using hlast
  · exact .inl ⟨by simpa using husable, by simp [husable]⟩

lemma base_valid (hv : Valid h.samples) : Valid (base h o) := by
  rw [base]
  split_ifs
  · exact ⟨by simp, .nil, by simp, by simp⟩
  · exact hv

lemma kept_minute (hv : Valid h.samples) {p : Sample} (hp : p ∈ kept h o) :
    p.timestamp / 60 ≤ o.minute ∧ o.minute < p.timestamp / 60 + historyPoints := by
  have hread : reading p ∈ (kept h o).map reading := mem_map_of_mem hp
  rw [kept, evict_readings (base_valid hv), mem_filter, decide_eq_true_eq] at hread
  obtain ⟨hmem, hwindow⟩ := hread
  refine ⟨?_, hwindow⟩
  obtain ⟨q, hq, heq⟩ := mem_map.mp hmem
  obtain ⟨htime, -⟩ := Prod.mk.inj heq
  rw [base] at hq
  split_ifs at hq with hrollback
  · simp at hq
  have hne := ne_nil_of_mem hq
  have hle := le_getLast hv.chain _ (getLast?_eq_some_getLast hne) q hq
  have hforward : (h.samples.getLast hne).timestamp ≤ o.wall := by
    simp only [rolledBack, getLast?_eq_some_getLast hne] at hrollback
    simp at hrollback
    exact hrollback.2
  rw [Observation.minute]
  omega

lemma added_inBounds (hr : o.inRange = true) (husable : o.usable = true) :
    InBounds (added h o) := by
  simp [Observation.inRange] at hr
  simp [Observation.usable] at husable
  exact ⟨hr.1, hr.2.1, husable.2.1, husable.2.2⟩

lemma follows_added (hv : Valid h.samples)
    (hnew : ∀ p ∈ (kept h o).getLast?, p.timestamp / 60 ≠ o.minute) :
    ∀ p ∈ (kept h o).getLast?, Follows p (added h o) := by
  intro p hp
  have hle := (kept_minute hv (mem_of_mem_getLast? hp)).1
  have hne := hnew p hp
  refine ⟨lt_of_le_of_ne hle hne, fun hconnected => ?_⟩
  rw [added, and_eq_true, hp] at hconnected
  exact (by simpa using hconnected.2 : p.timestamp / 60 + 1 = o.wall / 60).symm

/-- **Every observation keeps the history valid.** -/
theorem observe_valid (hv : Valid h.samples) : Valid (observe h o).2.samples := by
  have hkept : Valid (kept h o) := evict_valid (base_valid hv)
  by_cases hr : o.inRange = true
  · rcases observe_cases hv hr with ⟨-, heq⟩ | ⟨-, -, heq⟩ | ⟨husable, hnew, heq⟩
    · rw [heq]
      exact hkept
    · rw [heq]
      exact hkept
    rw [heq]
    refine ⟨?_, ?_, ?_, ?_⟩
    · rw [forall_mem_append]
      exact ⟨hkept.bounds, by simpa using added_inBounds hr husable⟩
    · rw [isChain_append]
      exact ⟨hkept.chain, .singleton _, by simpa using follows_added hv hnew⟩
    · rcases hs : kept h o with _ | ⟨p, samples⟩
      · simp [added, hs]
      · rw [hs] at hkept
        simpa using hkept.first
    intro p hp q hq
    have hspan : ∀ r ∈ kept h o ++ [added h o],
        r.timestamp / 60 ≤ o.minute ∧ o.minute < r.timestamp / 60 + historyPoints := by
      rw [forall_mem_append]
      refine ⟨fun r hr => kept_minute hv hr, ?_⟩
      simp [added, Observation.minute, historyPoints]
    have := hspan p hp
    have := hspan q hq
    omega
  · rw [observe_out_of_range hv (by simpa using hr)]
    exact hv

end Observe

end C1auncher.Battery.HistoryInvariant
