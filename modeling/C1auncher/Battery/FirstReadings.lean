import C1auncher.Battery.HistoryInvariant

/-!
Which readings the history keeps after any run of calls, and what connects them.
-/

namespace C1auncher.Battery.FirstReadings

open Battery.Samples Battery.HistoryInvariant

/-! ### Runs -/

lemma after_snoc (calls : List Observation) (o : Observation) :
    after (calls ++ [o]) = (observe (after calls) o).2 := by
  simp [after]

/-- **`valid_history` holds after every call.** -/
theorem after_valid (calls : List Observation) : Valid (after calls).samples := by
  induction calls using List.reverseRecOn with
  | nil => exact ⟨by simp [after, init], .nil, by simp [after, init], by simp [after, init]⟩
  | append_singleton calls o ih =>
    rw [after_snoc]
    exact observe_valid ih

lemma after_clocks (calls : List Observation) (o : Observation) :
    (o.inRange = true → (after (calls ++ [o])).lastWall = o.wall ∧
      (after (calls ++ [o])).lastMonotonic = o.mono) ∧
    (o.inRange = false → (after (calls ++ [o])).lastWall = 0) := by
  rw [after_snoc]
  constructor <;> intro hr
  · rcases observe_cases (after_valid calls) hr with ⟨-, heq⟩ | ⟨-, -, heq⟩ | ⟨-, -, heq⟩ <;>
      rw [heq] <;> exact ⟨rfl, rfl⟩
  · rw [observe_out_of_range (after_valid calls) hr]

/-- **A clock rollback**: a time before that of the call before, or of the latest sample. -/
def Rollback (calls : List Observation) (o : Observation) : Prop :=
  o.inRange = true ∧
    ((∃ q ∈ calls.getLast?, q.inRange = true ∧ o.wall < q.wall) ∨
      ∃ p ∈ (after calls).samples.getLast?, o.wall < p.timestamp)

lemma inRange_pos {o : Observation} (h : o.inRange = true) : 0 < o.wall := by
  simp [Observation.inRange, minTime] at h
  omega

lemma rolledBack_iff {calls : List Observation} {o : Observation} (hr : o.inRange = true) :
    rolledBack (after calls) o = true ↔ Rollback calls o := by
  have hlast : ((after calls).lastWall ≠ 0 ∧ o.wall < (after calls).lastWall) ↔
      ∃ q ∈ calls.getLast?, q.inRange = true ∧ o.wall < q.wall := by
    rcases calls.eq_nil_or_concat with rfl | ⟨calls, q, rfl⟩
    · simp [after, init]
    have hclocks := after_clocks calls q
    rw [List.concat_eq_append, List.getLast?_concat]
    by_cases hq : q.inRange = true
    · have := inRange_pos hq
      rw [(hclocks.1 hq).1]
      simp [hq]
      omega
    · rw [hclocks.2 (by simpa using hq)]
      simp [hq]
  simp only [rolledBack, decide_eq_true_eq, hlast, Rollback, hr, true_and,
    Option.any_eq_true, Option.mem_def]

/-! ### The readings that count -/

def RollbackAt (calls : List Observation) (k : ℕ) : Prop :=
  ∃ o ∈ calls[k]?, Rollback (calls.take k) o

/-- An available reading since the last rollback, of the latest 1440 minutes for every call
since. -/
structure Counts (calls : List Observation) (i : ℕ) (r : Observation) : Prop where
  call : calls[i]? = some r
  inRange : r.inRange = true
  usable : r.usable = true
  since : ∀ k > i, ¬RollbackAt calls k
  latest : ∀ k ≥ i, ∀ o ∈ calls[k]?, o.inRange = true → o.minute < r.minute + historyPoints

def First (calls : List Observation) (i : ℕ) (r : Observation) : Prop :=
  Counts calls i r ∧ ∀ j r', Counts calls j r' → r'.minute = r.minute → i ≤ j

section Snoc

variable {calls : List Observation} {o r : Observation} {i : ℕ}

lemma rollbackAt_last : RollbackAt (calls ++ [o]) calls.length ↔ Rollback calls o := by
  simp [RollbackAt]

lemma rollbackAt_snoc {k : ℕ} (h : k < calls.length) :
    RollbackAt (calls ++ [o]) k ↔ RollbackAt calls k := by
  rw [RollbackAt, RollbackAt, List.getElem?_append_left h, List.take_append_of_le_length h.le]

lemma not_rollbackAt {k : ℕ} (h : calls.length ≤ k) : ¬RollbackAt calls k := by
  simp [RollbackAt, List.getElem?_eq_none h]

/-- **What one more call does to the readings that count.** -/
lemma counts_snoc : Counts (calls ++ [o]) i r ↔
    (Counts calls i r ∧ ¬Rollback calls o ∧
      (o.inRange = true → o.minute < r.minute + historyPoints)) ∨
    (i = calls.length ∧ r = o ∧ o.inRange = true ∧ o.usable = true) := by
  constructor
  · rintro ⟨hcall, hinRange, husable, hsince, hlatest⟩
    rcases Nat.lt_trichotomy i calls.length with hlt | rfl | hgt
    · rw [List.getElem?_append_left hlt] at hcall
      refine .inl ⟨⟨hcall, hinRange, husable, fun k hk => ?_, fun k hk q hq hr => ?_⟩, ?_, ?_⟩
      · rcases Nat.lt_or_ge k calls.length with hklt | hkge
        · rw [← rollbackAt_snoc (o := o) hklt]
          exact hsince k hk
        · exact not_rollbackAt hkge
      · have hklt := (List.getElem?_eq_some_iff.mp hq).1
        exact hlatest k hk q (by rwa [List.getElem?_append_left hklt]) hr
      · rw [← rollbackAt_last]
        exact hsince _ hlt
      · exact hlatest _ hlt.le o (by simp)
    · simp only [List.getElem?_concat_length, Option.some_inj] at hcall
      subst hcall
      exact .inr ⟨rfl, rfl, hinRange, husable⟩
    · rw [List.getElem?_eq_none (by simp; omega)] at hcall
      cases hcall
  · rintro (⟨⟨hcall, hinRange, husable, hsince, hlatest⟩, hforward, hwindow⟩ |
      ⟨rfl, rfl, hinRange, husable⟩)
    · have hlt := (List.getElem?_eq_some_iff.mp hcall).1
      refine ⟨by rwa [List.getElem?_append_left hlt], hinRange, husable, fun k hk => ?_,
        fun k hk q hq hr => ?_⟩
      · rcases Nat.lt_trichotomy k calls.length with hklt | rfl | hkgt
        · rw [rollbackAt_snoc hklt]
          exact hsince k hk
        · rwa [rollbackAt_last]
        · exact not_rollbackAt (by simp; omega)
      · rcases Nat.lt_trichotomy k calls.length with hklt | rfl | hkgt
        · rw [List.getElem?_append_left hklt] at hq
          exact hlatest k hk q hq hr
        · simp only [List.getElem?_concat_length, Option.mem_some] at hq
          exact hq ▸ hwindow (hq ▸ hr)
        · rw [List.getElem?_eq_none (by simp; omega)] at hq
          cases hq
    · refine ⟨by simp, hinRange, husable, fun k hk => not_rollbackAt (by simp; omega),
        fun k hk q hq _ => ?_⟩
      have hklt := (List.getElem?_eq_some_iff.mp hq).1
      obtain rfl : k = calls.length := by
        rw [List.length_append, List.length_singleton] at hklt
        omega
      simp only [List.getElem?_concat_length, Option.mem_some] at hq
      rw [hq, historyPoints]
      omega

lemma exists_first (h : Counts calls i r) : ∃ j r', First calls j r' ∧ r'.minute = r.minute := by
  classical
  have hex : ∃ j, ∃ r', Counts calls j r' ∧ r'.minute = r.minute := ⟨i, r, h, rfl⟩
  obtain ⟨r', hcounts, hminute⟩ := Nat.find_spec hex
  refine ⟨Nat.find hex, r', ⟨hcounts, fun j r'' hcounts' hminute' => ?_⟩, hminute⟩
  exact Nat.find_min' hex ⟨r'', hcounts', hminute'.trans hminute⟩

lemma first_snoc : First (calls ++ [o]) i r ↔
    (First calls i r ∧ ¬Rollback calls o ∧
      (o.inRange = true → o.minute < r.minute + historyPoints)) ∨
    (i = calls.length ∧ r = o ∧ o.inRange = true ∧ o.usable = true ∧
      (Rollback calls o ∨ ∀ j r', First calls j r' → r'.minute ≠ o.minute)) := by
  constructor
  · rintro ⟨hcounts, hfirst⟩
    rcases counts_snoc.mp hcounts with ⟨hcounts, hforward, hwindow⟩ | ⟨rfl, rfl, hinRange, husable⟩
    · refine .inl ⟨⟨hcounts, fun j r' hcounts' hminute => ?_⟩, hforward, hwindow⟩
      exact hfirst j r' (counts_snoc.mpr (.inl ⟨hcounts', hforward, by rwa [hminute]⟩)) hminute
    refine .inr ⟨rfl, rfl, hinRange, husable, ?_⟩
    by_cases hrollback : Rollback calls r
    · exact .inl hrollback
    refine .inr fun j r' hfirst' hminute => ?_
    have hle := hfirst j r' (counts_snoc.mpr (.inl ⟨hfirst'.1, hrollback, fun _ => by
      rw [hminute, historyPoints]
      omega⟩)) hminute
    have hlt := (List.getElem?_eq_some_iff.mp hfirst'.1.call).1
    omega
  · rintro (⟨⟨hcounts, hfirst⟩, hforward, hwindow⟩ | ⟨rfl, rfl, hinRange, husable, hnew⟩)
    · refine ⟨counts_snoc.mpr (.inl ⟨hcounts, hforward, hwindow⟩), fun j r' hcounts' hminute => ?_⟩
      rcases counts_snoc.mp hcounts' with ⟨hcounts', -, -⟩ | ⟨rfl, -, -, -⟩
      · exact hfirst j r' hcounts' hminute
      · exact (List.getElem?_eq_some_iff.mp hcounts.call).1.le
    refine ⟨counts_snoc.mpr (.inr ⟨rfl, rfl, hinRange, husable⟩), fun j r' hcounts' hminute => ?_⟩
    rcases counts_snoc.mp hcounts' with ⟨hcounts', hforward, -⟩ | ⟨rfl, -, -, -⟩
    · obtain ⟨j', r'', hfirst', hminute'⟩ := exists_first hcounts'
      rcases hnew with hrollback | hnew
      · exact absurd hrollback hforward
      · exact absurd (hminute'.trans hminute) (hnew j' r'' hfirst')
    · exact le_rfl

end Snoc

/-! ### The samples are the first readings -/

def observed (r : Observation) : ℤ × ℕ × ℕ := (r.wall, r.percent, r.power)

lemma last_minute {h : History} {o : Observation} (hv : Valid h.samples) :
    (∃ p ∈ (kept h o).getLast?, p.timestamp / 60 = o.minute) ↔
      ∃ p ∈ kept h o, p.timestamp / 60 = o.minute := by
  constructor
  · rintro ⟨p, hp, hminute⟩
    exact ⟨p, List.mem_of_mem_getLast? hp, hminute⟩
  rintro ⟨p, hp, hminute⟩
  have hne := List.ne_nil_of_mem hp
  have hlast := List.getLast?_eq_some_getLast hne
  have hle := le_getLast (evict_valid (base_valid hv)).chain _ hlast p hp
  have hle' := (kept_minute hv (List.getLast_mem hne)).1
  exact ⟨_, hlast, by omega⟩

lemma mem_kept_readings {calls : List Observation} {o : Observation} (hr : o.inRange = true)
    {x : ℤ × ℕ × ℕ} : x ∈ (kept (after calls) o).map reading ↔
      x ∈ (after calls).samples.map reading ∧ ¬Rollback calls o ∧
        o.minute < x.1 / 60 + historyPoints := by
  rw [kept, evict_readings (base_valid (after_valid calls)), List.mem_filter, decide_eq_true_eq,
    base, ← rolledBack_iff hr, Observation.minute]
  split_ifs with hrollback <;> simp [hrollback]

def Explained (calls : List Observation) (samples : List Sample) : Prop :=
  ∀ x, x ∈ samples.map reading ↔ ∃ i r, First calls i r ∧ observed r = x

section Step

variable {calls : List Observation} {o : Observation} (hr : o.inRange = true)
  (ih : Explained calls (after calls).samples)

include hr ih

lemma mem_kept {x : ℤ × ℕ × ℕ} : x ∈ (kept (after calls) o).map reading ↔
    ∃ i r, (First calls i r ∧ ¬Rollback calls o ∧
      (o.inRange = true → o.minute < r.minute + historyPoints)) ∧ observed r = x := by
  rw [mem_kept_readings hr, ih]
  constructor
  · rintro ⟨⟨i, r, hfirst, rfl⟩, hforward, hwindow⟩
    exact ⟨i, r, ⟨hfirst, hforward, fun _ => hwindow⟩, rfl⟩
  · rintro ⟨i, r, ⟨hfirst, hforward, hwindow⟩, rfl⟩
    exact ⟨⟨i, r, hfirst, rfl⟩, hforward, hwindow hr⟩

lemma same_minute : (∃ p ∈ (kept (after calls) o).getLast?, p.timestamp / 60 = o.minute) ↔
    ¬(Rollback calls o ∨ ∀ j r', First calls j r' → r'.minute ≠ o.minute) := by
  rw [last_minute (after_valid calls)]
  constructor
  · rintro ⟨p, hp, hminute⟩
    obtain ⟨i, r, ⟨hfirst, hforward, -⟩, heq⟩ :=
      (mem_kept hr ih).mp (List.mem_map_of_mem (f := reading) hp)
    rintro (hrollback | hnew)
    · exact hforward hrollback
    · obtain ⟨htime, -⟩ := Prod.mk.inj heq
      exact hnew i r hfirst (by rw [Observation.minute, htime, hminute])
  · intro hnot
    simp only [not_or, not_forall, ne_eq, not_not] at hnot
    obtain ⟨hforward, j, r', hfirst, hminute⟩ := hnot
    have hmem := (mem_kept hr ih (x := observed r')).mpr
      ⟨j, r', ⟨hfirst, hforward, fun _ => by rw [hminute, historyPoints]; omega⟩, rfl⟩
    obtain ⟨p, hp, heq⟩ := List.mem_map.mp hmem
    obtain ⟨htime, -⟩ := Prod.mk.inj heq
    exact ⟨p, hp, by rw [htime, ← hminute, Observation.minute]⟩

end Step

/-- **The samples are exactly the first available readings of the minutes that count.** -/
theorem after_explained (calls : List Observation) : Explained calls (after calls).samples := by
  induction calls using List.reverseRecOn with
  | nil =>
    intro x
    simp only [after, init, List.foldl_nil, List.map_nil, List.not_mem_nil, false_iff]
    rintro ⟨i, r, ⟨hcounts, -⟩, -⟩
    cases hcounts.call
  | append_singleton calls o ih =>
    intro x
    simp only [first_snoc, or_and_right, exists_or]
    rw [after_snoc]
    by_cases hr : o.inRange = true
    · rw [← mem_kept hr ih]
      have hsame := same_minute hr ih
      rcases observe_cases (after_valid calls) hr with ⟨husable, heq⟩ | ⟨husable, hlast, heq⟩ |
        ⟨husable, hnew, heq⟩ <;> rw [heq]
      · simp [husable]
      · simp [hsame.mp hlast]
      have hfirst : Rollback calls o ∨ ∀ j r', First calls j r' → r'.minute ≠ o.minute := by
        by_contra hnot
        obtain ⟨p, hp, hminute⟩ := hsame.mpr hnot
        exact hnew p hp hminute
      simp only [List.map_append, List.map_cons, List.map_nil, List.mem_append,
        List.mem_singleton, hr, husable, hfirst, and_true]
      apply or_congr_right
      constructor
      · rintro rfl
        exact ⟨_, o, ⟨rfl, rfl⟩, rfl⟩
      · rintro ⟨_, _, ⟨rfl, rfl⟩, rfl⟩
        rfl
    · rw [observe_out_of_range (after_valid calls) (by simpa using hr), ih x]
      have hforward : ¬Rollback calls o := fun h => hr h.1
      simp [hr, hforward]

/-! ### Connections -/

/-- Two calls that follow each other closely, by both clocks. -/
def Close (a b : Observation) : Prop :=
  b.wall - a.wall ≤ 30 ∧ 0 ≤ b.mono - a.mono ∧ b.mono - a.mono ≤ 30000 ∧
    |(b.wall - a.wall) * 1000 - (b.mono - a.mono)| ≤ 5000

/-- From one call to a later one all are available and close to each other. -/
structure Unbroken (first : Observation) (rest : List Observation) : Prop where
  chain : (first :: rest).IsChain Close
  usable : ∀ o ∈ first :: rest, o.inRange = true ∧ o.usable = true

/-- A connected sample is of the minute after its predecessor, and among the calls there is an
unbroken sequence from the one that gave the predecessor to the one that gave it. -/
def Linked (calls : List Observation) (p q : Sample) : Prop :=
  q.connected = true → q.timestamp / 60 = p.timestamp / 60 + 1 ∧
    ∃ before first between last later, calls = before ++ first :: (between ++ last :: later) ∧
      observed first = reading p ∧ observed last = reading q ∧
        Unbroken first (between ++ [last])

lemma forgets_linked (calls : List Observation) : Forgets (Linked calls) := by
  intro p p' q hreading h hconnected
  obtain ⟨htime, -⟩ := Prod.mk.inj hreading
  obtain ⟨hminute, hcalls⟩ := h hconnected
  refine ⟨by rw [← htime]; exact hminute, ?_⟩
  rw [← hreading]
  exact hcalls

lemma Linked.snoc {calls : List Observation} {p q : Sample} (h : Linked calls p q)
    (o : Observation) : Linked (calls ++ [o]) p q := by
  intro hconnected
  obtain ⟨hminute, before, first, between, last, later, rfl, hp, hq, hunbroken⟩ := h hconnected
  exact ⟨hminute, before, first, between, last, later ++ [o], by simp, hp, hq, hunbroken⟩

/-- What the flag says: since the call that gave the last sample nothing was missed. -/
def Continues (calls : List Observation) : Prop :=
  (after calls).continuous = true →
    ∃ before first rest, calls = before ++ first :: rest ∧ Unbroken first rest ∧
      ∃ p ∈ (after calls).samples.getLast?, observed first = reading p

lemma close_of_steady {q o : Observation} (h : steady q.wall q.mono o = true) : Close q o := by
  simp only [steady, decide_eq_true_eq, not_or, not_lt] at h
  exact ⟨h.1, h.2.1, h.2.2.1, h.2.2.2⟩

lemma kept_last {h : History} {o : Observation} (hforward : rolledBack h o = false) :
    ∀ p' ∈ (kept h o).getLast?, ∃ p ∈ h.samples.getLast?, reading p = reading p' := by
  intro p' hp'
  have hmap : ((latest h.samples o.wall).map reading).getLast? = some (reading p') := by
    rw [← evict_map, List.getLast?_map]
    rw [kept, base, hforward] at hp'
    exact congrArg (Option.map reading) hp'
  rw [List.getLast?_map, Option.map_eq_some_iff] at hmap
  obtain ⟨p, hp, hreading⟩ := hmap
  refine ⟨p, ?_, hreading⟩
  obtain ⟨dropped, hsplit⟩ := latest_suffix h.samples o.wall
  rw [← hsplit, Option.mem_def, List.getLast?_append, hp]
  rfl

lemma Unbroken.snoc {first o q : Observation} {rest : List Observation}
    (h : Unbroken first rest) (hlast : (first :: rest).getLast? = some q) (hclose : Close q o)
    (ho : o.inRange = true ∧ o.usable = true) : Unbroken first (rest ++ [o]) := by
  constructor
  · rw [← List.cons_append, List.isChain_append]
    refine ⟨h.chain, .singleton _, ?_⟩
    rw [hlast]
    simpa using hclose
  · rw [← List.cons_append, List.forall_mem_append]
    exact ⟨h.usable, by simpa using ho⟩

/-- **An unbroken call continues the sequence since the last sample.** -/
lemma continues_unbroken {calls : List Observation} {o : Observation} (hc : Continues calls)
    (hunbroken : unbroken (after calls) o = true) (ho : o.inRange = true ∧ o.usable = true) :
    ∃ before first rest, calls = before ++ first :: rest ∧ Unbroken first (rest ++ [o]) ∧
      ∀ p ∈ (kept (after calls) o).getLast?, observed first = reading p := by
  simp only [unbroken, Bool.and_eq_true, Bool.not_eq_true', decide_eq_true_eq] at hunbroken
  obtain ⟨⟨⟨hforward, hcontinuous⟩, hwall⟩, hsteady⟩ := hunbroken
  obtain ⟨before, first, rest, hcalls, hrest, p, hp, hfirst⟩ := hc hcontinuous
  rcases calls.eq_nil_or_concat with hnil | ⟨initial, q, hq⟩
  · rw [hnil] at hcalls
    simp at hcalls
  rw [List.concat_eq_append] at hq
  have hlast : (first :: rest).getLast? = some q := by
    have h := congrArg List.getLast? (hcalls.symm.trans hq)
    rw [List.getLast?_append_of_ne_nil _ (List.cons_ne_nil first rest), List.getLast?_concat] at h
    exact h
  have hq' : q.inRange = true := (hrest.usable q (List.mem_of_mem_getLast? hlast)).1
  rw [hq] at hsteady
  obtain ⟨hlastWall, hlastMonotonic⟩ := (after_clocks initial q).1 hq'
  rw [hlastWall, hlastMonotonic] at hsteady
  refine ⟨before, first, rest, hcalls, hrest.snoc hlast (close_of_steady hsteady) ho, ?_⟩
  intro p' hp'
  obtain ⟨p₀, hp₀, hreading⟩ := kept_last hforward p' hp'
  obtain rfl := Option.some_inj.mp (hp.symm.trans hp₀)
  rw [hfirst, hreading]

/-- **What a connected sample says of the calls**, after every run. -/
theorem after_linked (calls : List Observation) :
    (after calls).samples.IsChain (Linked calls) ∧ Continues calls := by
  induction calls using List.reverseRecOn with
  | nil => exact ⟨.nil, fun h => by cases h⟩
  | append_singleton calls o ih =>
    obtain ⟨hlinked, hcontinues⟩ := ih
    have hlinked' : (after calls).samples.IsChain (Linked (calls ++ [o])) :=
      hlinked.imp fun _ _ h => h.snoc o
    have hkept : (kept (after calls) o).IsChain (Linked (calls ++ [o])) := by
      apply evict_chain (forgets_linked _)
      rw [base]
      split_ifs
      · exact .nil
      · exact hlinked'
    have hstep := after_snoc calls o
    by_cases hr : o.inRange = true
    · rcases observe_cases (after_valid calls) hr with ⟨husable, heq⟩ | ⟨husable, hlast, heq⟩ |
        ⟨husable, hnew, heq⟩ <;> rw [heq] at hstep
      · rw [Continues, hstep]
        exact ⟨hkept, fun h => by cases h⟩
      · rw [Continues, hstep]
        refine ⟨hkept, fun hunbroken => ?_⟩
        obtain ⟨before, first, rest, hcalls, hrest, hfirst⟩ :=
          continues_unbroken hcontinues hunbroken ⟨hr, husable⟩
        obtain ⟨p, hp, -⟩ := hlast
        exact ⟨before, first, rest ++ [o], by rw [hcalls]; simp, hrest, p, hp, hfirst p hp⟩
      · rw [Continues, hstep]
        constructor
        · rw [List.isChain_append]
          refine ⟨hkept, .singleton _, fun p hp q hq => ?_⟩
          obtain rfl : added (after calls) o = q := by simpa using hq
          intro hconnected
          refine ⟨(follows_added (after_valid calls) hnew p hp).2 hconnected, ?_⟩
          rw [added, Bool.and_eq_true] at hconnected
          obtain ⟨before, first, rest, hcalls, hrest, hfirst⟩ :=
            continues_unbroken hcontinues hconnected.1 ⟨hr, husable⟩
          exact ⟨before, first, rest, o, [], by rw [hcalls]; simp, hfirst p hp, rfl, hrest⟩
        · intro _
          refine ⟨calls, o, [], rfl, ⟨.singleton _, by simp [hr, husable]⟩, added (after calls) o,
            by simp, rfl⟩
    · rw [observe_out_of_range (after_valid calls) (by simpa using hr)] at hstep
      rw [Continues, hstep]
      exact ⟨hlinked', fun h => by cases h⟩

/-! ### What is returned -/

lemma dropped_iff {h : History} {o : Observation} :
    dropped h o = true ↔ kept h o ≠ h.samples := by
  rw [dropped, kept, base]
  by_cases hrollback : rolledBack h o = true
  · have hnone : evict [] o.wall = ([], false) := rfl
    simp only [hrollback, if_true, hnone, Bool.true_and, Bool.or_false, decide_eq_true_eq]
    exact ne_comm
  · simp [hrollback, evict_changed]

lemma added_ne {calls : List Observation} {o : Observation} (hr : o.inRange = true)
    (hforward : ¬Rollback calls o)
    (hnew : ∀ p ∈ (kept (after calls) o).getLast?, p.timestamp / 60 ≠ o.minute) :
    kept (after calls) o ++ [added (after calls) o] ≠ (after calls).samples := by
  intro hsame
  have hmem : reading (added (after calls) o) ∈ (kept (after calls) o).map reading := by
    rw [mem_kept_readings hr, ← hsame]
    refine ⟨by simp, hforward, ?_⟩
    show o.wall / 60 < o.wall / 60 + (1440 : ℤ)
    omega
  obtain ⟨p, hp, heq⟩ := List.mem_map.mp hmem
  obtain ⟨htime, -⟩ := Prod.mk.inj heq
  obtain ⟨q, hq, hminute⟩ := (last_minute (after_valid calls)).mpr
    ⟨p, hp, by rw [htime, added, Observation.minute]⟩
  exact hnew q hq hminute

/-- **The result tells a change of the samples.** -/
theorem observe_changed (calls : List Observation) (o : Observation) :
    ((observe (after calls) o).2.samples ≠ (after calls).samples →
      (observe (after calls) o).1 = true) ∧
    (¬Rollback calls o → (observe (after calls) o).1 = true →
      (observe (after calls) o).2.samples ≠ (after calls).samples) := by
  by_cases hr : o.inRange = true
  · rcases observe_cases (after_valid calls) hr with ⟨-, heq⟩ | ⟨-, -, heq⟩ | ⟨-, hnew, heq⟩ <;>
      rw [heq]
    · exact ⟨dropped_iff.mpr, fun _ => dropped_iff.mp⟩
    · exact ⟨dropped_iff.mpr, fun _ => dropped_iff.mp⟩
    · exact ⟨fun _ => rfl, fun hforward _ => added_ne hr hforward hnew⟩
  · rw [observe_out_of_range (after_valid calls) (by simpa using hr)]
    exact ⟨fun h => absurd rfl h, fun _ h => by cases h⟩

end C1auncher.Battery.FirstReadings
