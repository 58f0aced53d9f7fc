import C1auncher.Package.Cooldown

/-!
What one cooldown record promises, and which slot the scan of `cooldown_open` chooses.

No change of a record takes its deadline back, and the scan never assigns a second slot to a
scope.
-/

namespace C1auncher.Package.CooldownRecord

open CString Package.Cooldown List Option

/-! ### Deadlines -/

/-- A deadline is at least `n`, or never comes. -/
def Reaches (untilMs n : ℕ) : Prop := uint64Max ≤ untilMs ∨ n ≤ untilMs

variable {n boot now : ℕ} {r r' : Record} {url : Text}

lemma Reaches.mono {untilMs untilMs' : ℕ} (h : Reaches untilMs n) (hle : untilMs ≤ untilMs') :
    Reaches untilMs' n := by
  unfold Reaches at *
  omega

lemma reaches_addSaturating (a b : ℕ) : Reaches (addSaturating a b) (b + a) := by
  unfold Reaches addSaturating
  split_ifs <;> simp

lemma reaches_rememberUntil (now seconds : ℕ) :
    Reaches (rememberUntil now seconds) (now + seconds * 1000) := by
  unfold Reaches rememberUntil
  split_ifs <;> simp

/-- What a record of the boot `boot` keeps to, seen at `clock`: its deadline, or the interval it
was left with in an earlier boot, or a recovery wait still to come. -/
def Keeps (boot clock : ℕ) (r : Record) (n : ℕ) : Prop :=
  (r.boot = boot ∧ Reaches r.untilMs n) ∨ (r.boot ≠ boot ∧ n ≤ clock + r.durationMs) ∨
    (r.pending = true ∧ n ≤ clock + recoveryMs)

lemma Keeps.tick {clock clock' : ℕ} (h : Keeps boot clock r n)
    (hclock : clock ≤ clock') : Keeps boot clock' r n := by
  rcases h with h | ⟨hb, h⟩ | ⟨hp, h⟩
  · exact .inl h
  · exact .inr (.inl ⟨hb, by omega⟩)
  · exact .inr (.inr ⟨hp, by omega⟩)

/-- The record an opening makes keeps to what the one it found did, and is not pending. -/
theorem reopen_spec (h : r.reopen boot now = some r') :
    r'.scope = r.scope ∧ r'.boot = boot ∧ r'.pending = false ∧ now ≠ uint64Max ∧
      r'.writtenMs ≤ now ∧ ∀ n, Keeps boot now r n → Reaches r'.untilMs n := by
  unfold Record.reopen at h
  have hrecovery {n : ℕ} (hn : n ≤ now + recoveryMs) : Reaches (addSaturating recoveryMs now) n :=
    (reaches_addSaturating recoveryMs now).imp_right hn.trans
  have hleft {n : ℕ} (hn : n ≤ now + r.durationMs) : Reaches (addSaturating r.durationMs now) n :=
    (reaches_addSaturating r.durationMs now).imp_right hn.trans
  split_ifs at h with hclock hback hboot hpending hpending <;> cases h
  · refine ⟨rfl, rfl, rfl, hclock, le_rfl, ?_⟩
    rintro n (⟨hb, -⟩ | ⟨-, hn⟩ | ⟨-, hn⟩)
    · exact absurd hb hboot
    · exact (hleft hn).mono (le_max_right _ _)
    · exact (hrecovery hn).mono (le_max_left _ _)
  · refine ⟨rfl, rfl, by simpa using hpending, hclock, le_rfl, ?_⟩
    rintro n (⟨hb, -⟩ | ⟨-, hn⟩ | ⟨hp, -⟩)
    · exact absurd hb hboot
    · exact hleft hn
    · exact absurd hp hpending
  · have hsame : r.boot = boot := not_not.mp hboot
    refine ⟨rfl, hsame, rfl, hclock, le_rfl, ?_⟩
    rintro n (⟨-, hn⟩ | ⟨hb, -⟩ | ⟨-, hn⟩)
    · exact hn.mono (le_max_right _ _)
    · exact absurd hsame hb
    · exact (hrecovery hn).mono (le_max_left _ _)
  · have hsame : r.boot = boot := not_not.mp hboot
    refine ⟨rfl, hsame, by simpa using hpending, hclock, by omega, ?_⟩
    rintro n (⟨-, hn⟩ | ⟨hb, -⟩ | ⟨hp, -⟩)
    · exact hn
    · exact absurd hsame hb
    · exact absurd hp hpending

lemma reopen_ready (h : r.reopen boot now = some r')
    (hpending : r.pending = false) :
    r'.durationMs = r.durationMs ∧ (r.boot = boot → r' = r) := by
  unfold Record.reopen at h
  simp only [hpending, Bool.false_eq_true, if_false] at h
  split_ifs at h with hclock hback hboot <;> cases h
  · exact ⟨rfl, fun hsame => absurd hsame hboot⟩
  · exact ⟨rfl, fun _ => rfl⟩

/-- Storing a record takes no deadline back, neither the one of the record nor the one given. -/
theorem commit_spec {untilMs : ℕ} {pending : Bool}
    (h : r.commit now untilMs pending = some r') :
    r'.scope = r.scope ∧ r'.boot = r.boot ∧ r'.pending = pending ∧ now ≠ uint64Max ∧
      r.writtenMs ≤ now ∧ r'.writtenMs = now ∧ r.untilMs ≤ r'.untilMs ∧
      (∀ n, Reaches untilMs n → Reaches r'.untilMs n) ∧
      r'.untilMs ≤ max (max untilMs r.untilMs) now := by
  unfold Record.commit at h
  split_ifs at h with hclock
  cases h
  obtain ⟨hclock, hwritten⟩ := not_or.mp hclock
  refine ⟨rfl, rfl, rfl, hclock, not_lt.mp hwritten, rfl, ?_, fun n hn => ?_, ?_⟩
  · dsimp only
    split_ifs <;> omega
  · refine hn.mono ?_
    dsimp only
    split_ifs <;> omega
  · dsimp only
    split_ifs <;> omega

/-! ### The scan -/

lemma contains_self (url : Text) : cooldownContains url url = true := by
  simp [cooldownContains]

lemma contains_take (rest : Text) (h : url.drop n = '/' :: rest) :
    cooldownContains (url.take n) url = true := by
  have hlt : n < url.length := by
    by_contra hle
    rw [drop_eq_nil_of_le (not_lt.mp hle)] at h
    cases h
  have hlen : (url.take n).length = n := by simp [hlt.le]
  simp [cooldownContains, hlen, h, take_prefix]

lemma contains_parentScope (url : Text) : cooldownContains (parentScope url) url = true := by
  unfold parentScope
  generalize (if httpsPrefix.isPrefixOf url then httpsPrefix.length else httpPrefix.length) = pre
  dsimp only
  split_ifs with hslash
  · obtain ⟨last, before, hrev, hnone⟩ := eq_append_cons_of_mem (mem_reverse.mpr hslash)
    have hrest : url.drop pre = before.reverse ++ '/' :: last.reverse := by
      rw [← reverse_reverse (url.drop pre), hrev]
      simp
    have htail : ((url.drop pre).reverse.takeWhile (· ≠ '/')) = last := by
      rw [hrev, takeWhile_append_of_pos]
      · simp
      · intro c hc
        simpa using fun heq : c = '/' => hnone (heq ▸ hc)
    have hindex : (url.drop pre).length - 1 - last.length = before.length := by
      simp [hrest]
    rw [htail, hindex]
    refine contains_take last.reverse ?_
    rw [← drop_drop, hrest]
    simp
  · exact contains_self url

lemma parentScope_ne_nil (h : url ≠ []) : parentScope url ≠ [] := by
  unfold parentScope
  have hpos : 0 < (if httpsPrefix.isPrefixOf url then httpsPrefix.length
      else httpPrefix.length) := by
    split_ifs <;> decide
  generalize (if httpsPrefix.isPrefixOf url then httpsPrefix.length else httpPrefix.length) = pre
    at hpos ⊢
  dsimp only
  split_ifs with hslash
  · simp only [ne_eq, take_eq_nil_iff, h, or_false]
    omega
  · exact h

lemma scan_spec {bound : Bool} {slots : Fin slotCount → Slot}
    {indices : List (Fin slotCount)} {start s : Scan}
    (h : indices.foldlM (Scan.slot bound url slots) start = some s) :
    (∀ i, s.vacant = some i → start.vacant = some i ∨ (slots i).read = .vacant) ∧
    (s.choice = none → start.choice = none ∧ s.scope = start.scope ∧
      ∀ j ∈ indices, (slots j).read = .vacant ∨ ∃ r, (slots j).read = .found r ∧
        if bound then start.scope ≠ r.scope
        else ¬(cooldownContains r.scope url ∧ start.scope.length < r.scope.length)) := by
  induction indices generalizing start with
  | nil =>
    cases h
    exact ⟨fun i => .inl, fun hnone => ⟨hnone, rfl, by simp⟩⟩
  | cons j indices ih =>
    rw [foldlM_cons] at h
    obtain ⟨next, hnext, hrest⟩ := bind_eq_some_iff.mp h
    obtain ⟨hvacant, hchoice⟩ := ih hrest
    unfold Scan.slot at hnext
    -- a slot that the scan passes by leaves all but `vacant` as it was
    cases hread : (slots j).read with
    | failed => simp [hread] at hnext
    | vacant =>
      simp only [hread, some.injEq] at hnext
      subst hnext
      refine ⟨fun i hi => ?_, fun hnone => ?_⟩
      · rcases hvacant i hi with hv | hv
        · rcases Option.or_eq_some_iff.mp hv with hv | ⟨-, hv⟩
          · exact .inl hv
          · cases hv
            exact .inr hread
        · exact .inr hv
      · obtain ⟨hstart, hscope, hall⟩ := hchoice hnone
        refine ⟨hstart, hscope, fun k hk => ?_⟩
        rcases mem_cons.mp hk with rfl | hk
        · exact .inl hread
        · exact hall k hk
    | found r =>
      have hpass (hsame : next = start) (hnot : if bound then start.scope ≠ r.scope
          else ¬(cooldownContains r.scope url ∧ start.scope.length < r.scope.length)) :
          (∀ i, s.vacant = some i → start.vacant = some i ∨ (slots i).read = .vacant) ∧
          (s.choice = none → start.choice = none ∧ s.scope = start.scope ∧
            ∀ k ∈ j :: indices, (slots k).read = .vacant ∨ ∃ r, (slots k).read = .found r ∧
              if bound then start.scope ≠ r.scope
              else ¬(cooldownContains r.scope url ∧ start.scope.length < r.scope.length)) := by
        subst hsame
        refine ⟨hvacant, fun hnone => ?_⟩
        obtain ⟨hstart, hscope, hall⟩ := hchoice hnone
        refine ⟨hstart, hscope, fun k hk => ?_⟩
        rcases mem_cons.mp hk with rfl | hk
        · exact .inr ⟨r, hread, hnot⟩
        · exact hall k hk
      have htakes {t : Scan} (hsome : next = t) (hv : t.vacant = start.vacant)
          (hc : t.choice ≠ none) : (∀ i, s.vacant = some i → start.vacant = some i ∨
            (slots i).read = .vacant) ∧ s.choice ≠ none := by
        subst hsome
        exact ⟨fun i hi => hv ▸ hvacant i hi, fun hnone => hc (hchoice hnone).1⟩
      simp only [hread] at hnext
      split_ifs at hnext with hb hmatch hmatch <;> cases hnext
      · obtain ⟨hv, hc⟩ := htakes rfl rfl (by simp)
        exact ⟨hv, fun hnone => absurd hnone hc⟩
      · exact hpass rfl (by simpa [hb] using hmatch)
      · obtain ⟨hv, hc⟩ := htakes rfl rfl (by simp)
        exact ⟨hv, fun hnone => absurd hnone hc⟩
      · exact hpass rfl (by rw [if_neg hb]; exact hmatch)

lemma absent_of_vacant {s : Slot} (h : s.read = .vacant) : s.state = .absent ∧ s.lock = false := by
  unfold Slot.read at h
  split at h
  · rename_i hstate
    split_ifs at h with hlock
    exact ⟨hstate, by simpa using hlock⟩
  · cases h
  · split_ifs at h

lemma stored_of_found {s : Slot} (h : s.read = .found r) : s.state = .stored r := by
  unfold Slot.read at h
  split at h
  · split_ifs at h
  · cases h
  rename_i r' hstate
  split_ifs at h
  cases h
  exact hstate

/-- A slot assigned only now is vacant, and its scope is that of no other. -/
theorem chooseSlot_spec {transport : Option Text}
    {slots : Fin slotCount → Slot} {i : Fin slotCount}
    (h : chooseSlot transport url boot now slots = some (i, some r)) (hurl : url ≠ []) :
    (slots i).state = .absent ∧ r.pending = false ∧ r.boot = boot ∧ r.writtenMs = now ∧
      ∀ j r', (slots j).state = .stored r' → r'.scope ≠ r.scope := by
  unfold chooseSlot at h
  generalize hbound : transport.filter (cooldownContains · url) = bound at h
  obtain ⟨s, hs, hrest⟩ := bind_eq_some_iff.mp h
  obtain ⟨hvacant, hchoice⟩ := scan_spec hs
  split at hrest
  · cases hrest
  rename_i hnone
  obtain ⟨k, hk, hir⟩ := map_eq_some_iff.mp hrest
  obtain ⟨-, hscope, hall⟩ := hchoice hnone
  cases hir
  have hv := (hvacant i hk).resolve_left (by simp)
  refine ⟨(absent_of_vacant hv).1, rfl, rfl, rfl, fun j r' hj => ?_⟩
  rcases hall j (mem_finRange j) with hread | ⟨r'', hread, hnot⟩
  · rw [(absent_of_vacant hread).1] at hj
    cases hj
  rw [stored_of_found hread] at hj
  cases hj
  cases bound with
  | some scope =>
    simp only [isSome_some, if_true, hscope] at hnot ⊢
    exact hnot.symm
  | none =>
    simp only [isSome_none, Bool.false_eq_true, if_false] at hnot ⊢
    intro heq
    refine hnot ⟨heq ▸ contains_parentScope url, ?_⟩
    rw [heq]
    exact length_pos_of_ne_nil (parentScope_ne_nil hurl)

end C1auncher.Package.CooldownRecord
