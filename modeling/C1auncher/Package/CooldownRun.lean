import C1auncher.Package.CooldownGate

/-!
No step of a process and no reboot takes a deadline back.
-/

namespace C1auncher.Package.CooldownRun

open CString Package.Cooldown Package.CooldownRecord World
open Package.CooldownGate

/-! ### Steps of a process -/

section
variable {w : World} {p : ℕ}

lemma guarded_leave (h : Guarded w) {phase : Phase} (hphase : PhaseOk w p phase)
    (hfree : phase = .idle ∨ ∃ url now, phase = .waiting url now) :
    Guarded ((w.freeRegistry p).setPhase p phase) := by
  refine h.phase (p := p) ⟨rfl, le_rfl, by simp, by simp, rfl, rfl⟩ (fun q hq => by simp [hq])
    (fun q hq hr => by simp [hr, hq]) ?_
  rcases hfree with rfl | ⟨url, now, rfl⟩
  · simp [PhaseOk]
  · simpa [PhaseOk] using hphase

variable {i : Fin slotCount} {r : Record} {clock : Bool} {w' : World} {notBefore : ℕ}
  {progress : Progress}

lemma guarded_close {registry : Option ℕ} (h : Guarded w)
    (ho : Owns w p i r.scope) (label : Option Label)
    (hg : ∀ q, q ≠ p → w.registry = some q → registry = some q)
    (hlabel : ∀ l ∈ label, w.unanswered i = true ∧ l = .interrupted w.boot r.scope w.clock) :
    Guarded ({ (w.freeGuard i).log label.toList with registry := registry }.setPhase p .idle) := by
  have hok {r' : Record} (hr' : (w.slots i).state = .stored r') {l : Label} (hl : l ∈ label) :
      Keeps w.boot w.clock r' (bound w.boot r'.scope l) := by
    obtain ⟨hu, rfl⟩ := hlabel l hl
    obtain ⟨r'', hr'', hpending⟩ := h.unanswered i hu
    rw [hr'] at hr''
    cases hr''
    refine .inr (.inr ⟨hpending, ?_⟩)
    simp only [bound]
    split_ifs <;> omega
  refine h.local label ⟨rfl, le_rfl, fun j hj => by simp [hj], fun r hr => .inl
    (by simpa using hr), fun r hr => ⟨r, by simpa using hr⟩, fun q hq => by simp [hq], hg,
    fun j hj => rfl, rfl, fun l hl => by rw [(hlabel l hl).2]; rfl⟩ ho (by simp [PhaseOk])
    (fun r' hr' => ?_) (fun l hl => ?_) (fun hu => ?_)
  · have hold : (w.slots i).state = .stored r' := by simpa using hr'
    cases label with
    | none =>
      exact { (h.files i r' hold) with }
    | some l =>
      refine (h.files i r' hold).log rfl rfl rfl (hok hold rfl) ?_
      obtain ⟨-, rfl⟩ := hlabel l rfl
      rfl
  · obtain ⟨hu, rfl⟩ := hlabel l hl
    obtain ⟨r', hr', -⟩ := h.unanswered i hu
    exact ⟨le_rfl, ⟨r', by simpa using hr'⟩, fun old _ => respects_of_not_sent (by simp), by simp⟩
  · simpa using h.unanswered i hu

theorem guarded_release (h : Guarded w) : Guarded (w.release p) := by
  have hp := h.phases p
  unfold release
  split
  · rename_i i r hphase
    rw [hphase] at hp
    exact guarded_close h hp.owns none (fun q hq hr => by simp [hr, hq]) (by simp)
  · rename_i i r notBefore progress hphase
    rw [hphase] at hp
    split_ifs with hu
    · exact guarded_close h (Active.owns hp) (some (.interrupted w.boot r.scope w.clock))
        (fun q hq hr => hr) (by simp [hu])
    · exact guarded_close h (Active.owns hp) none (fun q hq hr => hr) (by simp)
  · exact guarded_leave h (by trivial) (.inl rfl)

lemma clock_of_now (h : w.now clock ≠ uint64Max) :
    w.now clock = w.clock ∧ w.clock < uint64Max := by
  unfold now at *
  split_ifs at * with hc
  · exact ⟨rfl, hc.2⟩
  · exact absurd rfl h

lemma guarded_take (h : Guarded w) (old : Record)
    (hreg : w.registry = some p) (hguard : (w.slots i).guard = none)
    (hscope : ∀ j r', (w.slots j).state = .stored r' → (r'.scope = old.scope ↔ j = i))
    (hkeeps : ∀ l ∈ w.history, Keeps w.boot (w.now clock) old (bound w.boot old.scope l))
    (hold : ∀ r', (w.slots i).state = .stored r' → r' = old)
    (hr : old.reopen w.boot (w.now clock) = some r) :
    Guarded ((w.setSlot i { w.slots i with guard := some p }).setPhase p (.opening i r)) := by
  obtain ⟨hsame, hboot, hpending, hnow, hwritten, hreaches⟩ := reopen_spec hr
  obtain ⟨hclock, -⟩ := clock_of_now hnow
  have ho : Owns w p i r.scope := ⟨fun q _ => by simp [hguard], hsame ▸ hscope, .inl hreg⟩
  refine h.local none ⟨rfl, le_rfl, fun j hj => by simp [hj], fun r hr => .inl
    (by simpa using hr), fun r hr => ⟨r, by simpa using hr⟩, fun q hq => by simp [hq],
    fun q _ hq => hq, fun j _ => rfl, rfl, by simp⟩ ho ?_ (fun r' hr' => ?_) (by simp)
    (fun hu => ?_)
  · simp only [setPhase, Function.update_self, PhaseOk]
    refine ⟨⟨by simp, hboot, hwritten.trans_eq hclock, fun l hl => ?_, fun j r' hr' => ?_⟩, hreg,
      hpending, fun r' hr' => .inr ⟨w.now clock, ?_⟩⟩
    · rw [hsame]
      exact hreaches _ (hkeeps l hl)
    · rw [hsame]
      refine hscope j r' ?_
      by_cases hj : j = i
      · subst hj; simpa using hr'
      · simpa [hj] using hr'
    · rw [hold r' (by simpa using hr')]
      exact hr
  · have hok := h.files i r' (by simpa using hr')
    exact { hok with }
  · simpa using h.unanswered i hu

lemma guarded_lock (h : Guarded w) (i : Fin slotCount) :
    Guarded (w.setSlot i { w.slots i with lock := true }) := by
  have hq : Quiet w (w.setSlot i { w.slots i with lock := true }) :=
    ⟨rfl, le_rfl, fun j => by by_cases hj : j = i <;> simp [hj],
      fun j => by by_cases hj : j = i <;> simp [hj], rfl, rfl⟩
  exact h.quiet hq fun q => (h.phases q).quiet hq id

lemma guarded_chosen {url : Text} {started : ℕ} {fresh : Option Record}
    {old : Record} (h : Guarded w) (hurl : url ≠ [])
    (hold : (match fresh, (w.slots i).read with
        | some record, _ => some record
        | none, .found record => some record
        | none, _ => none) = some old)
    (hchoice : chooseSlot (w.process p).transport url w.boot started w.slots = some (i, fresh)) :
    (∀ j r, (w.slots j).state = .stored r → (r.scope = old.scope ↔ j = i)) ∧
      (∀ l ∈ w.history, Keeps w.boot w.clock old (bound w.boot old.scope l)) ∧
      ∀ r, (w.slots i).state = .stored r → r = old := by
  cases fresh with
  | some record =>
    cases hold
    obtain ⟨habsent, -, -, -, hothers⟩ := chooseSlot_spec hchoice hurl
    have hnone (r : Record) : (w.slots i).state ≠ .stored r := by simp [habsent]
    refine ⟨fun j r hj => ?_, fun l hl => ?_, fun r hr => absurd hr (hnone r)⟩
    · exact iff_of_false (hothers j r hj) (fun heq => hnone r (heq ▸ hj))
    · rw [(h.unowed old.scope hothers).1 l hl]
      exact keeps_zero _ _ _
  | none =>
    cases hread : (w.slots i).read with
    | failed => simp [hread] at hold
    | vacant => simp [hread] at hold
    | found record =>
      simp only [hread, Option.some.injEq] at hold
      subst hold
      have hstored := stored_of_found hread
      refine ⟨fun j r hj => ⟨fun heq => h.scopes j i r record hj hstored heq, ?_⟩,
        (h.files i record hstored).keeps, fun r hr => ?_⟩
      · rintro rfl
        rw [hj] at hstored
        cases hstored
        rfl
      · rw [hr] at hstored
        cases hstored
        rfl

theorem guarded_choose {url : Text} {started : ℕ} (h : Guarded w)
    (hphase : (w.process p).phase = .scanning url started) (clock : Bool) :
    Guarded (w.choose p url started clock) := by
  have hp := h.phases p
  rw [hphase] at hp
  obtain ⟨hreg, hurl⟩ := hp
  unfold choose
  split
  · exact guarded_release h
  rename_i i fresh hchoice
  split_ifs with hguard
  · exact guarded_leave h hurl (.inr ⟨url, started, rfl⟩)
  have hfree : (w.slots i).guard = none := not_not.mp hguard
  dsimp only
  split
  · exact guarded_release (guarded_lock h i)
  rename_i r hr
  obtain ⟨old, hold, hr⟩ := Option.bind_eq_some_iff.mp hr
  have hstate (j : Fin slotCount) (r' : Record)
      (hj : ((w.setSlot i { w.slots i with lock := true }).slots j).state = .stored r') :
      (w.slots j).state = .stored r' := by
    by_cases hji : j = i
    · subst hji; simpa using hj
    · simpa [hji] using hj
  obtain ⟨hscope, hkeeps, hsame⟩ := guarded_chosen h hurl hold hchoice
  have hnow : w.now clock = w.clock := (clock_of_now (reopen_spec hr).2.2.2.1).1
  exact guarded_take (guarded_lock h i) old hreg (by simpa using hfree)
    (fun j r' hj => hscope j r' (hstate j r' hj)) (fun l hl => hnow ▸ hkeeps l hl)
    (fun r' hr' => hsame r' (hstate i r' hr')) hr

lemma guarded_put (h : Guarded w)
    (ho : Owns w p i r.scope) (label : Option Label) (hl : Local w w' p i r.scope label)
    (hstored : (w'.slots i).state = .stored r) (hboot : r.boot = w.boot)
    (hreaches : ∀ l ∈ w'.history, Reaches r.untilMs (bound w.boot r.scope l))
    (hpending : r.pending = awaits r.scope w'.history)
    (hunanswered : w'.unanswered i = true → r.pending = true)
    (hlabel : ∀ l ∈ label, bootOf l ≤ w.boot ∧ (∀ old ∈ w.history, Respects l old) ∧
      (l = .recovered r.scope → awaits r.scope w.history = true))
    (hphase : PhaseOk w' p (w'.process p).phase) : Guarded w' := by
  refine h.local label hl ho hphase (fun r' hr' => ?_) (fun l hmem => ?_) (fun hu => ?_)
  · rw [hstored] at hr'
    cases hr'
    refine ⟨(hboot.trans hl.boot.symm).le, fun l hmem => .inl ⟨hboot.trans hl.boot.symm, ?_⟩,
      hpending⟩
    rw [hl.boot]
    exact hreaches l hmem
  · obtain ⟨hb, hrespects, hawaits⟩ := hlabel l hmem
    exact ⟨hb, ⟨r, hstored⟩, hrespects, hawaits⟩
  · exact ⟨r, hstored, hunanswered hu⟩

lemma putOpened_eq (w : World) (i : Fin slotCount) (r : Record) :
    ∃ label : Option Label,
      w.putOpened i r = ((w.putRecord i r).setUnanswered i false).log label.toList ∧
      ((label = none ∧ ∀ old, (w.slots i).state = .stored old → old.pending = false) ∨
        (label = some (.recovered r.scope) ∧
          ∃ old, (w.slots i).state = .stored old ∧ old.pending = true)) := by
  unfold putOpened
  dsimp only
  cases hstate : (w.slots i).state with
  | stored old =>
    cases hp : old.pending with
    | false => exact ⟨none, by simp [hp], .inl ⟨rfl, fun old' heq => by cases heq; exact hp⟩⟩
    | true => exact ⟨some (.recovered r.scope), by simp [hp], .inr ⟨rfl, old, rfl, hp⟩⟩
  | absent => exact ⟨none, by simp, .inl ⟨rfl, nofun⟩⟩
  | corrupt => exact ⟨none, by simp, .inl ⟨rfl, nofun⟩⟩

lemma awaits_opening (hp : Opening w p i r) (h : Guarded w) : awaits r.scope w.history =
    match (w.slots i).state with | .stored old => old.pending | _ => false := by
  split
  · rename_i old hold
    rw [(h.files i old hold).pending, (hp.scope i old hold).mpr rfl]
  · rename_i hnone
    refine (h.unowed r.scope fun j r' hj heq => ?_).2
    rw [(hp.scope j r' hj).mp heq] at hj
    exact hnone r' hj

lemma guarded_putOpened (h : Guarded w)
    (hphase : (w.process p).phase = .opening i r) : Guarded (w.putOpened i r) := by
  have hp := h.phases p
  rw [hphase] at hp
  have hp : Opening w p i r := hp
  have hawaits := awaits_opening hp h
  obtain ⟨label, heq, hlabel⟩ := putOpened_eq w i r
  rw [heq]
  have hl : Local w (((w.putRecord i r).setUnanswered i false).log label.toList) p i r.scope
      label := by
    refine ⟨rfl, le_rfl, fun j hj => by simp [hj], fun r' hr' => .inr ?_, fun r' _ => ⟨r, by simp⟩,
      fun q _ => rfl, fun q _ hq => hq, fun j hj => by simp [hj], rfl, fun l hmem => ?_⟩
    · simp at hr'
      rw [← hr']
    rcases hlabel with ⟨rfl, -⟩ | ⟨rfl, -⟩
    · cases hmem
    · cases hmem; rfl
  have hbounds : ∀ l ∈ label.toList ++ w.history, Reaches r.untilMs (bound w.boot r.scope l) := by
    intro l hmem
    rcases List.mem_append.mp hmem with hmem | hmem
    · rcases hlabel with ⟨rfl, -⟩ | ⟨rfl, -⟩
      · cases hmem
      · obtain rfl : l = .recovered r.scope := by simpa using hmem
        exact .inr (Nat.zero_le _)
    · exact hp.reaches l hmem
  refine guarded_put h hp.owns label hl (by simp) hp.boot hbounds ?_ (by simp) (fun l hmem => ?_) ?_
  · rw [hp.pending, hl.history]
    rcases hlabel with ⟨rfl, hnot⟩ | ⟨rfl, -⟩
    · refine (Eq.trans hawaits ?_).symm
      split
      · exact hnot _ (by assumption)
      · rfl
    · simp [awaits]
  · rcases hlabel with ⟨rfl, -⟩ | ⟨rfl, old, hold, hpending⟩
    · cases hmem
    cases hmem
    exact ⟨Nat.zero_le _, fun old _ => respects_of_not_sent (by simp), fun _ => by
      rw [hawaits, hold]; exact hpending⟩
  · change PhaseOk _ p (w.process p).phase
    rw [hphase]
    refine ⟨⟨by simpa using hp.guard, hp.boot, hp.written, hbounds, fun j r' hj => ?_⟩,
      hp.registry, hp.pending, fun old hold => .inl ?_⟩
    · by_cases hji : j = i
      · subst hji
        simp at hj
        rw [← hj]
        simp
      · exact hp.scope j r' (by simpa [hji] using hj)
    · simp at hold
      exact hold.symm

theorem guarded_store (h : Guarded w)
    (hphase : (w.process p).phase = .opening i r) (storing : Storing) :
    Guarded (w.store p i r storing) := by
  have hput := guarded_putOpened h hphase
  cases storing with
  | failed => exact guarded_release h
  | renamed => exact guarded_release hput
  | stored =>
    obtain ⟨label, heq, -⟩ := putOpened_eq w i r
    have hp := hput.phases p
    rw [show ((w.putOpened i r).process p).phase = .opening i r by rw [heq]; exact hphase] at hp
    have hp : Opening (w.putOpened i r) p i r := hp
    have hstored : ((w.putOpened i r).slots i).state = .stored r := by rw [heq]; simp
    have hq : Quiet (w.putOpened i r) (((w.putOpened i r).freeRegistry p).setPhase p
        (.active i r r.untilMs .ready)) := ⟨rfl, le_rfl, fun _ => rfl, fun _ => rfl, rfl, rfl⟩
    have ha : Active (w.putOpened i r) p i r r.untilMs .ready :=
      ⟨hp.toHolds, ⟨r, hstored, hp.boot⟩, le_max_left _ _, by simp, by simp⟩
    rw [store]
    refine hput.phase (p := p) hq (fun q hqp => by simp [hqp]) (fun q hqp hr => ?_) ?_
    · simp [hr, hqp]
    · simpa [PhaseOk] using ha.quiet hq

lemma active_retry {r' : Record} {notBefore' : ℕ} (h : Active w p i r notBefore progress) (hscope : r'.scope = r.scope)
    (hboot : r'.boot = r.boot) (hwritten : r'.writtenMs ≤ w.clock) (huntil : r.untilMs ≤ r'.untilMs)
    (hmax : r'.untilMs ≤ max notBefore' r'.writtenMs) : Active w p i r' notBefore' .ready where
  guard := h.guard
  boot := hboot.trans h.boot
  written := hwritten
  reaches l hl := hscope ▸ (h.reaches l hl).mono huntil
  scope j r'' hj := hscope ▸ h.scope j r'' hj
  file := h.file
  untilMs := hmax
  waited := by simp
  marked := by simp

lemma guarded_active (h : Guarded w) (hq : Quiet w w') (hreg : w'.registry = w.registry)
    (hprocess : w'.process = (w.setPhase p (.active i r notBefore progress)).process)
    (ha : Active w p i r notBefore progress) : Guarded w' := by
  refine h.phase (p := p) hq (fun q hqp => ?_) (fun q _ hr => hreg ▸ hr) ?_
  · simp [hprocess, hqp]
  · simpa [hprocess, PhaseOk] using ha.quiet hq

lemma guarded_commit {r' : Record} {notBefore' now : ℕ}
    {progress' : Progress} {pending : Bool} {l : Label} (h : Guarded w)
    (ha : Active w p i r notBefore progress) (hr : r.commit now notBefore' pending = some r')
    (hnotBefore : notBefore ≤ notBefore') (hnow : now ≤ w'.clock)
    (hl : Local w w' p i r.scope (some l))
    (hstored : w'.slots i = { w.slots i with state := .stored r' })
    (hbound : Reaches r'.untilMs (bound w.boot r.scope l)) (hboot : bootOf l ≤ w.boot)
    (hawaits : pending = awaits r.scope (l :: w.history))
    (hunanswered : w'.unanswered i = true → pending = true)
    (hnot : (∀ b s c, l ≠ .sent b s c) ∧ ∀ s, l ≠ .recovered s)
    (hprogress : progress' ≠ .ready → progress ≠ .ready ∧ bound w.boot r.scope l = 0 ∧
      pending = true)
    (hphase : (w'.process p).phase = .active i r' notBefore' progress') : Guarded w' := by
  obtain ⟨hscope, hrboot, hpending, -, hwritten, hat, huntil, hreaches, hmax⟩ := commit_spec hr
  have hall : ∀ l' ∈ w'.history, Reaches r'.untilMs (bound w.boot r'.scope l') := by
    intro l' hmem
    rw [hl.history] at hmem
    rw [hscope]
    rcases List.mem_cons.mp hmem with rfl | hmem
    · exact hbound
    · exact (ha.reaches l' hmem).mono huntil
  have hfile : (w'.slots i).state = .stored r' := by rw [hstored]
  refine guarded_put h (hscope ▸ ha.owns) (some l) (hscope ▸ hl) hfile (hrboot.trans ha.boot) hall
    ?_ (fun hu => hpending.trans (hunanswered hu)) (fun l' hmem => ?_) ?_
  · rw [hpending, hscope, hl.history]
    exact hawaits
  · cases hmem
    exact ⟨hboot, fun old _ => respects_of_not_sent hnot.1, fun heq => absurd heq (hnot.2 _)⟩
  rw [hphase]
  have hwmax := ha.untilMs
  refine ⟨⟨by rw [hstored]; exact ha.guard, (hrboot.trans ha.boot).trans hl.boot.symm, hat ▸ hnow,
    by rw [hl.boot]; exact hall, fun j r'' hj => ?_⟩,
    ⟨r', hfile, (hrboot.trans ha.boot).trans hl.boot.symm⟩, by omega, fun hp l' hmem => ?_,
    fun hp => ⟨r', hfile, hpending.trans (hprogress (by simp [hp])).2.2⟩⟩
  · rw [hscope]
    by_cases hji : j = i
    · subst hji
      rw [hfile] at hj
      cases hj
      simpa using hscope
    · exact ha.scope j r'' (by rw [← hl.slots j hji]; exact hj)
  · obtain ⟨hready, hzero, -⟩ := hprogress hp
    rw [hl.history] at hmem
    rw [hl.boot, hscope]
    rcases List.mem_cons.mp hmem with rfl | hmem
    · rw [hzero]
      exact Nat.zero_le _
    · exact (ha.waited hready l' hmem).trans hl.clock

theorem guarded_begin (h : Guarded w) (hphase : (w.process p).phase = .active i r notBefore progress)
    (storing : Storing) :
    Guarded (w.begin p i r notBefore progress (w.now clock) storing) := by
  have ha : Active w p i r notBefore progress := by
    have hp := h.phases p
    rw [hphase] at hp
    exact hp
  have hquiet {phase : Phase} : Quiet w (w.setPhase p phase) :=
    ⟨rfl, le_rfl, fun _ => rfl, fun _ => rfl, rfl, rfl⟩
  unfold begin
  split
  · exact guarded_active h hquiet rfl rfl (active_retry ha rfl rfl ha.written le_rfl ha.untilMs)
  rename_i r' hr
  obtain ⟨hscope, hboot, hpending, hnow, hwritten, hat, huntil, hreaches, hmax⟩ := commit_spec hr
  obtain ⟨hclock, -⟩ := clock_of_now hnow
  have hwmax := ha.untilMs
  have hrmax : r'.untilMs ≤ max notBefore r'.writtenMs := by omega
  have hmark {progress' : Progress} (hp : progress' ≠ .ready → progress ≠ .ready) :
      Guarded (((w.putRecord i r').log [.marked r'.scope]).setPhase p
        (.active i r' notBefore progress')) := by
    refine guarded_commit (l := .marked r'.scope) h ha hr le_rfl hclock.le
      ⟨rfl, le_rfl, fun j hj => by simp [hj], fun r'' hj => .inr ?_, fun r'' _ => ⟨r', by simp⟩,
        fun q hq => by simp [hq], fun q _ hq => hq, fun j _ => rfl, rfl, fun l hl => ?_⟩
      (by simp) (.inr (Nat.zero_le _)) (Nat.zero_le _) (by simp [awaits, hscope]) (by simp)
      ⟨by simp, by simp⟩ (fun hready => ⟨hp hready, rfl, rfl⟩) (by simp)
    · simp at hj
      rw [← hj, hscope]
    · cases hl
      exact hscope
  dsimp only
  split
  · exact guarded_active h hquiet rfl rfl
      (active_retry ha hscope hboot (hat.trans_le hclock.le) huntil hrmax)
  · exact hmark (by simp)
  refine hmark ?_
  split_ifs with hwaited
  · simp [hwaited]
  · simp

theorem guarded_remember {responded now : ℕ} (h : Guarded w)
    (hphase : (w.process p).phase = .active i r notBefore progress) (seconds : ℕ)
    (hnow : now ≠ uint64Max → now = w.clock) (storing : Storing) :
    Guarded (w.remember p i r notBefore seconds responded now storing) := by
  have ha : Active w p i r notBefore progress := by
    have hp := h.phases p
    rw [hphase] at hp
    exact hp
  have hquiet {phase : Phase} : Quiet w (w.setPhase p phase) :=
    ⟨rfl, le_rfl, fun _ => rfl, fun _ => rfl, rfl, rfl⟩
  have hwmax := ha.untilMs
  unfold remember
  dsimp only
  generalize hlater : max (rememberUntil responded seconds) notBefore = notBefore'
  have hle : notBefore ≤ notBefore' := hlater ▸ le_max_right _ _
  split
  · exact guarded_active h hquiet rfl rfl
      (active_retry ha rfl rfl ha.written le_rfl (by omega))
  rename_i r' hr
  obtain ⟨hscope, hboot, hpending, hread, hwritten, hat, huntil, hreaches, hmax⟩ := commit_spec hr
  have hclock : now ≤ w.clock := (hnow hread).le
  split_ifs
  · exact guarded_active h hquiet rfl rfl
      (active_retry ha hscope hboot (hat.trans_le hclock) huntil (by omega))
  refine guarded_commit (l := .accepted w.boot r'.scope (responded + seconds * 1000)) h ha hr
    hle hclock
    ⟨rfl, le_rfl, fun j hj => by simp [hj], fun r'' hj => .inr ?_, fun r'' _ => ⟨r', by simp⟩,
      fun q hq => by simp [hq], fun q _ hq => hq, fun j hj => by simp [hj], rfl,
      fun l hl => ?_⟩
    (by simp) (hreaches _ ?_) le_rfl (by simp [awaits, hscope]) (by simp)
    ⟨by simp, by simp⟩ (fun hready => absurd rfl hready) (by simp)
  · simp at hj
    rw [← hj, hscope]
  · cases hl
    exact hscope
  · simp only [bound, hscope, and_self, if_true]
    exact (reaches_rememberUntil responded seconds).mono (hlater ▸ le_max_left _ _)

theorem guarded_send (h : Guarded w)
    (hphase : (w.process p).phase = .active i r notBefore .marked) :
    Guarded (((w.setUnanswered i true).log [.sent w.boot r.scope w.clock]).setPhase p
      (.active i r notBefore .ready)) := by
  have ha : Active w p i r notBefore .marked := by
    have hp := h.phases p
    rw [hphase] at hp
    exact hp
  have hquiet : Quiet w (w.setPhase p (.active i r notBefore .ready)) :=
    ⟨rfl, le_rfl, fun _ => rfl, fun _ => rfl, rfl, rfl⟩
  obtain ⟨r', hr', hpending⟩ := ha.marked rfl
  have hready := active_retry ha rfl rfl ha.written le_rfl ha.untilMs
  refine h.local (some (.sent w.boot r.scope w.clock))
    ⟨rfl, le_rfl, fun j _ => rfl, fun _ => .inl, fun r'' hr'' => ⟨r'', hr''⟩,
      fun q hq => by simp [hq], fun q _ hq => hq, fun j hj => by simp [hj], rfl, fun l hl => ?_⟩
    ha.owns ?_ (fun r'' hr'' => ?_) (fun l hl => ?_) (fun _ => ⟨r', hr', hpending⟩)
  · cases hl
    rfl
  · simp only [setPhase, Function.update_self, PhaseOk]
    refine ⟨{ hready with reaches := fun l hl => ?_ }, hready.file,
      hready.untilMs, by simp, by simp⟩
    rcases List.mem_cons.mp hl with rfl | hl
    · exact .inr (Nat.zero_le _)
    · exact hready.reaches l hl
  · exact (h.files i r'' hr'').log rfl rfl rfl (keeps_zero _ _ _) rfl
  · cases hl
    refine ⟨Nat.zero_le _, ⟨r', hr'⟩, fun old hold => ?_, by simp⟩
    rintro _ _ _ ⟨⟩
    exact ha.waited (by simp) old hold

/-- Where the deadline of the process has come, so has all that its scope owes. -/
theorem guarded_wait (h : Guarded w) (hphase : (w.process p).phase = .active i r notBefore progress)
    (hwaits : World.waits r notBefore (w.now clock)) :
    Guarded (w.setPhase p (.active i r notBefore .waited)) := by
  have ha : Active w p i r notBefore progress := by
    have hp := h.phases p
    rw [hphase] at hp
    exact hp
  simp only [waits, Bool.decide_and, Bool.and_eq_true, decide_eq_true_eq] at hwaits
  obtain ⟨hnow, hwritten, hnever, hcome⟩ := hwaits
  obtain ⟨hclock, hlt⟩ := clock_of_now hnow
  have huntil := ha.untilMs
  have hwaited : Active w p i r notBefore .waited := by
    refine ⟨ha.toHolds, ha.file, ha.untilMs, fun _ l hl => ?_, by simp⟩
    rcases ha.reaches l hl with hmax | hle
    · omega
    · omega
  exact guarded_active h ⟨rfl, le_rfl, fun _ => rfl, fun _ => rfl, rfl, rfl⟩ rfl rfl hwaited

lemma cooldownUrl_ne_nil {input output : Text} (h : cooldownUrl input = some output) :
    output ≠ [] := by
  have hpre : httpsPrefix ≠ [] ∧ httpPrefix ≠ [] := by decide
  unfold cooldownUrl at h
  simp only [Option.ite_none_left_eq_some, Option.bind_eq_some_iff, Option.some.injEq] at h
  obtain ⟨-, -, host, -, -, -, -, rfl⟩ := h
  split_ifs <;> simp [hpre]

end

/-! ### Reboots -/

section
variable {w : World}

lemma mem_carried {clock : ℕ} {l : Label}
    (h : l ∈ (List.finRange slotCount).flatMap (w.carried clock)) :
    ∃ i r, (w.slots i).state = .stored r ∧
      (l = .remaining (w.boot + 1) r.scope (clock + r.durationMs) ∨
        (w.unanswered i = true ∧ l = .interrupted (w.boot + 1) r.scope clock)) := by
  obtain ⟨i, -, hi⟩ := List.mem_flatMap.mp h
  unfold carried at hi
  split at hi
  · rename_i r hr
    refine ⟨i, r, hr, ?_⟩
    rcases List.mem_cons.mp hi with rfl | hi
    · exact .inl rfl
    split_ifs at hi with hu
    · exact .inr ⟨hu, by simpa using hi⟩
    · cases hi
  · cases hi

lemma awaits_carried {scope : Text} {labels : List Label} (history : List Label)
    (h : ∀ l ∈ labels, (∃ b s u, l = .remaining b s u) ∨ ∃ b s c, l = .interrupted b s c) :
    awaits scope (labels ++ history) = awaits scope history := by
  induction labels with
  | nil => rfl
  | cons l labels ih =>
    have hrest := ih fun l' hl' => h l' (List.mem_cons_of_mem _ hl')
    rcases h l List.mem_cons_self with ⟨b, s, u, rfl⟩ | ⟨b, s, c, rfl⟩ <;> exact hrest

theorem guarded_reboot (h : Guarded w) (clock : ℕ) : Guarded (w.reboot clock) := by
  have hawaits (scope : Text) : awaits scope (w.reboot clock).history = awaits scope w.history := by
    refine awaits_carried _ fun l hl => ?_
    obtain ⟨i, r, -, rfl | ⟨-, rfl⟩⟩ := mem_carried hl
    · exact .inl ⟨_, _, _, rfl⟩
    · exact .inr ⟨_, _, _, rfl⟩
  have hold (scope : Text) {l : Label} (hl : l ∈ w.history) : bound (w.boot + 1) scope l = 0 :=
    bound_of_boot (Nat.lt_succ_of_le (h.labels l hl))
  refine ⟨fun l hl => ?_, fun i r hr => ?_, h.scopes, fun s hnone => ?_, h.unanswered,
    fun q => trivial, ?_, fun before s after heq => ?_⟩
  · rcases List.mem_append.mp hl with hl | hl
    · obtain ⟨i, r, -, rfl | ⟨-, rfl⟩⟩ := mem_carried hl <;> exact le_rfl
    · exact (h.labels l hl).trans (Nat.le_succ _)
  · have hr : (w.slots i).state = .stored r := hr
    have hboot : r.boot ≠ w.boot + 1 := ((h.files i r hr).boot.trans_lt (Nat.lt_succ_self _)).ne
    refine ⟨(h.files i r hr).boot.trans (Nat.le_succ _), fun l hl => ?_, ?_⟩
    · change Keeps (w.boot + 1) clock r (bound (w.boot + 1) r.scope l)
      rcases List.mem_append.mp hl with hl | hl
      · obtain ⟨j, r', hr', hl⟩ := mem_carried hl
        by_cases hscope : r'.scope = r.scope
        · obtain rfl := h.scopes j i r' r hr' hr hscope
          rw [hr] at hr'
          cases hr'
          rcases hl with rfl | ⟨hu, rfl⟩
          · exact .inr (.inl ⟨hboot, by simp [bound]⟩)
          obtain ⟨r', hr', hpending⟩ := h.unanswered j hu
          rw [hr] at hr'
          cases hr'
          exact .inr (.inr ⟨hpending, by simp [bound]⟩)
        · have hl : scopeOf l ≠ r.scope := by
            rcases hl with rfl | ⟨-, rfl⟩ <;> exact hscope
          rw [bound_of_scope hl]
          exact keeps_zero _ _ _
      · rw [hold _ hl]
        exact keeps_zero _ _ _
    · rw [hawaits]
      exact (h.files i r hr).pending
  · refine ⟨fun l hl => ?_, (hawaits s).trans (h.unowed s hnone).2⟩
    rcases List.mem_append.mp hl with hl | hl
    · obtain ⟨j, r', hr', hl⟩ := mem_carried hl
      refine bound_of_scope ?_
      rcases hl with rfl | ⟨-, rfl⟩ <;> exact hnone j r' hr'
    · exact hold s hl
  · refine List.pairwise_append.mpr ⟨List.pairwise_of_forall_mem_list ?_, h.respects, ?_⟩
    all_goals
      intro l hl old _
      obtain ⟨i, r, -, rfl | ⟨-, rfl⟩⟩ := mem_carried hl <;> exact respects_of_not_sent (by simp)
  · rcases List.append_eq_append_iff.mp heq with ⟨middle, -, hafter⟩ | ⟨middle, hcarried, hafter⟩
    · exact h.once middle s after hafter
    cases middle with
    | nil => exact h.once [] s after hafter.symm
    | cons l middle =>
      obtain ⟨rfl, -⟩ := List.cons.inj hafter
      have hl : Label.recovered s ∈ (List.finRange slotCount).flatMap (w.carried clock) := by
        rw [hcarried]
        simp
      obtain ⟨i, r, -, heq | ⟨-, heq⟩⟩ := mem_carried hl <;> cases heq

end

/-! ### Runs -/

lemma guarded_setPhase {w : World} {p : ℕ} {phase : Phase} (h : Guarded w)
    (hphase : PhaseOk (w.setPhase p phase) p phase) : Guarded (w.setPhase p phase) :=
  h.phase (p := p) ⟨rfl, le_rfl, fun _ => rfl, fun _ => rfl, rfl, rfl⟩ (fun q hq => by simp [hq])
    (fun q _ hr => hr) (by simpa using hphase)

lemma guarded_die {w : World} (h : Guarded w) (p : ℕ) :
    Guarded { w with process := Function.update w.process p ⟨none, .idle⟩ } :=
  h.phase (p := p) ⟨rfl, le_rfl, fun _ => rfl, fun _ => rfl, rfl, rfl⟩ (fun q hq => by simp [hq])
    (fun q _ hr => hr) (by simp [PhaseOk])

lemma guarded_bind {w : World} (h : Guarded w) (p : ℕ) (transport : Option Text) :
    Guarded { w with
      process := Function.update w.process p { w.process p with transport := transport } } := by
  have hq : Quiet w { w with
      process := Function.update w.process p { w.process p with transport := transport } } :=
    ⟨rfl, le_rfl, fun _ => rfl, fun _ => rfl, rfl, rfl⟩
  refine h.quiet hq fun q => ?_
  by_cases hqp : q = p
  · subst hqp
    simpa using (h.phases q).quiet hq id
  · simpa [hqp] using (h.phases q).quiet hq id

lemma guarded_tick {w : World} (h : Guarded w) (ms : ℕ) :
    Guarded { w with clock := w.clock + ms } := by
  have hq : Quiet w { w with clock := w.clock + ms } :=
    ⟨rfl, Nat.le_add_right _ _, fun _ => rfl, fun _ => rfl, rfl, rfl⟩
  exact h.quiet hq fun q => (h.phases q).quiet hq id

theorem guarded_step {w w' : World} {e : Event} (h : Guarded w) (hstep : w.step e = some w') :
    Guarded w' := by
  cases e with
  | tick ms =>
    cases hstep
    exact guarded_tick h ms
  | reboot clock =>
    cases hstep
    exact guarded_reboot h clock
  | bind p repoBase =>
    cases hstep
    exact guarded_bind h p _
  | «open» p url clock =>
    simp only [step] at hstep
    split at hstep
    · split at hstep
      · cases hstep
        exact h
      rename_i url' hurl
      split_ifs at hstep <;> cases hstep
      · exact h
      · exact guarded_setPhase h (cooldownUrl_ne_nil hurl)
    · cases hstep
      exact guarded_release h
    · cases hstep
  | lock p =>
    simp only [step] at hstep
    split at hstep
    · rename_i url now hphase
      split_ifs at hstep with hfree
      cases hstep
      have hp := h.phases p
      rw [hphase] at hp
      refine h.phase (p := p) ⟨rfl, le_rfl, fun _ => rfl, fun _ => rfl, rfl, rfl⟩
        (fun q hq => by simp [hq]) (fun q _ hr => absurd (hr ▸ by simp) hfree) ?_
      simpa [PhaseOk] using hp
    · cases hstep
  | choose p clock =>
    simp only [step] at hstep
    split at hstep
    · rename_i url started hphase
      cases hstep
      exact guarded_choose h hphase clock
    · cases hstep
  | store p storing =>
    simp only [step] at hstep
    split at hstep
    · rename_i i r hphase
      cases hstep
      exact guarded_store h hphase storing
    · cases hstep
  | fail p =>
    simp only [step] at hstep
    split at hstep <;> cases hstep <;> exact guarded_release h
  | wait p clock =>
    simp only [step] at hstep
    split at hstep
    · rename_i i r notBefore progress hphase
      split_ifs at hstep with hwaits
      cases hstep
      exact guarded_wait h hphase hwaits
    · cases hstep
  | begin p clock storing =>
    simp only [step] at hstep
    split at hstep
    · rename_i i r notBefore progress hphase
      cases hstep
      exact guarded_begin h hphase storing
    · cases hstep
  | send p =>
    simp only [step] at hstep
    split at hstep
    · rename_i i r notBefore hphase
      cases hstep
      exact guarded_send h hphase
    · cases hstep
  | remember p seconds clock ms clock' storing =>
    simp only [step] at hstep
    split at hstep
    · rename_i i r notBefore progress hphase
      cases hstep
      refine guarded_remember (guarded_tick h ms) hphase seconds (fun hnow => ?_) storing
      split_ifs at hnow with hread
      · exact absurd rfl hnow
      · rw [if_neg hread]
        exact (clock_of_now hnow).1
    · cases hstep
  | close p =>
    simp only [step] at hstep
    split at hstep <;> cases hstep
    exact guarded_release h
  | die p =>
    cases hstep
    exact guarded_die (guarded_release h) p

theorem guarded_run {w w' : World} {events : List Event} (h : Guarded w)
    (hrun : w.run events = some w') : Guarded w' := by
  induction events generalizing w with
  | nil =>
    cases hrun
    exact h
  | cons e events ih =>
    obtain ⟨next, hstep, hrest⟩ := Option.bind_eq_some_iff.mp hrun
    exact ih (guarded_step h hstep) hrest

/-- **A cooldown is never shortened.** Whatever processes do and wherever they die, over any number
of boots, a request for a scope is sent only when the clock has reached every deadline accepted for
the scope in this boot, the interval that the boot started with has passed again, and 60 seconds
have passed since a request was left without a stored response. A marker is made a recovery wait
once, and another opening adds no wait to a record without one. -/
theorem cooldown_never_shortened {events : List Event} {w : World}
    (hrun : World.initial.run events = some w) :
    w.history.Pairwise Respects ∧
    (∀ before scope after, w.history = before ++ .recovered scope :: after →
      awaits scope after = true) ∧
    ∀ p i r old, (w.process p).phase = .opening i r → (w.slots i).state = .stored old →
      old.pending = false → r.durationMs = old.durationMs ∧ (old.boot = w.boot → r = old) := by
  have h := guarded_run guarded_initial hrun
  refine ⟨h.respects, h.once, fun p i r old hphase hold hpending => ?_⟩
  have hp := h.phases p
  rw [hphase] at hp
  rcases hp.reopened old hold with rfl | ⟨now, hr⟩
  · exact ⟨rfl, fun _ => rfl⟩
  · exact reopen_ready hr hpending

/-- A process that dies after its request, and the next boot. -/
def interruptedRun : List Event :=
  [.open 0 "http://h/a".toList true, .lock 0, .choose 0 true, .store 0 .stored, .wait 0 true,
    .begin 0 true .stored, .send 0, .die 0, .reboot 5, .open 1 "http://h/b".toList true, .lock 1,
    .choose 1 true, .store 1 .stored, .tick 60000, .wait 1 true, .begin 1 true .stored, .send 1,
    .remember 1 7 true 1 true .stored]

theorem cooldown_never_shortened_interrupted :
    ∃ w, World.initial.run interruptedRun = some w ∧
      w.history = [.accepted 1 "http://h".toList 67005, .sent 1 "http://h".toList 60005,
        .marked "http://h".toList, .recovered "http://h".toList,
        .remaining 1 "http://h".toList 5, .interrupted 1 "http://h".toList 5,
        .interrupted 0 "http://h".toList 0, .sent 0 "http://h".toList 0,
        .marked "http://h".toList] ∧
      w.history.Pairwise Respects :=
  ⟨_, rfl, by decide +kernel,
    (cooldown_never_shortened (show initial.run interruptedRun = some _ from rfl)).1⟩

end C1auncher.Package.CooldownRun
