import C1auncher.Package.CooldownRecord

/-!
The cooldown over whole runs: no request is sent before a deadline it has to keep.

A record on disk keeps to everything its scope owes, and so does the copy of the process that
holds the guard. A step of one process touches one slot and adds labels of one scope only, so
that the others keep what they have.
-/

namespace C1auncher.Package.CooldownGate

open CString Package.Cooldown Package.CooldownRecord List Option

/-! ### What a history demands -/

/-- Before what clock reading the label forbids a request for the scope in the boot. -/
def bound (boot : ℕ) (scope : Text) : Label → ℕ
  | .accepted b s u => if b = boot ∧ s = scope then u else 0
  | .remaining b s u => if b = boot ∧ s = scope then u else 0
  | .interrupted b s c => if b = boot ∧ s = scope then c + recoveryMs else 0
  | _ => 0

/-- A request is sent no earlier than what happened before allows. -/
def Respects (new old : Label) : Prop :=
  ∀ boot scope clock, new = .sent boot scope clock → bound boot scope old ≤ clock

lemma respects_of_not_sent {new old : Label} (h : ∀ b s c, new ≠ .sent b s c) :
    Respects new old := fun b s c heq => absurd heq (h b s c)

/-- The marker of the last request for the scope has neither got a response nor been recovered
from. -/
def awaits (scope : Text) : List Label → Bool
  | [] => false
  | .marked s :: history => if s = scope then true else awaits scope history
  | .recovered s :: history | .accepted _ s _ :: history =>
    if s = scope then false else awaits scope history
  | _ :: history => awaits scope history

def scopeOf : Label → Text
  | .accepted _ s _ | .remaining _ s _ | .interrupted _ s _ | .marked s | .recovered s
  | .sent _ s _ => s

def bootOf : Label → ℕ
  | .accepted b _ _ | .remaining b _ _ | .interrupted b _ _ => b
  | _ => 0

variable {scope s : Text} {w' : World} {i : Fin slotCount} {label : Option Label} {r : Record}

lemma bound_of_scope {boot : ℕ} {l : Label} (h : scopeOf l ≠ scope) :
    bound boot scope l = 0 := by
  cases l <;> simp_all [bound, scopeOf]

lemma bound_of_boot {boot : ℕ} {l : Label} (h : bootOf l < boot) :
    bound boot scope l = 0 := by
  cases l <;> simp only [bound, bootOf] at * <;> grind

lemma awaits_append {labels : List Label} (history : List Label)
    (h : ∀ l ∈ labels, scopeOf l ≠ scope) :
    awaits scope (labels ++ history) = awaits scope history := by
  induction labels with
  | nil => rfl
  | cons l labels ih =>
    have hl := h l mem_cons_self
    have hrest := ih fun l' hl' => h l' (mem_cons_of_mem _ hl')
    cases l <;> simp_all [awaits, scopeOf]

/-! ### The invariant -/

/-- A file keeps to what its scope owes, and says whether a request awaits its response. -/
structure FileOk (w : World) (r : Record) : Prop where
  boot : r.boot ≤ w.boot
  keeps : ∀ l ∈ w.history, Keeps w.boot w.clock r (bound w.boot r.scope l)
  pending : r.pending = awaits r.scope w.history

/-- A process has the guard of a slot, and in its copy of the record what the scope owes. -/
structure Holds (w : World) (p : ℕ) (i : Fin slotCount) (r : Record) : Prop where
  guard : (w.slots i).guard = some p
  boot : r.boot = w.boot
  written : r.writtenMs ≤ w.clock
  reaches : ∀ l ∈ w.history, Reaches r.untilMs (bound w.boot r.scope l)
  scope : ∀ j r', (w.slots j).state = .stored r' → (r'.scope = r.scope ↔ j = i)

structure Opening (w : World) (p : ℕ) (i : Fin slotCount) (r : Record) : Prop
    extends Holds w p i r where
  registry : w.registry = some p
  pending : r.pending = false
  reopened : ∀ old, (w.slots i).state = .stored old →
    old = r ∨ ∃ now, old.reopen w.boot now = some r

structure Active (w : World) (p : ℕ) (i : Fin slotCount) (r : Record) (notBefore : ℕ)
    (progress : Progress) : Prop extends Holds w p i r where
  file : ∃ r', (w.slots i).state = .stored r' ∧ r'.boot = w.boot
  untilMs : r.untilMs ≤ max notBefore r.writtenMs
  waited : progress ≠ .ready → ∀ l ∈ w.history, bound w.boot r.scope l ≤ w.clock
  marked : progress = .marked → ∃ r', (w.slots i).state = .stored r' ∧ r'.pending = true

def PhaseOk (w : World) (p : ℕ) : Phase → Prop
  | .idle => True
  | .waiting url _ => url ≠ []
  | .scanning url _ => w.registry = some p ∧ url ≠ []
  | .opening i r => Opening w p i r
  | .active i r notBefore progress => Active w p i r notBefore progress

structure Guarded (w : World) : Prop where
  labels : ∀ l ∈ w.history, bootOf l ≤ w.boot
  files : ∀ i r, (w.slots i).state = .stored r → FileOk w r
  scopes : ∀ i j r r', (w.slots i).state = .stored r → (w.slots j).state = .stored r' →
    r.scope = r'.scope → i = j
  unowed : ∀ s, (∀ i r, (w.slots i).state = .stored r → r.scope ≠ s) →
    (∀ l ∈ w.history, bound w.boot s l = 0) ∧ awaits s w.history = false
  unanswered : ∀ i, w.unanswered i = true → ∃ r, (w.slots i).state = .stored r ∧ r.pending = true
  phases : ∀ p, PhaseOk w p (w.process p).phase
  respects : w.history.Pairwise Respects
  once : ∀ before s after, w.history = before ++ .recovered s :: after → awaits s after = true

lemma guarded_initial : Guarded World.initial := by
  refine ⟨?_, ?_, ?_, ?_, ?_, ?_, ?_, ?_⟩ <;> simp [World.initial, awaits, PhaseOk]

/-! ### Steps of one process on one slot -/

/-- Only the process `p`, the slot `i` and a label of the scope `s` are new. -/
structure Local (w w' : World) (p : ℕ) (i : Fin slotCount) (s : Text) (label : Option Label) :
    Prop where
  boot : w'.boot = w.boot
  clock : w.clock ≤ w'.clock
  slots : ∀ j, j ≠ i → w'.slots j = w.slots j
  state : ∀ r, (w'.slots i).state = .stored r → (w.slots i).state = .stored r ∨ r.scope = s
  stays : ∀ r, (w.slots i).state = .stored r → ∃ r', (w'.slots i).state = .stored r'
  process : ∀ q, q ≠ p → (w'.process q).phase = (w.process q).phase
  registry : ∀ q, q ≠ p → w.registry = some q → w'.registry = some q
  unanswered : ∀ j, j ≠ i → w'.unanswered j = w.unanswered j
  history : w'.history = label.toList ++ w.history
  label : ∀ l ∈ label, scopeOf l = s

/-- The process that takes the step is the only one at the slot and for the scope. -/
structure Owns (w : World) (p : ℕ) (i : Fin slotCount) (s : Text) : Prop where
  guard : ∀ q, q ≠ p → (w.slots i).guard ≠ some q
  scope : ∀ j r, (w.slots j).state = .stored r → (r.scope = s ↔ j = i)
  file : w.registry = some p ∨ ∃ r, (w.slots i).state = .stored r

lemma Holds.frame {w : World} {p q : ℕ} {j : Fin slotCount} (h : Holds w q j r) (hl : Local w w' p i s label) (hj : j ≠ i)
    (hs : r.scope ≠ s) : Holds w' q j r where
  guard := by rw [hl.slots j hj]; exact h.guard
  boot := h.boot.trans hl.boot.symm
  written := h.written.trans hl.clock
  reaches l hmem := by
    rw [hl.history] at hmem
    rw [hl.boot]
    rcases mem_append.mp hmem with hnew | hold
    · rw [bound_of_scope (hl.label l (mem_toList.mp hnew) ▸ hs.symm)]
      exact .inr (Nat.zero_le _)
    · exact h.reaches l hold
  scope k r' hk := by
    by_cases hki : k = i
    · subst hki
      rcases hl.state r' hk with hold | hnew
      · exact h.scope k r' hold
      · exact iff_of_false (fun heq => hs (heq ▸ hnew)) (fun heq => hj heq.symm)
    · rw [hl.slots k hki] at hk
      exact h.scope k r' hk

lemma PhaseOk.frame {w : World} {p q : ℕ}
    {phase : Phase} (h : PhaseOk w q phase) (hq : q ≠ p) (hl : Local w w' p i s label)
    (ho : Owns w p i s) : PhaseOk w' q phase := by
  cases phase with
  | idle => trivial
  | waiting url now => exact h
  | scanning url now => exact ⟨hl.registry q hq h.1, h.2⟩
  | opening j r =>
    have hj : j ≠ i := fun heq => ho.guard q hq (heq ▸ h.guard)
    have hs : r.scope ≠ s := by
      intro heq
      rcases ho.file with hreg | ⟨r', hr'⟩
      · rw [h.registry] at hreg
        exact hq (some.inj hreg)
      · have hrs : r'.scope = s := (ho.scope i r' hr').mpr rfl
        exact hj ((h.scope i r' hr').mp (hrs.trans heq.symm)).symm
    exact ⟨h.toHolds.frame hl hj hs, hl.registry q hq h.registry, h.pending,
      by rw [hl.slots j hj, hl.boot]; exact h.reopened⟩
  | active j r notBefore progress =>
    have hj : j ≠ i := fun heq => ho.guard q hq (heq ▸ h.guard)
    have hs : r.scope ≠ s := by
      obtain ⟨r', hr', -⟩ := h.file
      rw [← (h.scope j r' hr').mpr rfl]
      exact fun heq => hj ((ho.scope j r' hr').mp heq)
    refine ⟨h.toHolds.frame hl hj hs, by rw [hl.slots j hj, hl.boot]; exact h.file, h.untilMs,
      fun hp l hmem => ?_, by rw [hl.slots j hj]; exact h.marked⟩
    rw [hl.history] at hmem
    rw [hl.boot]
    rcases mem_append.mp hmem with hnew | hold
    · rw [bound_of_scope (hl.label l (mem_toList.mp hnew) ▸ hs.symm)]
      exact Nat.zero_le _
    · exact (h.waited hp l hold).trans hl.clock

lemma keeps_zero (boot clock : ℕ) (r : Record) : Keeps boot clock r 0 := by
  by_cases h : r.boot = boot
  · exact .inl ⟨h, .inr (Nat.zero_le _)⟩
  · exact .inr (.inl ⟨h, Nat.zero_le _⟩)

lemma Owns.scope_eq {w : World} {p : ℕ}
    (ho : Owns w p i s) (hl : Local w w' p i s label)
    (hr : (w'.slots i).state = .stored r) : r.scope = s :=
  (hl.state r hr).elim (fun hold => (ho.scope i r hold).mpr rfl) id

/-- A step of one process on its slot keeps the invariant if it does so at this process and this
slot. -/
theorem Guarded.local {w : World} {p : ℕ} (label : Option Label)
    (h : Guarded w) (hl : Local w w' p i s label) (ho : Owns w p i s)
    (hphase : PhaseOk w' p (w'.process p).phase)
    (hfile : ∀ r, (w'.slots i).state = .stored r → FileOk w' r)
    (hlabel : ∀ l ∈ label, bootOf l ≤ w.boot ∧ (∃ r, (w'.slots i).state = .stored r) ∧
      (∀ old ∈ w.history, Respects l old) ∧ (l = .recovered s → awaits s w.history = true))
    (hunanswered : w'.unanswered i = true →
      ∃ r, (w'.slots i).state = .stored r ∧ r.pending = true) : Guarded w' := by
  have hother {j : Fin slotCount} (hj : j ≠ i) {r : Record}
      (hr : (w'.slots j).state = .stored r) : (w.slots j).state = .stored r ∧ r.scope ≠ s := by
    rw [hl.slots j hj] at hr
    exact ⟨hr, fun heq => hj ((ho.scope j r hr).mp heq)⟩
  have hnew {s' : Text} (hs : s' ≠ s) : ∀ l ∈ label.toList, scopeOf l ≠ s' := fun l hmem =>
    hl.label l (mem_toList.mp hmem) ▸ hs.symm
  refine ⟨?_, ?_, ?_, ?_, ?_, fun q => ?_, ?_, ?_⟩
  · intro l hmem
    rw [hl.history] at hmem
    rw [hl.boot]
    rcases mem_append.mp hmem with hmem | hmem
    · exact (hlabel l (mem_toList.mp hmem)).1
    · exact h.labels l hmem
  · intro j r hr
    by_cases hj : j = i
    · exact hfile r (hj ▸ hr)
    obtain ⟨hold, hs⟩ := hother hj hr
    have hok := h.files j r hold
    refine ⟨hok.boot.trans_eq hl.boot.symm, fun l hmem => ?_, ?_⟩
    · rw [hl.history] at hmem
      rw [hl.boot]
      rcases mem_append.mp hmem with hmem | hmem
      · rw [bound_of_scope (hnew hs l hmem)]
        exact keeps_zero _ _ _
      · exact (hok.keeps l hmem).tick hl.clock
    · rw [hl.history, awaits_append _ (hnew hs)]
      exact hok.pending
  · intro j k r r' hr hr' hsame
    by_cases hj : j = i <;> by_cases hk : k = i
    · rw [hj, hk]
    · subst hj
      exact absurd ((hsame.symm).trans (ho.scope_eq hl hr)) (hother hk hr').2
    · subst hk
      exact absurd (hsame.trans (ho.scope_eq hl hr')) (hother hj hr).2
    · exact h.scopes j k r r' (hother hj hr).1 (hother hk hr').1 hsame
  · intro s' hnone
    have hbefore : ∀ j r, (w.slots j).state = .stored r → r.scope ≠ s' := by
      intro j r hr
      by_cases hj : j = i
      · subst hj
        obtain ⟨r', hr'⟩ := hl.stays r hr
        rw [(ho.scope j r hr).mpr rfl, ← ho.scope_eq hl hr']
        exact hnone j r' hr'
      · exact hnone j r (by rw [hl.slots j hj]; exact hr)
    have hfresh : ∀ l ∈ label.toList, scopeOf l ≠ s' := by
      intro l hmem
      obtain ⟨-, ⟨r, hr⟩, -⟩ := hlabel l (mem_toList.mp hmem)
      rw [hl.label l (mem_toList.mp hmem), ← ho.scope_eq hl hr]
      exact hnone i r hr
    obtain ⟨hzero, hawaits⟩ := h.unowed s' hbefore
    rw [hl.history, hl.boot, awaits_append _ hfresh]
    refine ⟨fun l hmem => ?_, hawaits⟩
    rcases mem_append.mp hmem with hmem | hmem
    · exact bound_of_scope (hfresh l hmem)
    · exact hzero l hmem
  · intro j hj
    by_cases hji : j = i
    · subst hji
      exact hunanswered hj
    · rw [hl.slots j hji]
      exact h.unanswered j (hl.unanswered j hji ▸ hj)
  · by_cases hq : q = p
    · exact hq ▸ hphase
    · rw [hl.process q hq]
      exact (h.phases q).frame hq hl ho
  · rw [hl.history]
    cases label with
    | none => exact h.respects
    | some l => exact List.pairwise_cons.mpr ⟨(hlabel l rfl).2.2.1, h.respects⟩
  · intro before s' after heq
    rw [hl.history] at heq
    cases label with
    | none => exact h.once before s' after heq
    | some l =>
      cases before with
      | nil =>
        obtain ⟨rfl, rfl⟩ := cons.inj heq
        have hs : s' = s := hl.label _ rfl
        subst hs
        exact (hlabel _ rfl).2.2.2 rfl
      | cons l' before =>
        obtain ⟨-, heq⟩ := cons.inj heq
        exact h.once before s' after heq

/-! ### Steps that leave the files alone -/

/-- No file, no guard and no label is new. -/
structure Quiet (w w' : World) : Prop where
  boot : w'.boot = w.boot
  clock : w.clock ≤ w'.clock
  state : ∀ i, (w'.slots i).state = (w.slots i).state
  guard : ∀ i, (w'.slots i).guard = (w.slots i).guard
  unanswered : w'.unanswered = w.unanswered
  history : w'.history = w.history

lemma Holds.quiet {w : World} {p : ℕ} (h : Holds w p i r)
    (hq : Quiet w w') : Holds w' p i r where
  guard := (hq.guard i).trans h.guard
  boot := h.boot.trans hq.boot.symm
  written := h.written.trans hq.clock
  reaches := by rw [hq.history, hq.boot]; exact h.reaches
  scope j r' hj := h.scope j r' (hq.state j ▸ hj)

lemma Active.quiet {w : World} {p : ℕ} {notBefore : ℕ}
    {progress : Progress} (h : Active w p i r notBefore progress) (hq : Quiet w w') :
    Active w' p i r notBefore progress where
  toHolds := h.toHolds.quiet hq
  file := by rw [hq.state, hq.boot]; exact h.file
  untilMs := h.untilMs
  waited hp l hl := by
    rw [hq.history] at hl
    rw [hq.boot]
    exact (h.waited hp l hl).trans hq.clock
  marked := by rw [hq.state]; exact h.marked

lemma PhaseOk.quiet {w : World} {p : ℕ} {phase : Phase} (h : PhaseOk w p phase)
    (hq : Quiet w w') (hreg : w.registry = some p → w'.registry = some p) :
    PhaseOk w' p phase := by
  cases phase with
  | idle => trivial
  | waiting url now => exact h
  | scanning url now => exact ⟨hreg h.1, h.2⟩
  | opening i r =>
    exact ⟨h.toHolds.quiet hq, hreg h.registry, h.pending,
      by rw [hq.state, hq.boot]; exact h.reopened⟩
  | active i r notBefore progress => exact Active.quiet h hq

theorem Guarded.quiet {w : World} (h : Guarded w) (hq : Quiet w w')
    (hphases : ∀ p, PhaseOk w' p (w'.process p).phase) : Guarded w' where
  labels := by rw [hq.history, hq.boot]; exact h.labels
  files i r hr := by
    rw [hq.state] at hr
    have hok := h.files i r hr
    refine ⟨hok.boot.trans_eq hq.boot.symm, fun l hl => ?_, by rw [hq.history]; exact hok.pending⟩
    rw [hq.history] at hl
    rw [hq.boot]
    exact (hok.keeps l hl).tick hq.clock
  scopes i j r r' hr hr' := h.scopes i j r r' (hq.state i ▸ hr) (hq.state j ▸ hr')
  unowed s hnone := by
    rw [hq.history, hq.boot]
    exact h.unowed s fun i r hr => hnone i r ((hq.state i).trans hr)
  unanswered i hi := by
    rw [hq.state]
    exact h.unanswered i (hq.unanswered ▸ hi)
  phases := hphases
  respects := by rw [hq.history]; exact h.respects
  once := by rw [hq.history]; exact h.once

lemma Guarded.phase {w : World} {p : ℕ} (h : Guarded w) (hq : Quiet w w')
    (hprocess : ∀ q, q ≠ p → (w'.process q).phase = (w.process q).phase)
    (hreg : ∀ q, q ≠ p → w.registry = some q → w'.registry = some q)
    (hphase : PhaseOk w' p (w'.process p).phase) : Guarded w' := by
  refine h.quiet hq fun q => ?_
  by_cases hqp : q = p
  · exact hqp ▸ hphase
  · rw [hprocess q hqp]
    exact (h.phases q).quiet hq (hreg q hqp)

/-! ### Owners -/

section
variable {w : World} {p : ℕ}

variable {i : Fin slotCount} {r : Record}

lemma Holds.owns (h : Holds w p i r)
    (hfile : w.registry = some p ∨ ∃ r', (w.slots i).state = .stored r') :
    Owns w p i r.scope where
  guard _ hq heq := hq (some.inj (heq.symm.trans h.guard))
  scope := h.scope
  file := hfile

lemma Opening.owns (h : Opening w p i r) : Owns w p i r.scope :=
  h.toHolds.owns (.inl h.registry)

lemma Active.owns {notBefore : ℕ} {progress : Progress}
    (h : Active w p i r notBefore progress) : Owns w p i r.scope := by
  obtain ⟨r', hr', -⟩ := h.file
  exact h.toHolds.owns (.inr ⟨r', hr'⟩)

lemma FileOk.log {w' : World} {l : Label} (h : FileOk w r) (hboot : w'.boot = w.boot)
    (hclock : w'.clock = w.clock) (hhistory : w'.history = l :: w.history)
    (hkeeps : Keeps w.boot w.clock r (bound w.boot r.scope l))
    (hawaits : awaits r.scope (l :: w.history) = awaits r.scope w.history) : FileOk w' r where
  boot := h.boot.trans_eq hboot.symm
  keeps l' hl' := by
    rw [hhistory] at hl'
    rw [hboot, hclock]
    rcases mem_cons.mp hl' with rfl | hl'
    · exact hkeeps
    · exact h.keeps l' hl'
  pending := by rw [hhistory, hawaits]; exact h.pending

end

end C1auncher.Package.CooldownGate
