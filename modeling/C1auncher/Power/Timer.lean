import C1auncher.Power.PowerPolicy

/-!
The timer of the power policy: the timeout a runtime polls with agrees with the actions the
next ticks take.

Three deadlines stand behind both. A tick acts once one of them has come, and the timeout is
the time left until the earliest.
-/

namespace C1auncher.Power.Timer

open Power.PowerPolicy Policy List Option

/-! ### What a tick does -/

variable {p : Policy} {d now : ℤ}

lemma active_of_lockDeadline (h : p.lockDeadline = some d) :
    p.state = .active := by
  unfold lockDeadline at h
  split_ifs at h with hno
  by_contra hstate
  exact hno (.inl hstate)

lemma due_iff {o : Option ℤ} : Policy.due o now ↔ ∃ d ∈ o, d ≤ now := by
  cases o <;> simp [due]

/-- A tick takes the first of the actions whose deadline has come, and otherwise changes
nothing. -/
theorem tick_cases (p : Policy) (now : ℤ) :
    (Policy.due p.shutdownDeadline now ∧ p.tick now = (.shutdown, p.shutdownFailed now)) ∨
    (Policy.due p.lockDeadline now ∧ p.state = .active ∧
      p.tick now = (.enterLock, (p.lock now).2)) ∨
    (Policy.due p.suspendDeadline now ∧
      p.tick now = (.suspend, { p with state := .suspendPrepare })) ∨
    ((∀ o ∈ [p.lockDeadline, p.shutdownDeadline, p.suspendDeadline], ¬Policy.due o now) ∧
      p.tick now = (.none, p)) := by
  by_cases hshutdown : due p.shutdownDeadline now
  · exact .inl ⟨hshutdown, by simp [tick, hshutdown]⟩
  by_cases hlock : due p.lockDeadline now
  · obtain ⟨d, hd, -⟩ := due_iff.mp hlock
    have hactive := active_of_lockDeadline hd
    exact .inr (.inl ⟨hlock, hactive, by simp [tick, lock, hshutdown, hlock, hactive]⟩)
  have htick : p.tick now = p.tickSuspend now := by simp [tick, hshutdown, hlock]
  by_cases hsuspend : due p.suspendDeadline now
  · exact .inr (.inr (.inl ⟨hsuspend, by simp [htick, tickSuspend, hsuspend]⟩))
  · refine .inr (.inr (.inr ⟨?_, by simp [htick, tickSuspend, hsuspend]⟩))
    simp [hlock, hshutdown, hsuspend]

def deadlines (p : Policy) : List ℤ :=
  p.lockDeadline.toList ++ p.shutdownDeadline.toList ++ p.suspendDeadline.toList

lemma tick_none_iff :
    (p.tick now).1 = .none ↔ ∀ d ∈ deadlines p, now < d := by
  have hdue : (∃ d ∈ deadlines p, d ≤ now) ↔ due p.lockDeadline now ∨
      due p.shutdownDeadline now ∨ due p.suspendDeadline now := by
    simp only [due_iff, deadlines, mem_append, mem_toList]
    constructor
    · rintro ⟨d, (h | h) | h, hd⟩
      exacts [.inl ⟨d, h, hd⟩, .inr (.inl ⟨d, h, hd⟩), .inr (.inr ⟨d, h, hd⟩)]
    · rintro (⟨d, h, hd⟩ | ⟨d, h, hd⟩ | ⟨d, h, hd⟩)
      exacts [⟨d, .inl (.inl h), hd⟩, ⟨d, .inl (.inr h), hd⟩, ⟨d, .inr h, hd⟩]
  have hall : (∀ d ∈ deadlines p, now < d) ↔ ¬∃ d ∈ deadlines p, d ≤ now := by
    simp only [not_exists, not_and, not_le]
  rw [hall, hdue]
  rcases tick_cases p now with ⟨h, ht⟩ | ⟨h, -, ht⟩ | ⟨h, ht⟩ | ⟨h, ht⟩
  · simp [ht, h]
  · simp [ht, h]
  · simp [ht, h]
  · simp only [mem_cons, not_mem_nil, or_false, forall_eq_or_imp, forall_eq] at h
    simp [ht, h]

lemma tick_of_none (h : (p.tick now).1 = .none) :
    p.tick now = (.none, p) := by
  rcases tick_cases p now with ⟨-, ht⟩ | ⟨-, -, ht⟩ | ⟨-, ht⟩ | ⟨-, ht⟩
  all_goals simp_all

/-! ### What the timeout is -/

lemma timeoutUntil_nonneg (d now : ℤ) : 0 ≤ timeoutUntil d now := by
  unfold timeoutUntil intMax
  split_ifs <;> omega

lemma timeoutUntil_eq_zero : timeoutUntil d now = 0 ↔ d ≤ now := by
  unfold timeoutUntil intMax
  split_ifs <;> omega

lemma add_timeoutUntil_le (h : now < d) : now + timeoutUntil d now ≤ d := by
  unfold timeoutUntil
  split_ifs <;> omega

lemma add_timeoutUntil (h : d - now ≤ intMax) : d ≤ now + timeoutUntil d now := by
  unfold timeoutUntil
  split_ifs <;> omega

/-- The least timeout of some deadlines, or `-1` where there is none. -/
def Least (ds : List ℤ) (now t : ℤ) : Prop :=
  (ds = [] ∧ t = -1) ∨ ((∃ d ∈ ds, t = timeoutUntil d now) ∧ ∀ d ∈ ds, t ≤ timeoutUntil d now)

lemma Least.earlier {ds : List ℤ} {t : ℤ} (h : Least ds now t) (o : Option ℤ) :
    Least (ds ++ o.toList) now (Policy.earlier t o now) := by
  cases o with
  | none => simpa [Policy.earlier] using h
  | some d =>
    have hd := timeoutUntil_nonneg d now
    simp only [Policy.earlier, toList_some]
    rcases h with ⟨rfl, rfl⟩ | ⟨⟨e, he, rfl⟩, hall⟩
    · exact .inr ⟨⟨d, by simp⟩, by simp⟩
    have hnonneg := timeoutUntil_nonneg e now
    refine .inr ⟨?_, ?_⟩
    · split_ifs
      · exact ⟨d, by simp, rfl⟩
      · exact ⟨e, by simp [he], rfl⟩
    intro c hc
    rcases mem_append.mp hc with hc | hc
    · have := hall c hc
      split_ifs <;> omega
    · rw [mem_singleton.mp hc]
      split_ifs <;> omega

lemma least_timeout (p : Policy) (now : ℤ) : Least (deadlines p) now (p.timeout now) := by
  refine Least.earlier (Least.earlier ?_ p.shutdownDeadline) p.suspendDeadline
  rcases p.lockDeadline with _ | d
  · exact .inl ⟨rfl, rfl⟩
  · exact .inr ⟨⟨d, by simp⟩, by simp⟩

/-! ### Agreement -/

def deadlineOf : Action → Policy → Option ℤ
  | .none, _ => none
  | .enterLock, p => p.lockDeadline
  | .suspend, p => p.suspendDeadline
  | .shutdown, p => p.shutdownDeadline

/-- The timeout was clipped: every deadline is more than `INT_MAX` away. -/
def Clipped (p : Policy) (now : ℤ) : Prop := ∀ d ∈ deadlines p, intMax < d - now

structure Announces (p : Policy) (now : ℤ) : Prop where
  /-- With no timeout, no later tick acts. -/
  never : p.timeout now = -1 → ∀ later, now ≤ later → p.tick later = (.none, p)
  /-- Before the timeout has run out, no tick acts. -/
  before : 0 ≤ p.timeout now → ∀ later, now ≤ later → later < now + p.timeout now →
    p.tick later = (.none, p)
  /-- When it has, the next tick does. -/
  after : 0 ≤ p.timeout now → ¬Clipped p now → (p.tick (now + p.timeout now)).1 ≠ .none

/-- What a tick did is not due again at once. -/
def Settles (p : Policy) (now : ℤ) : Prop :=
  (p.tick now).1 ≠ .none →
    ∀ d ∈ deadlineOf (p.tick now).1 (p.tick now).2, timeoutUntil d now ≠ 0

lemma announces (p : Policy) (now : ℤ) : Announces p now where
  never := by
    intro h later _
    refine tick_of_none (tick_none_iff.mpr ?_)
    rcases least_timeout p now with ⟨hnil, -⟩ | ⟨⟨d, -, hd⟩, -⟩
    · simp [hnil]
    · have := timeoutUntil_nonneg d now
      omega
  before := by
    intro h later hnow hlater
    refine tick_of_none (tick_none_iff.mpr fun d hd => ?_)
    rcases least_timeout p now with ⟨-, hneg⟩ | ⟨-, hall⟩
    · omega
    have hle := hall d hd
    have hpos : now < d := by
      by_contra hc
      rw [timeoutUntil_eq_zero.mpr (not_lt.mp hc)] at hle
      omega
    have := add_timeoutUntil_le hpos
    omega
  after := by
    intro h hclip
    rw [Ne, tick_none_iff]
    intro hall
    simp only [Clipped, not_forall, not_lt] at hclip
    obtain ⟨d, hd, hclose⟩ := hclip
    rcases least_timeout p now with ⟨-, hneg⟩ | ⟨⟨e, he, hte⟩, hle⟩
    · omega
    by_cases hec : e - now ≤ intMax
    · have := add_timeoutUntil hec
      have := hall e he
      omega
    -- the least timeout is then `INT_MAX`, and the deadline that is not clipped has come
    have hmax : timeoutUntil e now = intMax := by
      unfold timeoutUntil intMax at *
      split_ifs <;> omega
    have := hall d hd
    omega

lemma shutdownDeadline_ge_retry (h : d ∈ p.shutdownDeadline) :
    p.shutdownRetryAt ≤ d := by
  unfold shutdownDeadline at h
  split_ifs at h
  · simp at h
  · obtain ⟨power, -, rfl⟩ := map_eq_some_iff.mp h
    exact le_max_right _ _

lemma lt_deadlineAfter {delay : ℤ} (hdelay : 0 < delay) (h : now < int64Max) :
    now < deadlineAfter now delay := by
  unfold deadlineAfter
  split_ifs <;> omega

lemma settles_of_ne_shutdown (h : (p.tick now).1 ≠ .shutdown) :
    Settles p now := by
  intro hact d hd
  rcases tick_cases p now with ⟨-, ht⟩ | ⟨-, hactive, ht⟩ | ⟨-, ht⟩ | ⟨-, ht⟩
  · simp [ht] at h
  · simp [ht, deadlineOf, lock, hactive, lockDeadline] at hd
  · simp [ht, deadlineOf, suspendDeadline] at hd
  · simp [ht] at hact

/-- **Timer agreement.** In every state of the policy, at every time, the timeout announces
the ticks; and an action is not due again at once, save a shutdown at the end of the clock. -/
theorem timer_agreement (p : Policy) (now : ℤ) :
    Announces p now ∧ ((p.tick now).1 ≠ .shutdown ∨ now < int64Max → Settles p now) := by
  refine ⟨announces p now, ?_⟩
  rintro (h | hnow)
  · exact settles_of_ne_shutdown h
  · by_cases h : (p.tick now).1 = .shutdown
    · intro _ d hd
      rcases tick_cases p now with ⟨-, ht⟩ | ⟨-, -, ht⟩ | ⟨-, ht⟩ | ⟨-, ht⟩
      · rw [ht] at hd
        have hretry : deadlineAfter now retryDelayMs ≤ d := shutdownDeadline_ge_retry hd
        have hlt : now < deadlineAfter now retryDelayMs := lt_deadlineAfter (by decide) hnow
        rw [Ne, timeoutUntil_eq_zero]
        omega
      all_goals simp [ht] at h
    · exact settles_of_ne_shutdown h

/-- A battery-powered device is locked, and told to shut down, as the clock ends. -/
def endOfClock : List Event :=
  [⟨.lock, 0⟩, ⟨.setExternalPower true false, 0⟩, ⟨.configure 300000 0 60000, 0⟩]

/-- At the end of the clock the retry of a shutdown saturates and is due at once. -/
theorem timer_agreement_fails : ¬∀ (start : ℤ) (history : List Event) (now : ℤ),
    Clocked start history now → now ≤ int64Max →
      Announces (run start history) now ∧ Settles (run start history) now := by
  intro h
  obtain ⟨-, hsettles⟩ := h 0 endOfClock int64Max (by simp [endOfClock, Clocked, int64Max])
    le_rfl
  have hdeadline : int64Max ∈ deadlineOf ((run 0 endOfClock).tick int64Max).1
      ((run 0 endOfClock).tick int64Max).2 := by decide +kernel
  exact hsettles (by decide +kernel) int64Max hdeadline (by decide)

end C1auncher.Power.Timer
