import Mathlib

/-!
The power policy: when to lock, to shut down and to suspend.

The policy keeps a few time stamps. Every call is given the reading of a clock in
milliseconds; sums of such readings saturate at the largest `int64_t`.
-/

namespace C1auncher.Power.PowerPolicy

def int64Max : ℤ := 9223372036854775807

/-- `INT_MAX` -/
def intMax : ℤ := 2147483647

/-- `C1_POWER_IDLE_TIMEOUT_MS` -/
def idleTimeoutMs : ℤ := 5 * 60 * 1000

/-- `C1_POWER_LOCK_TIMEOUT_MS` -/
def lockTimeoutMs : ℤ := 20 * 1000

/-- `C1_POWER_EXTERNAL_OFFLINE_DELAY_MS` -/
def externalOfflineDelayMs : ℤ := 20 * 1000

/-- `C1_POWER_RETRY_DELAY_MS` -/
def retryDelayMs : ℤ := 60 * 1000

inductive PowerState
  | active
  | locked
  | suspendPrepare
  | resuming
  deriving DecidableEq

inductive Action
  | none
  | enterLock
  | suspend
  | shutdown
  deriving DecidableEq

structure Policy where
  state : PowerState
  lastActivityAt : ℤ
  lockedAt : ℤ
  externalPowerOfflineAt : ℤ
  suspendRetryAt : ℤ
  shutdownRetryAt : ℤ
  idleMs : ℤ
  suspendMs : ℤ
  shutdownMs : ℤ
  externalPowerKnown : Bool
  externalPowerOnline : Bool
  suspendDisabled : Bool
  suspendOnLock : Bool
  suppressWakeupUntilRelease : Bool
  deriving DecidableEq

/-! ### Deadlines -/

def deadlineAfter (start delay : ℤ) : ℤ :=
  if start > int64Max - delay then int64Max else start + delay

/-- The unsigned difference of two readings is their difference: see `run_fits`. -/
def timeoutUntil (deadline now : ℤ) : ℤ :=
  if deadline ≤ now then 0
  else if deadline - now > intMax then intMax else deadline - now

namespace Policy

def offline (policy : Policy) : Bool := policy.externalPowerKnown && !policy.externalPowerOnline

def lockDeadline (policy : Policy) : Option ℤ :=
  if policy.state ≠ .active ∨ policy.idleMs ≤ 0 ∨ !policy.offline then none
  else some (deadlineAfter policy.lastActivityAt policy.idleMs)

def offlineDeadline (policy : Policy) : Option ℤ :=
  if !policy.offline ∨ policy.externalPowerOfflineAt < 0 then none
  else some (deadlineAfter policy.externalPowerOfflineAt externalOfflineDelayMs)

def shutdownDeadline (policy : Policy) : Option ℤ :=
  if policy.shutdownMs ≤ 0 ∨ policy.state ≠ .locked ∨ policy.lockedAt < 0 then none
  else policy.offlineDeadline.map fun powerDeadline =>
    max (max (deadlineAfter policy.lockedAt policy.shutdownMs) powerDeadline)
      policy.shutdownRetryAt

def suspendDeadline (policy : Policy) : Option ℤ :=
  if policy.state ≠ .locked ∨ policy.suspendDisabled ∨
      (policy.suspendMs ≤ 0 ∧ !policy.suspendOnLock) ∨ policy.shutdownMs > 0 then none
  else policy.offlineDeadline.map fun powerDeadline =>
    max (max (deadlineAfter policy.lockedAt policy.suspendMs) powerDeadline)
      policy.suspendRetryAt

/-! ### The calls -/

def init (now : ℤ) : Policy where
  state := .active
  lastActivityAt := now
  lockedAt := -1
  externalPowerOfflineAt := -1
  suspendRetryAt := -1
  shutdownRetryAt := -1
  idleMs := idleTimeoutMs
  suspendMs := lockTimeoutMs
  shutdownMs := 0
  externalPowerKnown := false
  externalPowerOnline := false
  suspendDisabled := false
  suspendOnLock := false
  suppressWakeupUntilRelease := false

def configure (policy : Policy) (idleMs suspendMs shutdownMs : ℤ) : Policy :=
  { policy with
    idleMs := if idleMs > 0 then idleMs else 0
    suspendMs := if suspendMs > 0 then suspendMs else 0
    shutdownMs := if shutdownMs > 0 then shutdownMs else 0
    suspendOnLock := false }

def noteActivity (policy : Policy) (now : ℤ) : Policy :=
  if policy.state = .active then { policy with lastActivityAt := now } else policy

/-- A sample that finds the power newly away starts a full idle period, and restarts the
countdown of a lock. -/
def unplugged (policy : Policy) (now : ℤ) : Policy :=
  let policy := { policy with externalPowerOfflineAt := now, lastActivityAt := now }
  if policy.state ≠ .active then
    { policy with
      lockedAt := now
      suspendRetryAt := max policy.suspendRetryAt (deadlineAfter now policy.idleMs) }
  else policy

def setExternalPower (policy : Policy) (known online : Bool) (now : ℤ) : Policy :=
  let offline := known && !online
  let policy :=
    if offline && !policy.offline then policy.unplugged now
    else if !offline then { policy with externalPowerOfflineAt := -1 }
    else policy
  { policy with externalPowerKnown := known, externalPowerOnline := online }

def lock (policy : Policy) (now : ℤ) : Bool × Policy :=
  if policy.state ≠ .active then (false, policy)
  else (true, { policy with
    state := .locked, lockedAt := now, suspendRetryAt := -1, shutdownRetryAt := -1 })

def unlock (policy : Policy) (now : ℤ) : Bool × Policy :=
  if policy.state ≠ .locked then (false, policy)
  else (true, { policy with
    state := .active, lastActivityAt := now, lockedAt := -1, suspendRetryAt := -1,
    shutdownRetryAt := -1, suppressWakeupUntilRelease := false })

def shutdownFailed (policy : Policy) (now : ℤ) : Policy :=
  { policy with shutdownRetryAt := deadlineAfter now retryDelayMs }

def due (deadline : Option ℤ) (now : ℤ) : Bool := deadline.any (· ≤ now)

def tickSuspend (policy : Policy) (now : ℤ) : Action × Policy :=
  if due policy.suspendDeadline now then (.suspend, { policy with state := .suspendPrepare })
  else (.none, policy)

def tick (policy : Policy) (now : ℤ) : Action × Policy :=
  if due policy.shutdownDeadline now then (.shutdown, policy.shutdownFailed now)
  else if due policy.lockDeadline now then
    match policy.lock now with
    | (true, policy) => (.enterLock, policy)
    | (false, policy) => policy.tickSuspend now
  else policy.tickSuspend now

def suspendFailed (policy : Policy) (now : ℤ) : Policy :=
  { policy with
    state := .locked
    suspendRetryAt := max policy.suspendRetryAt (deadlineAfter now retryDelayMs) }

def suspendCancelled (policy : Policy) : Policy :=
  { policy with state := .locked, suspendRetryAt := -1 }

def suspendUnavailable (policy : Policy) : Policy :=
  { policy with state := .locked, suspendRetryAt := -1, suspendDisabled := true }

def restoreFailed (policy : Policy) (now : ℤ) : Policy :=
  { policy with
    state := .locked
    lockedAt := now
    suspendRetryAt := -1
    suspendDisabled := true
    suppressWakeupUntilRelease := true }

def resumed (policy : Policy) (now : ℤ) : Policy :=
  { policy with
    state := .locked
    lockedAt := now
    suspendRetryAt :=
      if policy.suspendOnLock then max policy.suspendRetryAt (deadlineAfter now lockTimeoutMs)
      else policy.suspendRetryAt
    suspendDisabled := false
    suppressWakeupUntilRelease := true }

def filterWakeup (policy : Policy) (pressed : Bool) : Bool × Policy :=
  if !policy.suppressWakeupUntilRelease then (false, policy)
  else (true, if pressed then policy else { policy with suppressWakeupUntilRelease := false })

/-- The earlier of a timeout so far and that of one more deadline. -/
def earlier (result : ℤ) (deadline : Option ℤ) (now : ℤ) : ℤ :=
  match deadline with
  | none => result
  | some deadline =>
    let candidate := timeoutUntil deadline now
    if result < 0 ∨ candidate < result then candidate else result

def timeout (policy : Policy) (now : ℤ) : ℤ :=
  let result := match policy.lockDeadline with
    | none => -1
    | some deadline => timeoutUntil deadline now
  earlier (earlier result policy.shutdownDeadline now) policy.suspendDeadline now

end Policy

/-! ### Runs -/

/-- A call of the runtime. `suspendOnLock` is the field it sets by itself. -/
inductive Call
  | configure (idleMs suspendMs shutdownMs : ℤ)
  | suspendOnLock (value : Bool)
  | noteActivity
  | setExternalPower (known online : Bool)
  | lock
  | unlock
  | tick
  | shutdownFailed
  | suspendFailed
  | suspendCancelled
  | suspendUnavailable
  | restoreFailed
  | resumed
  | filterWakeup (pressed : Bool)
  deriving DecidableEq

/-- A call and the reading of the clock at it. -/
structure Event where
  call : Call
  now : ℤ
  deriving DecidableEq

def Policy.step (policy : Policy) (e : Event) : Policy :=
  match e.call with
  | .configure idleMs suspendMs shutdownMs => policy.configure idleMs suspendMs shutdownMs
  | .suspendOnLock value => { policy with suspendOnLock := value }
  | .noteActivity => policy.noteActivity e.now
  | .setExternalPower known online => policy.setExternalPower known online e.now
  | .lock => (policy.lock e.now).2
  | .unlock => (policy.unlock e.now).2
  | .tick => (policy.tick e.now).2
  | .shutdownFailed => policy.shutdownFailed e.now
  | .suspendFailed => policy.suspendFailed e.now
  | .suspendCancelled => policy.suspendCancelled
  | .suspendUnavailable => policy.suspendUnavailable
  | .restoreFailed => policy.restoreFailed e.now
  | .resumed => policy.resumed e.now
  | .filterWakeup pressed => (policy.filterWakeup pressed).2

/-- The policy after a history of calls, the latest of them first. -/
def run (start : ℤ) : List Event → Policy
  | [] => .init start
  | e :: history => (run start history).step e

/-- The clock of a history: it starts at `start`, never goes back and has come to `now`. -/
def Clocked (start : ℤ) : List Event → ℤ → Prop
  | [], now => 0 ≤ start ∧ start ≤ now
  | e :: history, now => Clocked start history e.now ∧ e.now ≤ now

section

variable {start now : ℤ} {history : List Event}

lemma Clocked.nonneg (h : Clocked start history now) : 0 ≤ now := by
  induction history generalizing now with
  | nil => exact h.1.trans h.2
  | cons e history ih => exact (ih h.1).trans h.2

lemma Clocked.le_of_mem (h : Clocked start history now) {e : Event} (he : e ∈ history) :
    e.now ≤ now := by
  induction history generalizing now with
  | nil => simp at he
  | cons e' history ih =>
    rcases List.mem_cons.mp he with rfl | he
    · exact h.2
    · exact (ih h.1 he).trans h.2

/-! ### No overflow -/

/-- A reading of the clock, or no reading. -/
def Stamp (n : ℤ) : Prop := -1 ≤ n ∧ n ≤ int64Max

def Duration (n : ℤ) : Prop := 0 ≤ n ∧ n ≤ int64Max

instance (n : ℤ) : Decidable (Duration n) := inferInstanceAs (Decidable (_ ∧ _))

structure Policy.Fits (p : Policy) : Prop where
  lastActivityAt : Stamp p.lastActivityAt
  lockedAt : Stamp p.lockedAt
  externalPowerOfflineAt : Stamp p.externalPowerOfflineAt
  suspendRetryAt : Stamp p.suspendRetryAt
  shutdownRetryAt : Stamp p.shutdownRetryAt
  idleMs : Duration p.idleMs
  suspendMs : Duration p.suspendMs
  shutdownMs : Duration p.shutdownMs

/-- The durations a caller configures are `int64_t`. -/
def Call.Fits : Call → Prop
  | .configure idleMs suspendMs shutdownMs =>
    idleMs ≤ int64Max ∧ suspendMs ≤ int64Max ∧ shutdownMs ≤ int64Max
  | _ => True

lemma stamp_none : Stamp (-1) := by unfold Stamp int64Max; omega

lemma stamp_max {a b : ℤ} (ha : Stamp a) (hb : Stamp b) : Stamp (max a b) := by
  unfold Stamp at *
  omega

lemma duration_positive {n : ℤ} (h : n ≤ int64Max) : Duration (if n > 0 then n else 0) := by
  unfold Duration int64Max at *
  split_ifs <;> omega

lemma stamp_deadlineAfter {a delay : ℤ} (ha : Stamp a) (hdelay : Duration delay) :
    Stamp (deadlineAfter a delay) := by
  unfold deadlineAfter Stamp Duration at *
  split_ifs <;> omega

variable {p : Policy}

lemma Policy.Fits.unplugged (h : p.Fits) {now : ℤ} (hnow : Stamp now) :
    (p.unplugged now).Fits := by
  simp only [Policy.unplugged]
  split_ifs
  · exact { h with
      lastActivityAt := hnow
      lockedAt := hnow
      externalPowerOfflineAt := hnow
      suspendRetryAt := stamp_max h.suspendRetryAt (stamp_deadlineAfter hnow h.idleMs) }
  · exact { h with lastActivityAt := hnow, externalPowerOfflineAt := hnow }

lemma Policy.Fits.setExternalPower (h : p.Fits) (known online : Bool) {now : ℤ}
    (hnow : Stamp now) : (p.setExternalPower known online now).Fits := by
  have hmid : ∀ q : Policy, q.Fits →
      { q with externalPowerKnown := known, externalPowerOnline := online }.Fits :=
    fun q hq => { hq with }
  simp only [Policy.setExternalPower]
  split_ifs
  · exact hmid _ (h.unplugged hnow)
  · exact hmid _ { h with externalPowerOfflineAt := stamp_none }
  · exact hmid _ h

lemma Policy.Fits.lock (h : p.Fits) {now : ℤ} (hnow : Stamp now) :
    (p.lock now).2.Fits := by
  unfold Policy.lock
  split_ifs
  · exact h
  · exact { h with
      lockedAt := hnow, suspendRetryAt := stamp_none, shutdownRetryAt := stamp_none }

lemma Policy.Fits.tickSuspend (h : p.Fits) (now : ℤ) : (p.tickSuspend now).2.Fits := by
  unfold Policy.tickSuspend
  split_ifs
  · exact { h with }
  · exact h

lemma duration_retry : Duration retryDelayMs := by decide

lemma duration_lockTimeout : Duration lockTimeoutMs := by decide

lemma Policy.Fits.shutdownFailed (h : p.Fits) {now : ℤ} (hnow : Stamp now) :
    (p.shutdownFailed now).Fits :=
  { h with shutdownRetryAt := stamp_deadlineAfter hnow duration_retry }

lemma Policy.Fits.tick (h : p.Fits) {now : ℤ} (hnow : Stamp now) :
    (p.tick now).2.Fits := by
  unfold Policy.tick
  split_ifs
  · exact h.shutdownFailed hnow
  · have hlock := h.lock hnow
    split <;> simp_all [Policy.Fits.tickSuspend]
  · exact h.tickSuspend now

lemma Policy.Fits.step (h : p.Fits) {e : Event} (hnow : Stamp e.now)
    (hcall : e.call.Fits) : (p.step e).Fits := by
  rcases e with ⟨call, now⟩
  cases call with
  | configure idleMs suspendMs shutdownMs =>
    exact { h with
      idleMs := duration_positive hcall.1
      suspendMs := duration_positive hcall.2.1
      shutdownMs := duration_positive hcall.2.2 }
  | noteActivity =>
    simp only [Policy.step, Policy.noteActivity]
    split_ifs
    · exact { h with lastActivityAt := hnow }
    · exact h
  | setExternalPower known online => exact h.setExternalPower known online hnow
  | lock => exact h.lock hnow
  | unlock =>
    simp only [Policy.step, Policy.unlock]
    split_ifs
    · exact h
    exact { h with
      lastActivityAt := hnow, lockedAt := stamp_none, suspendRetryAt := stamp_none,
      shutdownRetryAt := stamp_none }
  | tick => exact h.tick hnow
  | shutdownFailed => exact h.shutdownFailed hnow
  | suspendFailed =>
    exact { h with
      suspendRetryAt := stamp_max h.suspendRetryAt (stamp_deadlineAfter hnow duration_retry) }
  | suspendCancelled => exact { h with suspendRetryAt := stamp_none }
  | suspendUnavailable => exact { h with suspendRetryAt := stamp_none }
  | restoreFailed => exact { h with lockedAt := hnow, suspendRetryAt := stamp_none }
  | resumed =>
    refine { h with lockedAt := hnow, suspendRetryAt := ?_ }
    simp only [Policy.step, Policy.resumed]
    split_ifs
    · exact stamp_max h.suspendRetryAt (stamp_deadlineAfter hnow duration_lockTimeout)
    · exact h.suspendRetryAt
  | filterWakeup pressed =>
    simp only [Policy.step, Policy.filterWakeup]
    split_ifs
    · exact h
    · exact h
    · exact { h with }
  | suspendOnLock value => exact { h with }

/-- **No overflow.** In every run the stamps are readings and the durations are not negative,
so that no sum or difference of them leaves `int64_t`. -/
theorem run_fits (hclock : Clocked start history now) (hend : now ≤ int64Max)
    (hcalls : ∀ e ∈ history, e.call.Fits) : (run start history).Fits := by
  induction history generalizing now with
  | nil =>
    have hstart : Stamp start := ⟨by have := hclock.1; omega, hclock.2.trans hend⟩
    have hidle : Duration idleTimeoutMs := by decide
    have hzero : Duration 0 := by decide
    exact ⟨hstart, stamp_none, stamp_none, stamp_none, stamp_none, hidle, duration_lockTimeout,
      hzero⟩
  | cons e history ih =>
    have hnow : Stamp e.now :=
      ⟨by have := hclock.1.nonneg; omega, hclock.2.trans hend⟩
    exact (ih hclock.1 (hclock.2.trans hend) fun e' he' =>
      hcalls e' (List.mem_cons_of_mem _ he')).step hnow (hcalls e List.mem_cons_self)

theorem run_fits_lock : (run 0 [⟨.lock, 5⟩]).Fits :=
  run_fits (show Clocked 0 [⟨.lock, 5⟩] 5 by simp [Clocked]) (by decide) (by simp [Call.Fits])

end

end C1auncher.Power.PowerPolicy
