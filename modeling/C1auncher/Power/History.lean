import C1auncher.Power.Timer

/-!
What an automatic action says about the past: how long the device has been on battery, how
long it has been locked, and how long ago it was last told to shut down.

The history is read off the calls themselves. The policy keeps a few time stamps of it, and
an invariant says which part of the history each of them stands for.
-/

namespace C1auncher.Power.History

open Power.PowerPolicy Power.Timer Policy Option List

/-! ### The past of a policy -/

/-- What a power sample says, where the call is one: `true` for power known to be away. -/
def sample : Call → Option Bool
  | .setExternalPower known online => some (known && !online)
  | _ => none

/-- Since when every power sample has found the power away. -/
def offlineSince : List Event → Option ℤ
  | [] => none
  | e :: history =>
    match sample e.call with
    | none => offlineSince history
    | some false => none
    | some true => some ((offlineSince history).getD e.now)

def lockedSince (start : ℤ) : List Event → Option ℤ
  | [] => none
  | e :: history =>
    if (run start (e :: history)).state = .active then none
    else some ((lockedSince start history).getD e.now)

/-- When the current lock was told to shut down. -/
def shutdowns (start : ℤ) : List Event → List ℤ
  | [] => []
  | e :: history =>
    if (run start (e :: history)).state = .active then []
    else if e.call = .tick ∧ ((run start history).tick e.now).1 = .shutdown then
      e.now :: shutdowns start history
    else shutdowns start history

section

variable {start now : ℤ} {history : List Event}

lemma le_of_mem_getD {o : Option ℤ} {n u : ℤ} (ho : ∀ v ∈ o, v ≤ now) (hn : n ≤ now)
    (hu : u ∈ some (o.getD n)) : u ≤ now := by
  cases o <;> simp_all

lemma offlineSince_le (h : Clocked start history now) :
    ∀ u ∈ offlineSince history, u ≤ now := by
  induction history generalizing now with
  | nil => simp [offlineSince]
  | cons e history ih =>
    intro u hu
    have hih := fun v hv => (ih h.1 v hv).trans h.2
    unfold offlineSince at hu
    split at hu
    · exact hih u hu
    · simp at hu
    · exact le_of_mem_getD hih h.2 hu

lemma lockedSince_le (h : Clocked start history now) :
    ∀ l ∈ lockedSince start history, l ≤ now := by
  induction history generalizing now with
  | nil => simp [lockedSince]
  | cons e history ih =>
    intro l hl
    unfold lockedSince at hl
    split_ifs at hl
    · simp at hl
    · exact le_of_mem_getD (fun v hv => (ih h.1 v hv).trans h.2) h.2 hl

lemma shutdowns_le (h : Clocked start history now) :
    ∀ s ∈ shutdowns start history, s ≤ now := by
  induction history generalizing now with
  | nil => simp [shutdowns]
  | cons e history ih =>
    intro s hs
    have hih := ih h.1
    unfold shutdowns at hs
    split_ifs at hs
    · simp at hs
    · rcases mem_cons.mp hs with rfl | hs
      · exact h.2
      · exact (hih s hs).trans h.2
    · exact (hih s hs).trans h.2

end

/-! ### Which stamps a call can move -/

/-- What a call can do to the stamps besides those of the power. -/
structure Moves (e : Event) (p p' : Policy) : Prop where
  activity : p'.lastActivityAt = p.lastActivityAt ∨ p'.lastActivityAt = e.now
  active : p'.state = .active →
    (p.state = .active ∧ p'.lockedAt = p.lockedAt ∧
      (e.call = .noteActivity → p'.lastActivityAt = e.now)) ∨
    (p'.lastActivityAt = e.now ∧ p'.lockedAt = -1)
  locked : p'.state ≠ .active → p'.lockedAt = p.lockedAt ∨ p'.lockedAt = e.now
  retry : p.state ≠ .active → p'.state ≠ .active →
    p'.shutdownRetryAt = p.shutdownRetryAt ∨
      p'.shutdownRetryAt = deadlineAfter e.now retryDelayMs

lemma Moves.refl {e : Event} {p : Policy} (h : e.call = .noteActivity → p.state ≠ .active) :
    Moves e p p :=
  ⟨.inl rfl, fun ha => .inl ⟨ha, rfl, fun hc => absurd ha (h hc)⟩, fun _ => .inl rfl,
    fun _ _ => .inl rfl⟩

lemma moves_lock (p : Policy) {e : Event} (h : e.call ≠ .noteActivity) :
    Moves e p (p.lock e.now).2 := by
  by_cases hs : p.state = .active
  · simp only [lock, hs, ne_eq, not_true_eq_false, if_false]
    exact ⟨.inl rfl, by simp, fun _ => .inr rfl, fun hne => absurd hs hne⟩
  · simp only [lock, ne_eq, hs, not_false_eq_true, if_true]
    exact Moves.refl fun hc => absurd hc h

lemma moves_tick (p : Policy) {e : Event} (h : e.call ≠ .noteActivity) :
    Moves e p (p.tick e.now).2 := by
  rcases tick_cases p e.now with ⟨-, ht⟩ | ⟨-, -, ht⟩ | ⟨-, ht⟩ | ⟨-, ht⟩ <;> rw [ht]
  · exact ⟨.inl rfl, fun ha => .inl ⟨ha, rfl, fun hc => absurd hc h⟩, fun _ => .inl rfl,
      fun _ _ => .inr rfl⟩
  · exact moves_lock p h
  · exact ⟨.inl rfl, by simp, fun _ => .inl rfl, fun _ _ => .inl rfl⟩
  · exact Moves.refl fun hc => absurd hc h

lemma moves_setExternalPower (p : Policy) (known online : Bool) {e : Event}
    (h : e.call ≠ .noteActivity) : Moves e p (p.setExternalPower known online e.now) := by
  by_cases hs : p.state = .active
  · simp only [setExternalPower, unplugged, hs, ne_eq, not_true_eq_false, if_false]
    split_ifs
    · exact ⟨.inr rfl, fun _ => .inl ⟨hs, rfl, fun hc => absurd hc h⟩, fun _ => .inl rfl,
        fun hne => absurd hs hne⟩
    all_goals exact ⟨.inl rfl, fun _ => .inl ⟨hs, rfl, fun hc => absurd hc h⟩, fun _ => .inl rfl,
      fun hne => absurd hs hne⟩
  · simp only [setExternalPower, unplugged, ne_eq, hs, not_false_eq_true, if_true]
    split_ifs
    · exact ⟨.inr rfl, fun ha => absurd ha hs, fun _ => .inr rfl, fun _ _ => .inl rfl⟩
    all_goals exact ⟨.inl rfl, fun ha => absurd ha hs, fun _ => .inl rfl, fun _ _ => .inl rfl⟩

theorem step_moves (p : Policy) (e : Event) : Moves e p (p.step e) := by
  rcases e with ⟨call, now⟩
  cases call with
  | configure idleMs suspendMs shutdownMs =>
    exact ⟨.inl rfl, fun ha => .inl ⟨ha, rfl, by simp⟩, fun _ => .inl rfl, fun _ _ => .inl rfl⟩
  | suspendOnLock value =>
    exact ⟨.inl rfl, fun ha => .inl ⟨ha, rfl, by simp⟩, fun _ => .inl rfl, fun _ _ => .inl rfl⟩
  | noteActivity =>
    simp only [step, noteActivity]
    split_ifs with hs
    · exact ⟨.inr rfl, fun _ => .inl ⟨hs, rfl, fun _ => rfl⟩, fun _ => .inl rfl,
        fun _ _ => .inl rfl⟩
    · exact Moves.refl fun _ => hs
  | setExternalPower known online => exact moves_setExternalPower p known online (by simp)
  | lock => exact moves_lock p (by simp)
  | unlock =>
    simp only [step, unlock]
    split_ifs with hs
    · exact Moves.refl (by simp)
    · exact ⟨.inr rfl, fun _ => .inr ⟨rfl, rfl⟩, by simp, by simp⟩
  | tick => exact moves_tick p (by simp)
  | shutdownFailed =>
    exact ⟨.inl rfl, fun ha => .inl ⟨ha, rfl, by simp⟩, fun _ => .inl rfl, fun _ _ => .inr rfl⟩
  | filterWakeup pressed =>
    simp only [step, filterWakeup]
    split_ifs
    all_goals
      exact ⟨.inl rfl, fun ha => .inl ⟨ha, rfl, by simp⟩, fun _ => .inl rfl, fun _ _ => .inl rfl⟩
  | suspendFailed =>
    exact ⟨.inl rfl, by simp [step, suspendFailed], fun _ => .inl rfl,
      fun _ _ => .inl rfl⟩
  | suspendCancelled =>
    exact ⟨.inl rfl, by simp [step, suspendCancelled], fun _ => .inl rfl,
      fun _ _ => .inl rfl⟩
  | suspendUnavailable =>
    exact ⟨.inl rfl, by simp [step, suspendUnavailable], fun _ => .inl rfl,
      fun _ _ => .inl rfl⟩
  | restoreFailed =>
    exact ⟨.inl rfl, by simp [step, restoreFailed], fun _ => .inr rfl,
      fun _ _ => .inl rfl⟩
  | resumed =>
    exact ⟨.inl rfl, by simp [step, resumed], fun _ => .inr rfl,
      fun _ _ => .inl rfl⟩

lemma step_power (p : Policy) {e : Event} (h : sample e.call = none) :
    (p.step e).offline = p.offline ∧
      (p.step e).externalPowerOfflineAt = p.externalPowerOfflineAt := by
  rcases e with ⟨call, now⟩
  cases call with
  | tick =>
    simp only [step]
    rcases tick_cases p now with ⟨-, ht⟩ | ⟨-, hactive, ht⟩ | ⟨-, ht⟩ | ⟨-, ht⟩ <;> rw [ht]
    · exact ⟨rfl, rfl⟩
    · simp [lock, hactive, offline]
    · exact ⟨rfl, rfl⟩
    · exact ⟨rfl, rfl⟩
  | setExternalPower known online => simp [sample] at h
  | noteActivity => simp only [step, noteActivity]; split_ifs <;> exact ⟨rfl, rfl⟩
  | lock => simp only [step, lock]; split_ifs <;> exact ⟨rfl, rfl⟩
  | unlock => simp only [step, unlock]; split_ifs <;> exact ⟨rfl, rfl⟩
  | filterWakeup pressed =>
    simp only [step, filterWakeup]; split_ifs <;> exact ⟨rfl, rfl⟩
  | _ => exact ⟨rfl, rfl⟩

lemma step_sample (p : Policy) {e : Event} {away : Bool} (h : sample e.call = some away) :
    (p.step e).offline = away ∧
      (away = true → p.offline = true →
        (p.step e).externalPowerOfflineAt = p.externalPowerOfflineAt) ∧
      (away = true → p.offline = false →
        (p.step e).externalPowerOfflineAt = e.now ∧ (p.step e).lastActivityAt = e.now ∧
          ((p.step e).state ≠ .active → (p.step e).lockedAt = e.now)) := by
  rcases e with ⟨call, now⟩
  cases call with
  | setExternalPower known online =>
    simp only [sample, some.injEq] at h
    subst h
    simp only [step, setExternalPower, unplugged]
    refine ⟨?_, ?_, ?_⟩
    · split_ifs <;> rfl
    · intro ha hp
      simp [ha, hp]
    · intro ha hp
      by_cases hs : p.state = .active <;> simp [ha, hp, hs]
  | _ => simp [sample] at h

/-! ### What the stamps stand for -/

structure Tracks (start : ℤ) (history : List Event) (p : Policy) : Prop where
  power : offlineSince history = if p.offline then some p.externalPowerOfflineAt else none
  offline : ∀ u ∈ offlineSince history, u ≤ p.lastActivityAt
  activity : p.state = .active → ∀ e ∈ history, e.call = .noteActivity → e.now ≤ p.lastActivityAt
  unlocked : p.state = .active → p.lockedAt = -1
  locked : p.state ≠ .active → ∃ l, lockedSince start history = some l ∧
    (0 ≤ p.lockedAt → l ≤ p.lockedAt ∧ ∀ u ∈ offlineSince history, l ≤ u → u ≤ p.lockedAt)
  retry : ∀ s ∈ shutdowns start history, deadlineAfter s retryDelayMs ≤ p.shutdownRetryAt
  fresh : p.state = .active → shutdowns start history = []

lemma deadlineAfter_mono {s t : ℤ} (h : s ≤ t) (delay : ℤ) :
    deadlineAfter s delay ≤ deadlineAfter t delay := by
  unfold deadlineAfter
  split_ifs <;> omega

section

variable {start : ℤ} {history : List Event} {e : Event}

lemma shutdowns_cons_active (h : (run start (e :: history)).state = .active) :
    shutdowns start (e :: history) = [] := by
  rw [shutdowns, if_pos h]

lemma mem_shutdowns_cons {s : ℤ} (h : s ∈ shutdowns start (e :: history)) :
    (run start (e :: history)).state ≠ .active ∧ (s ∈ shutdowns start history ∨
      (s = e.now ∧ (run start (e :: history)).shutdownRetryAt = deadlineAfter s retryDelayMs)) := by
  unfold shutdowns at h
  split_ifs at h with hactive hshutdown
  · simp at h
  · refine ⟨hactive, ?_⟩
    rcases mem_cons.mp h with rfl | h
    · right
      obtain ⟨hcall, hact⟩ := hshutdown
      refine ⟨rfl, ?_⟩
      simp only [run, step, hcall]
      rcases tick_cases (run start history) e.now with ⟨-, ht⟩ | ⟨-, -, ht⟩ | ⟨-, ht⟩ | ⟨-, ht⟩
      · rw [ht]
        rfl
      all_goals simp [ht] at hact
    · exact .inl h
  · exact ⟨hactive, .inl h⟩

lemma lockedSince_cons (h : (run start (e :: history)).state ≠ .active) :
    lockedSince start (e :: history) = some ((lockedSince start history).getD e.now) := by
  rw [lockedSince, if_neg h]

lemma mem_offlineSince_cons {u : ℤ} (h : Tracks start history (run start history))
    (hu : u ∈ offlineSince (e :: history)) :
    u ∈ offlineSince history ∨ (u = e.now ∧ (run start (e :: history)).lastActivityAt = e.now ∧
      ((run start (e :: history)).state ≠ .active →
        (run start (e :: history)).lockedAt = e.now)) := by
  unfold offlineSince at hu
  rcases hs : sample e.call with _ | away
  · exact .inl (by simpa [hs] using hu)
  cases away with
  | false => simp [hs] at hu
  | true =>
    obtain ⟨-, -, hnew⟩ := step_sample (run start history) hs
    by_cases hoff : (run start history).offline
    · exact .inl (by simpa [hs, h.power, hoff] using hu)
    simp only [hs, h.power, hoff, Bool.false_eq_true, if_false, getD_none,
      Option.mem_some_iff] at hu
    exact .inr ⟨hu.symm, (hnew rfl (by simpa using hoff)).2⟩

theorem tracks_step (hclock : Clocked start history e.now)
    (h : Tracks start history (run start history)) :
    Tracks start (e :: history) (run start (e :: history)) := by
  have hmoves : Moves e (run start history) (run start (e :: history)) := step_moves _ e
  have hlast : ∀ n, n ≤ e.now → n ≤ (run start history).lastActivityAt →
      n ≤ (run start (e :: history)).lastActivityAt := by
    intro n h1 h2
    rcases hmoves.activity with ha | ha <;> omega
  constructor
  · -- the power
    unfold offlineSince
    rcases hs : sample e.call with _ | away
    · obtain ⟨hoff, hat⟩ := step_power (run start history) hs
      simp only [h.power, run, hoff, hat]
    obtain ⟨haway, hold, hnew⟩ := step_sample (run start history) hs
    cases away with
    | false => simp [run, haway]
    | true =>
      by_cases hoff : (run start history).offline
      · simp [run, haway, hold rfl hoff, h.power, hoff]
      · simp [run, haway, (hnew rfl (by simpa using hoff)).1, h.power, hoff]
  · intro u hu
    rcases mem_offlineSince_cons h hu with hu | ⟨rfl, hu, -⟩
    · exact hlast u (offlineSince_le hclock u hu) (h.offline u hu)
    · exact hu.ge
  · intro hactive e' he' hnote
    rcases hmoves.active hactive with ⟨hwas, -, hnow⟩ | ⟨hnow, -⟩
    · rcases mem_cons.mp he' with rfl | he'
      · exact (hnow hnote).ge
      · exact hlast _ (hclock.le_of_mem he') (h.activity hwas e' he' hnote)
    rw [hnow]
    rcases mem_cons.mp he' with rfl | he'
    · exact le_rfl
    · exact hclock.le_of_mem he'
  · intro hactive
    rcases hmoves.active hactive with ⟨hwas, hsame, -⟩ | ⟨-, hnow⟩
    · exact hsame.trans (h.unlocked hwas)
    · exact hnow
  · -- the lock
    intro hlocked
    refine ⟨_, lockedSince_cons hlocked, fun hpos => ?_⟩
    have hle : (lockedSince start history).getD e.now ≤ e.now :=
      le_of_mem_getD (lockedSince_le hclock) le_rfl rfl
    rcases hmoves.locked hlocked with hsame | hnow
    · -- the stamp is one of the lock before
      rw [hsame] at hpos ⊢
      have hwas : (run start history).state ≠ .active := fun hwas => by
        have := h.unlocked hwas
        omega
      obtain ⟨l, hl, hl'⟩ := h.locked hwas
      rw [hl, getD_some]
      refine ⟨(hl' hpos).1, fun u hu hlu => ?_⟩
      rcases mem_offlineSince_cons h hu with hu | ⟨rfl, -, hu⟩
      · exact (hl' hpos).2 u hu hlu
      · rw [← hsame, hu hlocked]
    · rw [hnow]
      refine ⟨hle, fun u hu _ => ?_⟩
      rcases mem_offlineSince_cons h hu with hu | ⟨rfl, -, -⟩
      · exact offlineSince_le hclock u hu
      · exact le_rfl
  · -- the shutdowns
    intro s hs
    obtain ⟨hlocked, hs | ⟨-, hretry⟩⟩ := mem_shutdowns_cons hs
    · have hwas : (run start history).state ≠ .active := fun hwas => by
        simp [h.fresh hwas] at hs
      rcases hmoves.retry hwas hlocked with hsame | hnow
      · exact hsame ▸ h.retry s hs
      · exact hnow ▸ deadlineAfter_mono (shutdowns_le hclock s hs) _
    · exact hretry.ge
  · exact shutdowns_cons_active

theorem tracks_run {now : ℤ} (hclock : Clocked start history now) :
    Tracks start history (run start history) := by
  induction history generalizing now with
  | nil =>
    exact ⟨by simp [offlineSince, run, init, offline], by simp [offlineSince],
      by simp, by simp [run, init], by simp [run, init], by simp [shutdowns],
      by simp [shutdowns]⟩
  | cons e history ih => exact tracks_step hclock.1 (ih hclock.1)

end

/-! ### What an action says -/

lemma add_le_of_deadlineAfter_le {s delay now : ℤ} (h : deadlineAfter s delay ≤ now)
    (hend : now < int64Max) : s + delay ≤ now := by
  unfold deadlineAfter at h
  split_ifs at h <;> omega

/-- What the history of a policy says about the action of its next tick. -/
def Justified (start : ℤ) (history : List Event) (now : ℤ) : Action → Prop
  | .none => True
  | .enterLock => 0 < (run start history).idleMs ∧
      (∃ u, offlineSince history = some u ∧ u + (run start history).idleMs ≤ now) ∧
      ∀ e ∈ history, e.call = .noteActivity → e.now + (run start history).idleMs ≤ now
  | .shutdown => 0 < (run start history).shutdownMs ∧
      ∃ l u, lockedSince start history = some l ∧ offlineSince history = some u ∧
        l + (run start history).shutdownMs ≤ now ∧ u + externalOfflineDelayMs ≤ now ∧
        (l ≤ u → u + (run start history).shutdownMs ≤ now) ∧
        ∀ s ∈ shutdowns start history, s + retryDelayMs ≤ now
  | .suspend => (run start history).shutdownMs ≤ 0 ∧
      (run start history).suspendDisabled = false ∧ (offlineSince history).isSome

section

variable {start now : ℤ} {history : List Event}

lemma offline_of_offlineDeadline {p : Policy} {d : ℤ} (h : p.offlineDeadline = some d) :
    p.offline ∧ d = deadlineAfter p.externalPowerOfflineAt externalOfflineDelayMs := by
  unfold offlineDeadline at h
  split_ifs at h with hno
  simp only [not_or, Bool.not_eq_true', Bool.not_eq_false] at hno
  exact ⟨hno.1, (Option.some.inj h).symm⟩

lemma justified_enterLock (h : Tracks start history (run start history))
    (hend : now < int64Max) (hdue : Policy.due (run start history).lockDeadline now) :
    Justified start history now .enterLock := by
  obtain ⟨d, hd, hle⟩ := due_iff.mp hdue
  have hactive := active_of_lockDeadline hd
  unfold lockDeadline at hd
  split_ifs at hd with hno
  · simp at hd
  simp only [not_or, Bool.not_eq_true', Bool.not_eq_false, not_le] at hno
  rw [Option.mem_some_iff] at hd
  subst hd
  have hlast := add_le_of_deadlineAfter_le hle hend
  have hpower := h.power
  rw [if_pos hno.2.2] at hpower
  refine ⟨hno.2.1, ⟨_, hpower, ?_⟩, fun e he hnote => ?_⟩
  · have := h.offline _ hpower
    omega
  · have := h.activity hactive e he hnote
    omega

lemma justified_shutdown (h : Tracks start history (run start history))
    (hend : now < int64Max) (hdue : Policy.due (run start history).shutdownDeadline now) :
    Justified start history now .shutdown := by
  obtain ⟨d, hd, hle⟩ := due_iff.mp hdue
  unfold shutdownDeadline at hd
  split_ifs at hd with hno
  · simp at hd
  simp only [not_or, not_le, not_lt, not_not] at hno
  obtain ⟨power, hpower, rfl⟩ := Option.map_eq_some_iff.mp hd
  obtain ⟨hoff, rfl⟩ := offline_of_offlineDeadline hpower
  obtain ⟨⟨hlocked, hbattery⟩, hretry⟩ := max_le_iff.mp hle |>.imp_left max_le_iff.mp
  have hlockedAt := add_le_of_deadlineAfter_le hlocked hend
  obtain ⟨l, hl, hl'⟩ := h.locked (by simp [hno.2.1])
  have hpower := h.power
  rw [if_pos hoff] at hpower
  obtain ⟨hle, hunplug⟩ := hl' hno.2.2
  refine ⟨hno.1, l, _, hl, hpower, by omega, add_le_of_deadlineAfter_le hbattery hend, ?_, ?_⟩
  · intro hlu
    have := hunplug _ hpower hlu
    omega
  · intro s hs
    exact add_le_of_deadlineAfter_le ((h.retry s hs).trans hretry) hend

lemma justified_suspend (h : Tracks start history (run start history))
    (hdue : Policy.due (run start history).suspendDeadline now) :
    Justified start history now .suspend := by
  obtain ⟨d, hd, -⟩ := due_iff.mp hdue
  unfold suspendDeadline at hd
  split_ifs at hd with hno
  · simp at hd
  simp only [not_or, Bool.not_eq_true, gt_iff_lt, not_lt] at hno
  obtain ⟨power, hpower, -⟩ := Option.map_eq_some_iff.mp hd
  obtain ⟨hoff, -⟩ := offline_of_offlineDeadline hpower
  refine ⟨hno.2.2.2, hno.2.1, ?_⟩
  rw [h.power, if_pos hoff]
  rfl

/-- **Safety of the automatic actions.** In every run before the end of the clock an action
is justified by the whole history of power, locks and activity. -/
theorem actions_justified (hclock : Clocked start history now) (hend : now < int64Max) :
    Justified start history now ((run start history).tick now).1 := by
  have h := tracks_run hclock
  rcases tick_cases (run start history) now with ⟨hdue, ht⟩ | ⟨hdue, -, ht⟩ | ⟨hdue, ht⟩ | ⟨-, ht⟩
    <;> rw [ht]
  · exact justified_shutdown h hend hdue
  · exact justified_enterLock h hend hdue
  · exact justified_suspend h hdue
  · exact trivial

end

/-- A device locked on battery is told to shut down once its minute has passed. -/
theorem actions_justified_endOfClock :
    ((run 0 endOfClock).tick 60000).1 = .shutdown ∧ Justified 0 endOfClock 60000 .shutdown := by
  have hact : ((run 0 endOfClock).tick 60000).1 = .shutdown := by decide +kernel
  exact ⟨hact, hact ▸ actions_justified (by simp [endOfClock, Clocked]) (by decide)⟩

/-- At the end of the clock the idle period saturates, and a device is locked at once. -/
theorem actions_justified_fails : ¬∀ (start : ℤ) (history : List Event) (now : ℤ),
    Clocked start history now → now ≤ int64Max →
      Justified start history now ((run start history).tick now).1 := by
  intro h
  have hj := h 0 [⟨.setExternalPower true false, int64Max⟩] int64Max
    (by simp [Clocked, int64Max]) le_rfl
  have hact : ((run 0 [⟨.setExternalPower true false, int64Max⟩]).tick int64Max).1
      = .enterLock := by decide +kernel
  rw [hact] at hj
  obtain ⟨-, ⟨u, hu, hle⟩, -⟩ := hj
  have hidle : (run 0 [⟨.setExternalPower true false, int64Max⟩]).idleMs = 300000 := by
    decide +kernel
  have hsome : u = int64Max := by
    simpa [offlineSince, sample] using hu.symm
  rw [hidle, hsome] at hle
  omega

end C1auncher.Power.History
