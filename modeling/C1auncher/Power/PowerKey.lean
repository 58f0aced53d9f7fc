import Mathlib

/-!
The power key: a short press and a hold that shuts down.

The key keeps five scalars. What they mean is said of the calls that led to them: which press is
held, and whether it has acted.
-/

namespace C1auncher.Power.PowerKey

open List

/-- `C1_POWER_KEY_HOLD_MS` -/
def holdMs : Int64 := 3000

inductive Action
  | none
  | short
  | shutdown
  deriving DecidableEq

/-- `c1_power_key` -/
structure PowerKey where
  down : Bool
  fired : Bool
  source : UInt32
  code : UInt32
  pressedAt : Int64
  deriving DecidableEq

/-- `c1_power_key_reset` -/
def reset : PowerKey := ⟨false, false, 0, 0, 0⟩

/-- `c1_power_key_tick` -/
def tick (key : PowerKey) (now : Int64) : Action × PowerKey :=
  if key.down ∧ ¬ key.fired ∧ key.pressedAt ≤ now ∧ holdMs ≤ now - key.pressedAt then
    (.shutdown, { key with fired := true })
  else (.none, key)

/-- `c1_power_key_event` -/
def event (key : PowerKey) (source code : UInt32) (value : Int32) (now : Int64) :
    Action × PowerKey :=
  if value = 1 ∧ ¬ key.down then
    (.none, { down := true, fired := false, source := source, code := code, pressedAt := now })
  else if value = 0 ∧ key.down ∧ key.source = source ∧ key.code = code then
    if ¬ key.fired ∧ key.pressedAt ≤ now ∧ now - key.pressedAt < holdMs then (.short, reset)
    else (.none, reset)
  else (.none, key)

/-- `c1_power_key_deadline` -/
def deadline (key : PowerKey) : Int64 :=
  if key.down ∧ ¬ key.fired then key.pressedAt + holdMs else -1

/-! ### Histories -/

inductive Call
  | event (source code : UInt32) (value : Int32) (now : Int64)
  | tick (now : Int64)
  deriving DecidableEq

/-- The clock's reading at the call. -/
def Call.now : Call → Int64
  | .event _ _ _ now => now
  | .tick now => now

def Call.Presses : Call → Prop
  | .event _ _ value _ => value = 1
  | .tick _ => False

def call (key : PowerKey) : Call → Action × PowerKey
  | .event source code value now => event key source code value now
  | .tick now => tick key now

def run (key : PowerKey) (calls : List Call) : PowerKey :=
  calls.foldl (fun k c => (call k c).2) key

def returns (key : PowerKey) : List Call → List Action
  | [] => []
  | c :: calls => (call key c).1 :: returns (call key c).2 calls

def returned (calls : List Call) (c : Call) : Action := (call (run reset calls) c).1

@[simp] lemma run_nil (key : PowerKey) : run key [] = key := rfl

@[simp] lemma run_cons (key : PowerKey) (c : Call) (calls : List Call) :
    run key (c :: calls) = run (call key c).2 calls := rfl

lemma run_append (key : PowerKey) (calls more : List Call) :
    run key (calls ++ more) = run (run key calls) more := by
  simp [run, foldl_append]

lemma returns_append (key : PowerKey) (calls more : List Call) :
    returns key (calls ++ more) = returns key calls ++ returns (run key calls) more := by
  induction calls generalizing key with
  | nil => rfl
  | cons c calls ih => simp [returns, ih]

structure Press where
  source : UInt32
  code : UInt32
  pressedAt : Int64
  deriving DecidableEq

def Press.down (p : Press) : Call := .event p.source p.code 1 p.pressedAt

def Releases (p : Press) : Call → Prop
  | .event source code value _ => value = 0 ∧ p.source = source ∧ p.code = code
  | .tick _ => False

instance (p : Press) : DecidablePred (Releases p)
  | .event _ _ _ _ => inferInstanceAs (Decidable (_ ∧ _ ∧ _))
  | .tick _ => inferInstanceAs (Decidable False)

def hold : Option Press → Call → Option Press
  | some p, c => if Releases p c then none else some p
  | none, .event source code value now => if value = 1 then some ⟨source, code, now⟩ else none
  | none, .tick _ => none

/-- Which press is held after some calls: the last that was taken with none held, if it was not
released. -/
def held (calls : List Call) : Option Press := calls.foldl hold none

/-- `p` was taken after `before` and has not been released in what followed. -/
structure Held (calls before after : List Call) (p : Press) : Prop where
  split : calls = before ++ p.down :: after
  free : held before = none
  kept : ∀ c ∈ after, ¬ Releases p c

lemma held_append (calls more : List Call) :
    held (calls ++ more) = more.foldl hold (held calls) := by
  simp [held, foldl_append]

lemma hold_down (p : Press) : hold none p.down = some p := by
  simp [hold, Press.down]

variable {p : Press} {calls before : List Call} {key : PowerKey} {c : Call} {t now : Int64}

lemma hold_kept : ∀ {after : List Call}, (∀ c ∈ after, ¬ Releases p c) →
    after.foldl hold (some p) = some p
  | [], _ => rfl
  | c :: after, h => by
    have hc : hold (some p) c = some p := by
      simp [hold, h c (by simp)]
    rw [foldl_cons, hc]
    exact hold_kept fun d hd => h d (by simp [hd])

theorem held_iff :
    held calls = some p ↔ ∃ before after, Held calls before after p := by
  constructor
  · induction calls using reverseRecOn with
    | nil => simp [held]
    | append_singleton calls c ih =>
      intro h
      rw [held_append, foldl_cons, foldl_nil] at h
      rcases hq : held calls with _ | q
      · -- the last call takes the press
        rw [hq] at h
        cases c with
        | tick now => simp [hold] at h
        | event source code value now =>
          obtain ⟨rfl, rfl⟩ : value = 1 ∧ ⟨source, code, now⟩ = p := by simpa [hold] using h
          exact ⟨calls, [], rfl, hq, by simp⟩
      · rw [hq] at h
        obtain ⟨hr, rfl⟩ : ¬ Releases q c ∧ q = p := by simpa [hold] using h
        obtain ⟨before, after, rfl, hb, hk⟩ := ih hq
        refine ⟨before, after ++ [c], by simp, hb, ?_⟩
        intro d hd
        rcases mem_append.mp hd with hd | hd
        · exact hk d hd
        · rwa [mem_singleton.mp hd]
  · rintro ⟨before, after, rfl, hb, hk⟩
    rw [held_append, hb, foldl_cons, hold_down, hold_kept hk]

/-! ### What the five scalars mean -/

structure DownFor (key : PowerKey) (p : Press) : Prop where
  down : key.down = true
  source : key.source = p.source
  code : key.code = p.code
  pressedAt : key.pressedAt = p.pressedAt

/-- The key is down for the press that is held, and up when none is. -/
def Agrees (key : PowerKey) : Option Press → Prop
  | none => key.down = false
  | some p => DownFor key p

lemma tick_cases (key : PowerKey) (now : Int64) :
    (key.down = true ∧ key.fired = false ∧ key.pressedAt ≤ now ∧ holdMs ≤ now - key.pressedAt ∧
      tick key now = (.shutdown, { key with fired := true })) ∨ tick key now = (.none, key) := by
  unfold tick
  split
  next h => exact .inl ⟨h.1, by simpa using h.2.1, h.2.2.1, h.2.2.2, rfl⟩
  next => exact .inr rfl

lemma call_up (h : key.down = false) (c : Call) :
    (∃ source code now, c = .event source code 1 now ∧
      call key c = (.none, ⟨true, false, source, code, now⟩)) ∨
    (hold none c = none ∧ call key c = (.none, key)) := by
  cases c with
  | tick now => exact .inr ⟨rfl, by simp [call, tick, h]⟩
  | event source code value now =>
    by_cases hv : value = 1
    · subst hv
      exact .inl ⟨source, code, now, rfl, by simp [call, event, h]⟩
    · exact .inr ⟨by simp [hold, hv], by simp [call, event, h, hv]⟩

lemma call_kept (h : DownFor key p)
    (hr : ¬ Releases p c) :
    (key.fired = false ∧ (∃ now, c = .tick now ∧ p.pressedAt ≤ now ∧ holdMs ≤ now - p.pressedAt) ∧
      call key c = (.shutdown, { key with fired := true })) ∨ call key c = (.none, key) := by
  cases c with
  | tick now =>
    rcases tick_cases key now with ⟨-, hf, hle, hhold, ht⟩ | ht
    · rw [h.pressedAt] at hle hhold
      exact .inl ⟨hf, ⟨now, rfl, hle, hhold⟩, ht⟩
    · exact .inr ht
  | event source code value now =>
    right
    have hr : ¬ (value = 0 ∧ p.source = source ∧ p.code = code) := hr
    simp [call, event, h.down, h.source, h.code, hr]

lemma call_released (h : DownFor key p)
    (hr : Releases p c) :
    ∃ now, c = .event p.source p.code 0 now ∧ (call key c).2 = reset ∧
      ((key.fired = false ∧ p.pressedAt ≤ now ∧ now - p.pressedAt < holdMs ∧
        (call key c).1 = .short) ∨ (call key c).1 = .none) := by
  cases c with
  | tick now => exact hr.elim
  | event source code value now =>
    obtain ⟨rfl, rfl, rfl⟩ := hr
    refine ⟨now, rfl, ?_⟩
    by_cases hs : key.fired = false ∧ p.pressedAt ≤ now ∧ now - p.pressedAt < holdMs
    · have hc : call key (.event p.source p.code 0 now) = (.short, reset) := by
        simp [call, event, h.down, h.source, h.code, h.pressedAt, hs]
      rw [hc]
      exact ⟨rfl, .inl ⟨hs.1, hs.2.1, hs.2.2, rfl⟩⟩
    have hc : call key (.event p.source p.code 0 now) = (.none, reset) := by
      have hs : ¬ (¬ key.fired ∧ p.pressedAt ≤ now ∧ now - p.pressedAt < holdMs) := by
        simpa using hs
      simp only [call, event, h.down, h.source, h.code, h.pressedAt, if_neg hs]
      simp
    rw [hc]
    exact ⟨rfl, .inr rfl⟩

lemma DownFor.fire (h : DownFor key p) :
    DownFor { key with fired := true } p :=
  { h with }

/-- **One call**: the key stays in agreement with what is held. -/
lemma Agrees.call : ∀ {h : Option Press}, Agrees key h → ∀ c : Call,
    Agrees (call key c).2 (hold h c)
  | none, h, c => by
    rcases call_up h c with ⟨source, code, now, rfl, hc⟩ | ⟨hh, hc⟩
    · rw [hc]
      exact ⟨rfl, rfl, rfl, rfl⟩
    · rw [hc, hh]
      exact h
  | some p, h, c => by
    by_cases hr : Releases p c
    · obtain ⟨now, -, hc, -⟩ := call_released h hr
      rw [hc]
      simp [hold, hr, Agrees, reset]
    rw [show hold (some p) c = some p by simp [hold, hr]]
    rcases call_kept h hr with ⟨-, -, hc⟩ | hc
    · rw [hc]
      exact DownFor.fire h
    · rw [hc]
      exact h

/-- **Any calls**: the key agrees with the press that is held. -/
theorem agrees_run (calls : List Call) : Agrees (run reset calls) (held calls) := by
  induction calls using reverseRecOn with
  | nil => exact rfl
  | append_singleton calls c ih =>
    rw [run_append, held_append]
    exact ih.call c

/-- From a press on, while it is not released: the key is down for it, it has fired if a call
returned something, and no more than one did. -/
lemma run_kept : ∀ {after : List Call} {key : PowerKey}, DownFor key p →
    (∀ c ∈ after, ¬ Releases p c) → DownFor (run key after) p ∧
    ((key.fired = true → (run key after).fired = true ∧ ∀ a ∈ returns key after, a = .none) ∧
    (key.fired = false → ((run key after).fired = false ∧ ∀ a ∈ returns key after, a = .none) ∨
      ((run key after).fired = true ∧ (returns key after).countP (· ≠ .none) = 1)))
  | [], key, h, _ => ⟨h, by simp [returns], by simp [returns]⟩
  | c :: after, key, h, hk => by
    have hkept : ∀ d ∈ after, ¬ Releases p d := fun d hd => hk d (by simp [hd])
    rcases call_kept h (hk c (by simp)) with ⟨hf, -, hc⟩ | hc
    · -- the hold is over: from here on the key has fired
      obtain ⟨hd, hfired, -⟩ := run_kept h.fire hkept
      obtain ⟨hr, hnone⟩ := hfired rfl
      refine ⟨by simpa [hc] using hd, by simp [hf], fun _ => .inr ⟨by simpa [hc] using hr, ?_⟩⟩
      have hzero : (returns { key with fired := true } after).countP (· ≠ .none) = 0 :=
        countP_eq_zero.mpr fun a ha => by simp [hnone a ha]
      simp only [returns, hc, countP_cons, hzero]
      simp
    · obtain ⟨hd, hfired, hnot⟩ := run_kept h hkept
      refine ⟨by simpa [hc] using hd, fun hf => ?_, fun hf => ?_⟩
      · simpa [returns, hc] using hfired hf
      · simpa [returns, hc] using hnot hf

/-! ### The clock -/

/-- The time between two readings fits the code's integers. -/
def Spans (t now : Int64) : Prop := now.toInt - t.toInt < 2 ^ 63

lemma toInt_holdMs : holdMs.toInt = 3000 := by decide

lemma sub_toInt (h : t ≤ now) (hs : Spans t now) :
    (now - t).toInt = now.toInt - t.toInt := by
  have hle : t.toInt ≤ now.toInt := Int64.le_iff_toInt_le.mp h
  unfold Spans at hs
  rw [Int64.toInt_sub, Int.bmod_eq_of_le] <;> omega

lemma hold_le (h : t ≤ now) (hh : holdMs ≤ now - t) :
    3000 ≤ now.toInt - t.toInt := by
  by_cases hs : Spans t now
  · have hle := Int64.le_iff_toInt_le.mp hh
    rwa [sub_toInt h hs, toInt_holdMs] at hle
  · unfold Spans at hs
    omega

lemma hold_le_iff (hsum : t.toInt + 3000 < 2 ^ 63) (hs : Spans t now) :
    t ≤ now ∧ holdMs ≤ now - t ↔ t + holdMs ≤ now := by
  have hadd : (t + holdMs).toInt = t.toInt + 3000 := by
    have hlow := t.le_toInt
    rw [Int64.toInt_add, toInt_holdMs, Int.bmod_eq_of_le] <;> omega
  rw [Int64.le_iff_toInt_le (x := t + holdMs), hadd]
  constructor
  · rintro ⟨hle, hh⟩
    have := hold_le hle hh
    omega
  intro hle
  have htn : t ≤ now := Int64.le_iff_toInt_le.mpr (by omega)
  refine ⟨htn, Int64.le_iff_toInt_le.mpr ?_⟩
  rw [sub_toInt htn hs, toInt_holdMs]
  omega

lemma add_hold_ne (ht : t ≠ -3001) : t + holdMs ≠ -1 := by
  intro h
  apply ht
  have hadd : t = t + holdMs - holdMs := by simp
  rw [hadd, h]
  decide

lemma lt_hold (h : t ≤ now) (hs : Spans t now) (hh : now - t < holdMs) :
    now.toInt - t.toInt < 3000 := by
  have hlt := Int64.lt_iff_toInt_lt.mp hh
  rwa [sub_toInt h hs, toInt_holdMs] at hlt

/-! ### A press and its action -/

lemma downFor_press (hb : held before = none) (p : Press) :
    DownFor (run reset (before ++ [p.down])) p ∧
      (run reset (before ++ [p.down])).fired = false := by
  have hup : (run reset before).down = false := by
    have := agrees_run before
    rwa [hb] at this
  rw [run_append]
  simp only [run_cons, run_nil, call, Press.down, event, hup]
  exact ⟨⟨rfl, rfl, rfl, rfl⟩, rfl⟩

def since (before : List Call) (p : Press) (after : List Call) : List Action :=
  returns (run reset (before ++ [p.down])) after

lemma Held.silent {after : List Call} (h : Held calls before after p)
    (hf : (run reset calls).fired = false) : ∀ a ∈ since before p after, a = .none := by
  obtain ⟨hd, hdf⟩ := downFor_press h.free p
  obtain ⟨-, -, hnot⟩ := run_kept hd h.kept
  rw [h.split, show before ++ p.down :: after = before ++ [p.down] ++ after by simp,
    run_append] at hf
  rcases hnot hdf with ⟨-, hnone⟩ | ⟨hfired, -⟩
  · exact hnone
  · rw [hf] at hfired
    exact absurd hfired (by simp)

/-- **One action for each press**: up to its release, and with it. -/
lemma countP_since {after : List Call} (hb : held before = none)
    (hk : ∀ c ∈ after, ¬ Releases p c) (last : Call) :
    (since before p (after ++ [last])).countP (· ≠ .none) ≤ 1 := by
  obtain ⟨hd, hdf⟩ := downFor_press hb p
  obtain ⟨hd', -, hnot⟩ := run_kept hd hk
  rw [since, returns_append, countP_append]
  have hlast : (returns (run (run reset (before ++ [p.down])) after) [last]).countP
      (· ≠ .none) ≤ 1 := countP_le_length
  rcases hnot hdf with ⟨-, hnone⟩ | ⟨hfired, hone⟩
  · have hzero : (returns (run reset (before ++ [p.down])) after).countP (· ≠ .none) = 0 :=
      countP_eq_zero.mpr fun a ha => by simp [hnone a ha]
    omega
  -- it has acted: whatever comes next, its release among it, returns nothing
  have hnone : (call (run (run reset (before ++ [p.down])) after) last).1 = .none := by
    by_cases hr : Releases p last
    · obtain ⟨now, -, -, ⟨hf, -⟩ | hc⟩ := call_released hd' hr
      · rw [hfired] at hf
        exact absurd hf (by simp)
      · exact hc
    rcases call_kept hd' hr with ⟨hf, -⟩ | hc
    · rw [hfired] at hf
      exact absurd hf (by simp)
    · rw [hc]
  rw [hone]
  simp [returns, hnone]

lemma held_of_returned (h : returned calls c ≠ .none) :
    ∃ p before after, Held calls before after p ∧ DownFor (run reset calls) p := by
  have hagrees := agrees_run calls
  rcases hh : held calls with _ | p
  · rw [hh] at hagrees
    rcases call_up hagrees c with ⟨source, code, now, rfl, hc⟩ | ⟨-, hc⟩
    · simp [returned, hc] at h
    · simp [returned, hc] at h
  · obtain ⟨before, after, hsplit⟩ := held_iff.mp hh
    rw [hh] at hagrees
    exact ⟨p, before, after, hsplit, hagrees⟩

lemma returned_shutdown (h : returned calls c = .shutdown) :
    ∃ now p before after, c = .tick now ∧ Held calls before after p ∧
      3000 ≤ now.toInt - p.pressedAt.toInt ∧ ∀ a ∈ since before p after, a = .none := by
  have hreturned : returned calls c ≠ .none := by
    rw [h]
    simp
  obtain ⟨p, before, after, hheld, hd⟩ := held_of_returned hreturned
  unfold returned at h
  by_cases hr : Releases p c
  · obtain ⟨now, -, -, ⟨-, -, -, hc⟩ | hc⟩ := call_released hd hr <;> simp [hc] at h
  rcases call_kept hd hr with ⟨hf, ⟨now, rfl, hle, hh⟩, -⟩ | hc
  · exact ⟨now, p, before, after, rfl, hheld, hold_le hle hh, hheld.silent hf⟩
  · simp [hc] at h

lemma returned_short (h : returned calls c = .short) :
    ∃ now p before after, c = .event p.source p.code 0 now ∧ Held calls before after p ∧
      p.pressedAt ≤ now ∧ now - p.pressedAt < holdMs ∧ ∀ a ∈ since before p after, a = .none := by
  have hreturned : returned calls c ≠ .none := by
    rw [h]
    simp
  obtain ⟨p, before, after, hheld, hd⟩ := held_of_returned hreturned
  unfold returned at h
  by_cases hr : Releases p c
  · obtain ⟨now, rfl, -, ⟨hf, hle, hlt, -⟩ | hc⟩ := call_released hd hr
    · exact ⟨now, p, before, after, rfl, hheld, hle, hlt, hheld.silent hf⟩
    · simp [hc] at h
  · rcases call_kept hd hr with ⟨-, -, hc⟩ | hc <;> simp [hc] at h

/-! ### The deadline -/

/-- A hold is being timed. -/
def Armed (key : PowerKey) : Prop := key.down = true ∧ key.fired = false

lemma tick_armed (ha : Armed key) (hsum : key.pressedAt.toInt + 3000 < 2 ^ 63) (hs : Spans key.pressedAt now) :
    (tick key now).1 = .shutdown ↔ deadline key ≤ now := by
  have hdeadline : deadline key = key.pressedAt + holdMs := by simp [deadline, ha.1, ha.2]
  rw [hdeadline, ← hold_le_iff hsum hs]
  rcases tick_cases key now with ⟨-, -, hle, hh, ht⟩ | ht
  · simp [ht, hle, hh]
  have hno : ¬ (key.pressedAt ≤ now ∧ holdMs ≤ now - key.pressedAt) := by
    intro hlate
    rw [tick, if_pos ⟨ha.1, by simp [ha.2], hlate.1, hlate.2⟩] at ht
    exact absurd (congrArg Prod.fst ht) (by simp)
  simpa [ht] using hno

lemma tick_unarmed (ha : ¬ Armed key) (now : Int64) :
    tick key now = (.none, key) := by
  rcases tick_cases key now with ⟨hd, hf, -⟩ | ht
  · exact absurd ⟨hd, hf⟩ ha
  · exact ht

lemma call_unarmed (ha : ¬ Armed key) (hc : ¬ c.Presses) :
    ¬ Armed (call key c).2 := by
  cases c with
  | tick now =>
    rw [call, tick_unarmed ha]
    exact ha
  | event source code value now =>
    have hv : ¬ value = 1 := hc
    simp only [call, event, hv, false_and, if_false]
    split
    · split <;> simp [Armed, reset]
    · exact ha

lemma run_unarmed : ∀ {rest : List Call} {key : PowerKey}, ¬ Armed key →
    (∀ c ∈ rest, ¬ c.Presses) → ¬ Armed (run key rest)
  | [], _, ha, _ => ha
  | c :: rest, key, ha, hp => by
    rw [run_cons]
    exact run_unarmed (call_unarmed ha (hp c (by simp))) fun d hd => hp d (by simp [hd])

lemma exists_press (ha : Armed (run reset calls)) :
    ∃ c ∈ calls, c.now = (run reset calls).pressedAt := by
  have hagrees := agrees_run calls
  rcases hh : held calls with _ | p
  · rw [hh] at hagrees
    exact absurd ha.1 (by simp [show (run reset calls).down = false from hagrees])
  rw [hh] at hagrees
  obtain ⟨before, after, hheld⟩ := held_iff.mp hh
  refine ⟨p.down, ?_, hagrees.pressedAt.symm⟩
  rw [hheld.split]
  simp

lemma deadline_eq_iff (hsent : ∀ c ∈ calls, c.now ≠ -3001) :
    deadline (run reset calls) = -1 ↔ ¬ Armed (run reset calls) := by
  constructor
  · rintro hd ⟨hdown, hf⟩
    obtain ⟨c, hc, hnow⟩ := exists_press ⟨hdown, hf⟩
    rw [deadline, if_pos ⟨hdown, by simp [hf]⟩] at hd
    exact add_hold_ne (hnow ▸ hsent c hc) hd
  intro ha
  rw [deadline, if_neg]
  rintro ⟨hdown, hf⟩
  exact ha ⟨hdown, by simpa using hf⟩

/-- Without a new press, and whatever else is called, no tick fires. -/
def Over (calls : List Call) : Prop :=
  ∀ rest : List Call, (∀ c ∈ rest, ¬ c.Presses) → ∀ now,
    returned (calls ++ rest) (.tick now) = .none

lemma over_iff (hsum : ∀ c ∈ calls, c.now.toInt + 3000 < 2 ^ 63) :
    Over calls ↔ ¬ Armed (run reset calls) := by
  constructor
  · intro ho ha
    obtain ⟨c, hc, hnow⟩ := exists_press ha
    have hsum := hnow ▸ hsum c hc
    have hfire : (tick (run reset calls) (deadline (run reset calls))).1 = .shutdown := by
      refine (tick_armed ha hsum ?_).mpr (Int64.le_refl _)
      have hlow := (run reset calls).pressedAt.le_toInt
      rw [Spans, deadline, if_pos ⟨ha.1, by simp [ha.2]⟩, Int64.toInt_add, toInt_holdMs,
        Int.bmod_eq_of_le] <;> omega
    have hnone := ho [] (by simp) (deadline (run reset calls))
    rw [append_nil, returned, call, hfire] at hnone
    exact absurd hnone (by simp)
  · intro ha rest hp now
    rw [returned, run_append, call, tick_unarmed (run_unarmed ha hp)]

/-- **The power key**, after any calls of any devices. A press acts once at most. A shutdown comes
from a tick, while the key that was pressed has not been released, no less than the hold after the
press; a short press from the release of the very key, before that. The deadline is there while a
tick can fire without a new press, and is the first time at which one does.

The elapsed time and the deadline have to fit the code's integers for the last two, and the reading
whose deadline is `-1` must not be a press's. -/
theorem power_key (calls : List Call) :
    (∀ before after last p, held before = none → (∀ c ∈ after, ¬ Releases p c) →
      (since before p (after ++ [last])).countP (· ≠ .none) ≤ 1) ∧
    (∀ c, returned calls c = .shutdown → ∃ now p before after, c = .tick now ∧
      Held calls before after p ∧ 3000 ≤ now.toInt - p.pressedAt.toInt ∧
      ∀ a ∈ since before p after, a = .none) ∧
    (∀ c, returned calls c = .short → ∃ now p before after,
      c = .event p.source p.code 0 now ∧ Held calls before after p ∧ p.pressedAt ≤ now ∧
      (Spans p.pressedAt now → now.toInt - p.pressedAt.toInt < 3000) ∧
      ∀ a ∈ since before p after, a = .none) ∧
    ((∀ c ∈ calls, c.now ≠ -3001 ∧ c.now.toInt + 3000 < 2 ^ 63) →
      (deadline (run reset calls) = -1 ↔ Over calls) ∧
      (deadline (run reset calls) ≠ -1 → ∀ now, (∀ c ∈ calls, Spans c.now now) →
        (returned calls (.tick now) = .shutdown ↔ deadline (run reset calls) ≤ now))) := by
  refine ⟨fun before after last p hb hk => countP_since hb hk last, fun c => returned_shutdown,
    fun c h => ?_, fun hclock => ⟨?_, fun hd now hspan => ?_⟩⟩
  · obtain ⟨now, p, before, after, hc, hheld, hle, hlt, hsilent⟩ := returned_short h
    exact ⟨now, p, before, after, hc, hheld, hle, fun hs => lt_hold hle hs hlt, hsilent⟩
  · rw [deadline_eq_iff fun c hc => (hclock c hc).1, over_iff fun c hc => (hclock c hc).2]
  · have ha : Armed (run reset calls) := by
      by_contra ha
      exact hd ((deadline_eq_iff fun c hc => (hclock c hc).1).mpr ha)
    obtain ⟨c, hc, hnow⟩ := exists_press ha
    exact tick_armed ha (hnow ▸ (hclock c hc).2) (hnow ▸ hspan c hc)

/-- A key pressed at `100`: a tick fires from `3100` on. -/
theorem power_key_held :
    ∀ now : Int64, Spans 100 now →
      (returned [.event 1 116 1 100] (.tick now) = .shutdown ↔ 3100 ≤ now) := by
  intro now hs
  have hclock : ∀ c ∈ [Call.event 1 116 1 100], c.now ≠ -3001 ∧ c.now.toInt + 3000 < 2 ^ 63 := by
    decide
  exact ((power_key [.event 1 116 1 100]).2.2.2 hclock).2 (by decide) now (by simpa [Call.now])

/-- A press at `-3001`: the deadline says that nothing is being timed, and a tick fires. -/
theorem power_key_sentinel :
    deadline (run reset [.event 1 116 1 (-3001)]) = -1 ∧
      returned [.event 1 116 1 (-3001)] (.tick (-1)) = .shutdown := by
  decide

end C1auncher.Power.PowerKey
