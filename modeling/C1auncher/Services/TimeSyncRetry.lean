import C1auncher.Services.TimeSyncStarts

/-!
The delay between attempts: while nothing interrupts the worker, an attempt comes as long behind the
end of the last one as the worker waits, but for the start of `ntpd` right behind its probe.
-/

namespace C1auncher.Services.TimeSyncRetry

open Traces Services.TimeSync Services.TimeSyncProbe List Option
open Services.TimeSyncChildren Services.TimeSyncStarts

/-! ### Marks -/

/-- When an attempt failed, or one that was made ended. -/
def endedAt : Event → Option Int64
  | .refused now | .late now => some now
  | .ended e => some e.now
  | _ => none

/-- An attempt and its end are marks; a mark counts no more behind a pause, a stop, or an
observation of somebody else who keeps the clock. -/
def markOf : Event → Option (Option Event)
  | .forked n ntpd now => some (some (.forked n ntpd now))
  | .refused now => some (some (.refused now))
  | .late now => some (some (.late now))
  | .ended e => some (some (.ended e))
  | .called enabled online _ => if enabled && online then none else some none
  | .stopped => some none
  | .observed service synced => if service = .none && !synced then none else some none
  | .killed _ | .gone _ => none

def lastMark (trace : List Event) : Option Event := (trace.findSome? markOf).join

variable {e : Event} {trace mid : List Event} {since : Int64}

lemma lastMark_cons_of_none (h : markOf e = none) :
    lastMark (e :: trace) = lastMark trace := by
  rw [lastMark, findSome?_cons, h, lastMark]

lemma lastMark_cons_of_some {m : Option Event}
    (h : markOf e = some m) : lastMark (e :: trace) = m := by
  rw [lastMark, findSome?_cons, h]
  rfl

lemma mark_cases {m : Event} (h : lastMark trace = some m) :
    (∃ n ntpd now, m = .forked n ntpd now) ∨ ∃ c, endedAt m = some c := by
  obtain ⟨e, -, he⟩ := exists_of_findSome?_eq_some (Option.join_eq_some_iff.mp h)
  cases e <;> simp only [markOf, some.injEq, reduceCtorEq] at he
  · split_ifs at he
    simp at he
  · split_ifs at he
    simp at he
  · exact .inl ⟨_, _, _, he.symm⟩
  · exact .inr ⟨_, by rw [← he]; rfl⟩
  · exact .inr ⟨_, by rw [← he]; rfl⟩
  · exact .inr ⟨_, by rw [← he]; rfl⟩

lemma markOf_of_ofChild (h : OfChild e) : markOf e = none := by
  obtain ⟨n, rfl | rfl⟩ := h <;> rfl

lemma lastMark_append {events : List Event} (h : ∀ e ∈ events, OfChild e) :
    lastMark (events ++ trace) = lastMark trace := by
  rw [lastMark, findSome?_append_of_none fun e he => markOf_of_ofChild (h e he), lastMark]

/-- A child is started as long behind the last mark as the worker waits, which is then the end of
an attempt; or it is `ntpd`, right behind the end of a probe that listed it. -/
def Spaced : Event → List Event → Prop
  | .forked _ ntpd now, past => ∀ m, lastMark past = some m →
      (∃ c, endedAt m = some c ∧ afterMs c retryMs ≤ now) ∨
      ntpd = true ∧ ∃ e back, past = .ended e :: back ∧ Lists e ∧ e.now = now
  | _, _ => True

lemma spaced_of_ofChild (h : OfChild e) (past : List Event) : Spaced e past := by
  obtain ⟨n, rfl | rfl⟩ := h <;> trivial

/-! ### What a mark that counts says of the worker -/

/-- Nothing interrupts the worker. -/
structure Clear (s : Sync) : Prop where
  enabled : s.previousEnabled = true
  online : s.previousOnline = true
  service : s.systemService = .none
  synced : s.kernelSynced = false

/-- What is so behind a mark; while `ending`, a child was found finished, and its end is still to be
settled. -/
structure Held (ending : Bool) (m : Event) (s : Sync) : Prop extends Clear s where
  running : ∀ n ntpd now, m = .forked n ntpd now →
    (s.pid ≠ none ∨ ending = true) ∧ s.cancelled = false
  waiting : ∀ c, endedAt m = some c → afterMs c retryMs ≤ s.nextAttempt

variable {w : Worker} {t : Tick} {ending : Bool}

structure Timed (ending : Bool) (w : Worker) : Prop where
  held : ∀ m, lastMark w.trace = some m → Held ending m w.sync
  always : Always Spaced w.trace

/-- No mark counts. -/
structure Idle (w : Worker) : Prop where
  unmarked : lastMark w.trace = none
  always : Always Spaced w.trace

lemma Idle.timed (h : Idle w) (ending : Bool) : Timed ending w where
  held m hm := absurd (h.unmarked.symm.trans hm) (by simp)
  always := h.always

lemma idle_start : Idle Worker.start := ⟨rfl, trivial⟩

lemma Idle.move (h : Idle w) (s : Sync) (forks : ℕ) (events : List Event)
    (hevents : ∀ e ∈ events, OfChild e) : Idle ⟨s, forks, events ++ w.trace⟩ where
  unmarked := (lastMark_append hevents).trans h.unmarked
  always := h.always.append fun e he past => spaced_of_ofChild (hevents e he) past

lemma Idle.cancelChild (h : Idle w) (cancel : Cancel) : Idle (cancelChild w cancel) := by
  obtain ⟨_, _, _, _, heq, hevents⟩ := cancelChild_eq w cancel
  rw [heq]
  exact h.move _ _ _ hevents

lemma Idle.set (h : Idle w) (s : Sync) : Idle { w with sync := s } := ⟨h.unmarked, h.always⟩

lemma Idle.requestStop (h : Idle w) (cancel : Cancel) : Idle (requestStop w cancel) :=
  ((h.set { w.sync with cancelled := true }).cancelChild cancel).set _

lemma Idle.collect (h : Idle w) (t : Tick) : Idle (collect t w).1 := by
  obtain ⟨_, _, _, _, _, -, -, heq, hevents, -⟩ := collect_eq t w
  rw [heq]
  exact h.move _ _ _ hevents

lemma idle_stop (h : Always Spaced w.trace) (first : Cancel) (attempts : ℕ → Cancel) :
    Idle (stop w first attempts) := by
  have hloop : ∀ turns w, Idle w → Idle (stopLoop attempts turns w) := by
    intro turns
    induction turns with
    | zero => exact fun _ h => h
    | succ turns ih =>
      intro w h
      rw [stopLoop]
      split_ifs
      · exact h
      · exact ih _ (h.cancelChild _)
  have hstopped : Idle (w.log .stopped) := ⟨rfl, trivial, h⟩
  exact hloop 20 _ (hstopped.requestStop first)

/-! ### The parts of a tick -/

lemma idle_call (h : Timed false w) (hpaused : (!t.enabled || !t.online) = true) :
    Idle (call t w) where
  unmarked := by
    have hmark : markOf (.called t.enabled t.online t.now) = some none := by
      rw [Bool.or_eq_true, Bool.not_eq_true', Bool.not_eq_true'] at hpaused
      rw [markOf, if_neg]
      rcases hpaused with hp | hp
      · simp [hp]
      · simp [hp]
    exact lastMark_cons_of_some hmark
  always := ⟨trivial, h.always⟩

lemma Timed.call (h : Timed false w) (henabled : t.enabled = true) (honline : t.online = true) :
    Timed false (call t w) ∧ (resumes t w.sync = true → Idle (call t w)) := by
  have hmark : markOf (.called t.enabled t.online t.now) = none := by
    rw [markOf, henabled, honline]
    rfl
  have hlast : lastMark (TimeSync.call t w).trace = lastMark w.trace := lastMark_cons_of_none hmark
  refine ⟨⟨fun m hm => ?_, trivial, h.always⟩, fun hresumed => ⟨?_, trivial, h.always⟩⟩
  · have hheld := h.held m (hlast.symm.trans hm)
    exact ⟨⟨henabled, honline, hheld.service, hheld.synced⟩, hheld.running, hheld.waiting⟩
  rw [hlast]
  rcases hm : lastMark w.trace with _ | m
  · rfl
  have hheld := h.held m hm
  rw [resumes, hheld.enabled, hheld.online] at hresumed
  simp at hresumed

lemma Timed.collect (h : Timed false w) (t : Tick) :
    Timed (collect t w).2.isSome (collect t w).1 := by
  obtain ⟨s, pid, _, _, _, hreads, -, heq, hevents, hpid⟩ := collect_eq t w
  obtain ⟨_, _, _, _, _, _, rfl⟩ := hreads
  rw [heq]
  refine ⟨fun m hm => ?_, h.always.append fun e he past => spaced_of_ofChild (hevents e he) past⟩
  have hheld := h.held m ((lastMark_append hevents).symm.trans hm)
  refine ⟨{ hheld with }, fun n ntpd now hforked => ?_,
    hheld.waiting⟩
  obtain ⟨hchild, hcancelled⟩ := hheld.running n ntpd now hforked
  refine ⟨?_, hcancelled⟩
  rcases hpid with ⟨-, rfl⟩ | ⟨hsome, -⟩
  · exact .inl (hchild.resolve_right (by simp))
  · exact .inr hsome

lemma Timed.observe (h : Timed ending w) (t : Tick) :
    Timed ending (observe t w) ∧
      (t.service ≠ .none ∨ t.synced = true → Idle (observe t w)) := by
  by_cases hnone : t.service = .none ∧ t.synced = false
  · have hmark : markOf (.observed t.service t.synced) = none := by
      rw [markOf, hnone.1, hnone.2]
      rfl
    have hlast : lastMark (TimeSync.observe t w).trace = lastMark w.trace :=
      lastMark_cons_of_none hmark
    refine ⟨⟨fun m hm => ?_, trivial, h.always⟩, fun hother => ?_⟩
    · have hheld := h.held m (hlast.symm.trans hm)
      exact ⟨⟨hheld.enabled, hheld.online, hnone.1, hnone.2⟩, hheld.running, hheld.waiting⟩
    · exact absurd hnone (by rcases hother with hs | hs <;> simp [hs])
  · have hmark : markOf (.observed t.service t.synced) = some none := by
      rw [markOf, if_neg]
      simpa using hnone
    have hidle : Idle (TimeSync.observe t w) := ⟨lastMark_cons_of_some hmark, trivial, h.always⟩
    exact ⟨hidle.timed ending, fun _ => hidle⟩

lemma Idle.observe (h : Idle w) (t : Tick) : Idle (observe t w) where
  unmarked := by
    rcases hmark : markOf (.observed t.service t.synced) with _ | m
    · exact (lastMark_cons_of_none hmark).trans h.unmarked
    have hm : m = none := by
      simp only [markOf] at hmark
      split_ifs at hmark
      exact (some.inj hmark).symm
    exact (lastMark_cons_of_some hmark).trans hm
  always := ⟨trivial, h.always⟩

lemma Idle.giveWay (h : Idle w) (t : Tick) : Idle (giveWay t w) :=
  ((h.set { w.sync with cancelled := true }).cancelChild t.cancel).set _

/-- A probe has just listed the applet, and nothing has happened since. -/
structure Listed (now : Int64) (w : Worker) : Prop where
  pid : w.sync.pid = none
  next : w.sync.nextAttempt = now
  applet : w.sync.appletAvailable = true
  ended : ∃ e back, w.trace = .ended e :: back ∧ Lists e ∧ e.now = now
  always : Always Spaced w.trace

lemma Timed.makeReady (h : Timed ending w) {resumed : Bool} (hresumed : resumed = true → Idle w)
    (observed : Bool) : Timed ending { w with sync := makeReady t resumed observed w.sync } := by
  obtain ⟨next, _, hs, hnext⟩ := makeReady_eq t resumed observed w.sync
  rw [hs]
  rcases hnext with rfl | ⟨hr, -⟩
  · refine ⟨fun m hm => ?_, h.always⟩
    have hheld := h.held m hm
    exact ⟨{ hheld with }, hheld.running, hheld.waiting⟩
  · exact ((hresumed hr).set _).timed ending

/-- **The end of an attempt** is the mark from which the worker waits, unless a probe has listed the
applet. -/
lemma Timed.settle (h : Timed true w) (hclear : Clear w.sync) (hparsed : Parsed w.sync)
    (hpid : w.sync.pid = none) (status : Option UInt8) (now : Int64) :
    Timed false (settle w status now) ∨ Listed now (settle w status now) := by
  obtain ⟨next, state, applet, hs⟩ := settleSync_eq w.sync status now
  have hlast : lastMark (TimeSync.settle w status now).trace =
      some (.ended (endOf w.sync status now)) := lastMark_cons_of_some rfl
  have hcases := settleSync_cases hparsed status now
  rw [hs] at hcases
  rcases hcases with ⟨hnext, -⟩ | ⟨hnext, happlet, hlists⟩
  · refine .inl ⟨fun m hm => ?_, trivial, h.always⟩
    obtain rfl := some.inj (hlast.symm.trans hm)
    simp only [TimeSync.settle, Worker.log, hs]
    refine ⟨{ hclear with },
      fun _ _ _ hforked => absurd hforked (by simp), ?_⟩
    rintro c ⟨⟩
    exact Int64.le_of_eq hnext.symm
  · refine .inr ⟨?_, ?_, ?_, ⟨_, _, rfl, hlists, rfl⟩, trivial, h.always⟩
    · simp only [TimeSync.settle, Worker.log, hs]
      exact hpid
    · simp only [TimeSync.settle, Worker.log, hs]
      exact hnext
    · simp only [TimeSync.settle, Worker.log, hs]
      exact happlet

lemma Timed.settleFinished {finished : Option (Option UInt8)} (h : Timed finished.isSome w)
    (hclear : Clear w.sync) (hparsed : Parsed w.sync)
    (hpid : finished.isSome = true → w.sync.pid = none) :
    Timed false (settleFinished t finished w) ∨ Listed t.now (settleFinished t finished w) := by
  unfold TimeSync.settleFinished
  cases finished with
  | none => exact .inl h
  | some status =>
    simp only
    split_ifs with hcancelled
    · refine .inl ⟨fun m hm => ?_, h.always⟩
      have hheld := h.held m hm
      refine ⟨hheld.toClear, fun n ntpd now hforked => ?_, hheld.waiting⟩
      have hrunning := (hheld.running n ntpd now hforked).2
      exact absurd hcancelled (by simp [hrunning])
    · exact h.settle hclear hparsed (hpid rfl) status t.now

/-- **An attempt** comes when the worker has waited long enough. -/
lemma attempt_timed (h : Timed false w ∨ Listed t.now w) (hclear : Clear w.sync)
    (hpid : w.sync.pid = none) : Timed false (attempt t w) := by
  have halways : Always Spaced w.trace := h.elim Timed.always Listed.always
  have hrefuse : ∀ state, Timed false (refuse w state t.now) := by
    intro state
    have hlast : lastMark (refuse w state t.now).trace = some (.refused t.now) :=
      lastMark_cons_of_some rfl
    refine ⟨fun m hm => ?_, trivial, halways⟩
    obtain rfl := some.inj (hlast.symm.trans hm)
    refine ⟨{ hclear with },
      fun _ _ _ hforked => absurd hforked (by simp), ?_⟩
    rintro c ⟨⟩
    exact Int64.le_refl _
  unfold attempt
  split_ifs with hnow
  · rcases h with h | h
    · exact h
    · exact absurd hnow (by rw [h.next]; exact Int64.lt_irrefl)
  · exact hrefuse _
  · exact hrefuse _
  have hlast : lastMark (Event.forked w.forks w.sync.appletAvailable t.now :: w.trace) =
      some (.forked w.forks w.sync.appletAvailable t.now) := lastMark_cons_of_some rfl
  refine ⟨fun m hm => ?_, fun m hm => ?_, halways⟩
  · obtain rfl := some.inj (hlast.symm.trans hm)
    refine ⟨{ hclear with },
      fun _ _ _ _ => ⟨.inl (by simp [startChild, Worker.log]), rfl⟩, ?_⟩
    rintro c ⟨⟩
  rcases h with h | h
  · have hheld := h.held m hm
    rcases mark_cases hm with ⟨n, ntpd, now, rfl⟩ | ⟨c, hc⟩
    · exact absurd (hheld.running n ntpd now rfl).1 (by simp [hpid])
    · exact .inl ⟨c, hc, Int64.le_trans (hheld.waiting c hc) (Int64.not_lt.mp hnow)⟩
  · exact .inr ⟨h.applet, h.ended⟩

lemma expire_timed (halways : Always Spaced w.trace) (hclear : Clear w.sync) :
    Timed false (expire t w) := by
  obtain ⟨_, _, _, events, heq, hevents⟩ :=
    cancelChild_eq { w with sync := { w.sync with timedOut := true } } t.cancel
  unfold expire
  simp only
  rw [heq]
  have hlast : lastMark (Event.late t.now :: (events ++ w.trace)) = some (.late t.now) :=
    lastMark_cons_of_some rfl
  refine ⟨fun m hm => ?_, trivial,
    halways.append fun e he past => spaced_of_ofChild (hevents e he) past⟩
  obtain rfl := some.inj (hlast.symm.trans hm)
  refine ⟨{ hclear with },
    fun _ _ _ hforked => absurd hforked (by simp), ?_⟩
  rintro c ⟨⟩
  exact Int64.le_refl _

lemma Timed.proceed {resumed : Bool} {finished : Option (Option UInt8)}
    (h : Timed finished.isSome w) (hclear : Clear w.sync) (hparsed : Parsed w.sync)
    (hpid : finished.isSome = true → w.sync.pid = none) (hresumed : resumed = true → Idle w)
    (observed : Bool) : Timed false (proceed t resumed observed finished w) := by
  obtain ⟨_, _, hready, -⟩ := makeReady_eq t resumed observed w.sync
  have hclear₁ : Clear (TimeSync.makeReady t resumed observed w.sync) := by
    rw [hready]
    exact { hclear with }
  have hsettled := (h.makeReady hresumed observed (t := t)).settleFinished (t := t) hclear₁
    (by rw [hready]; exact hparsed) (by rw [hready]; exact hpid)
  have hclear₂ : Clear (TimeSync.settleFinished t finished
      { w with sync := TimeSync.makeReady t resumed observed w.sync }).sync := by
    obtain ⟨_, _, _, _, heq, -⟩ := settleFinished_eq t finished
      { w with sync := TimeSync.makeReady t resumed observed w.sync }
    rw [heq]
    exact { hclear₁ with }
  unfold TimeSync.proceed
  simp only
  split_ifs with hnone
  · exact attempt_timed hsettled hclear₂ hnone
  · exact expire_timed (hsettled.elim Timed.always Listed.always) hclear₂
  rcases hsettled with hsettled | hlisted
  · exact hsettled
  · exact absurd hlisted.pid hnone

lemma Timed.tick (h : Timed false w) (hparsed : Parsed w.sync) (t : Tick) :
    Timed false (tick t w) := by
  unfold TimeSync.tick
  split_ifs with hnow hpaused
  · exact h
  · exact (((idle_call h hpaused).collect t).requestStop t.cancel).timed false
  obtain ⟨henabled, honline⟩ : t.enabled = true ∧ t.online = true := by
    simpa only [Bool.or_eq_true, Bool.not_eq_true', not_or, Bool.not_eq_false] using hpaused
  obtain ⟨hcall, hresumed⟩ := h.call henabled honline
  have hcollect := hcall.collect t
  obtain ⟨s, pid, _, _, _, hreads, hkeep, heq, -, hpid⟩ := collect_eq t (TimeSync.call t w)
  have hgone : (TimeSync.collect t (TimeSync.call t w)).2.isSome = true →
      (TimeSync.collect t (TimeSync.call t w)).1.sync.pid = none := by
    intro hsome
    rw [heq]
    rcases hpid with ⟨hnone, -⟩ | ⟨-, hnone⟩
    · exact absurd hsome (by simp [hnone])
    · exact hnone
  have hparsed' : Parsed (TimeSync.collect t (TimeSync.call t w)).1.sync := by
    rw [heq]
    exact hkeep hparsed
  have hflags : (TimeSync.collect t (TimeSync.call t w)).1.sync.previousEnabled = true ∧
      (TimeSync.collect t (TimeSync.call t w)).1.sync.previousOnline = true := by
    obtain ⟨_, _, _, _, _, _, rfl⟩ := hreads
    rw [heq]
    exact ⟨henabled, honline⟩
  -- What the tick goes on with, whether it has observed anew or not.
  have hrest : ∀ observed w', Timed (TimeSync.collect t (TimeSync.call t w)).2.isSome w' →
      Parsed w'.sync → w'.sync.previousEnabled = true ∧ w'.sync.previousOnline = true →
      ((TimeSync.collect t (TimeSync.call t w)).2.isSome = true → w'.sync.pid = none) →
      (resumes t w.sync = true → Idle w') →
      (w'.sync.systemService ≠ .none ∨ w'.sync.kernelSynced = true → Idle w') →
      Timed false (if w'.sync.systemService ≠ .none ∨ w'.sync.kernelSynced then
          TimeSync.giveWay t w'
        else TimeSync.proceed t (resumes t w.sync) observed
          (TimeSync.collect t (TimeSync.call t w)).2 w') := by
    intro observed w' h' hparsed' hflags' hpid' hresumed' hother'
    split_ifs with hother
    · exact ((hother' hother).giveWay t).timed false
    simp only [ne_eq, not_or, not_not, Bool.not_eq_true] at hother
    exact h'.proceed ⟨hflags'.1, hflags'.2, hother.1, hother.2⟩ hparsed' hpid' hresumed'
      observed
  have hother : ∀ w', Timed (TimeSync.collect t (TimeSync.call t w)).2.isSome w' →
      w'.sync.systemService ≠ .none ∨ w'.sync.kernelSynced = true → Idle w' := by
    intro w' h' hs
    refine ⟨?_, h'.always⟩
    rcases hm : lastMark w'.trace with _ | m
    · rfl
    · have hheld := h'.held m hm
      exact absurd hs (by simp [hheld.service, hheld.synced])
  refine hrest _ _ ?_ ?_ ?_ ?_ ?_ ?_
  · split_ifs
    · exact (hcollect.observe t).1
    · exact hcollect
  · split_ifs
    · exact hparsed'
    · exact hparsed'
  · split_ifs
    · exact hflags
    · exact hflags
  · split_ifs
    · exact hgone
    · exact hgone
  · intro hr
    have hidle := (hresumed hr).collect t
    split_ifs
    · exact hidle.observe t
    · exact hidle
  · split_ifs
    · exact (hcollect.observe t).2
    · exact hother _ hcollect

lemma timed_run (calls : List Call) : Timed false (run calls) := by
  have h : Timed false (run calls) ∧ Known (run calls) := by
    refine run_inv (I := fun w => Timed false w ∧ Known w)
      (And.intro (idle_start.timed false) known_start) (fun w t h => ?_)
      (fun w first attempts h => ?_) calls
    · exact ⟨h.1.tick h.2.parsed t, h.2.tick t⟩
    · exact ⟨(idle_stop h.1.always first attempts).timed false, h.2.stop first attempts⟩
  exact h.1

/-! ### Whole runs -/

/-- When a child was started, or could not be. -/
def attemptAt : Event → Option Int64
  | .forked _ _ now | .refused now => some now
  | _ => none

/-- Neither an attempt nor a pause, a stop or an observation of somebody else who keeps the clock;
and the clock has not gone back. -/
def Undisturbed (since : Int64) : Event → Prop
  | .called enabled online now => enabled = true ∧ online = true ∧ since ≤ now
  | .observed service synced => service = .none ∧ synced = false
  | .stopped | .forked .. | .refused _ => False
  | .killed _ | .gone _ | .late _ | .ended _ => True

lemma of_afterMs_le {now : Int64} (h : afterMs since retryMs ≤ now) :
    since.toInt + 300000 ≤ now.toInt ∨ now = Int64.maxValue := by
  have hretry : retryMs.toInt = 300000 := by decide
  have hmax : Int64.maxValue.toInt = 2 ^ 63 - 1 := by decide
  have hless : (Int64.maxValue - retryMs).toInt = 2 ^ 63 - 1 - 300000 := by decide
  unfold afterMs at h
  split_ifs at h with hbig
  · exact .inr (Int64.le_antisymm (Int64.le_maxValue now) h)
  left
  have hsmall := Int64.le_iff_toInt_le.mp (Int64.not_lt.mp hbig)
  have hlow := Int64.le_toInt since
  rw [hless] at hsmall
  rw [Int64.le_iff_toInt_le, Int64.toInt_add, hretry,
    Int.bmod_eq_of_le (by omega) (by omega)] at h
  exact h

lemma afterMs_mono {a b : Int64} (h : a ≤ b) : afterMs a retryMs ≤ afterMs b retryMs := by
  have hretry : retryMs.toInt = 300000 := by decide
  have hless : (Int64.maxValue - retryMs).toInt = 2 ^ 63 - 1 - 300000 := by decide
  have hle := Int64.le_iff_toInt_le.mp h
  unfold afterMs
  split_ifs with ha hb hb
  · exact Int64.le_refl _
  · rw [gt_iff_lt, Int64.lt_iff_toInt_lt] at ha hb
    omega
  · exact Int64.le_maxValue _
  rw [gt_iff_lt, Int64.lt_iff_toInt_lt, hless] at ha hb
  have hlow := Int64.le_toInt a
  rw [Int64.le_iff_toInt_le, Int64.toInt_add, Int64.toInt_add, hretry,
    Int.bmod_eq_of_le (by omega) (by omega), Int.bmod_eq_of_le (by omega) (by omega)]
  omega

lemma le_lastCall {c : Int64} {enabled online : Bool} {older : List Event}
    (hmid : ∀ e ∈ mid, Undisturbed since e) (holder : lastCall older = some (true, true, since))
    (h : lastCall (mid ++ older) = some (enabled, online, c)) : since ≤ c := by
  induction mid with
  | nil =>
    obtain ⟨-, -, rfl⟩ : true = enabled ∧ true = online ∧ since = c := by
      simpa using holder.symm.trans h
    exact Int64.le_refl _
  | cons e mid ih =>
    have hrest := ih fun e' he' => hmid e' (mem_cons_of_mem _ he')
    have he := hmid e mem_cons_self
    rw [lastCall, cons_append, findSome?_cons] at h
    cases e with
    | called enabled' online' now =>
      obtain ⟨-, -, rfl⟩ : enabled' = enabled ∧ online' = online ∧ now = c := by
        simpa [callOf] using h
      exact he.2.2
    | stopped => exact he.elim
    | observed _ _ => exact hrest h
    | forked _ _ _ => exact he.elim
    | refused _ => exact he.elim
    | killed _ => exact hrest h
    | gone _ => exact hrest h
    | late _ => exact hrest h
    | ended _ => exact hrest h

/-- **The mark behind an attempt that nothing disturbed** is this attempt, or the end of one. -/
lemma lastMark_of_undisturbed {a : Event} (older : List Event)
    (ha : attemptAt a = some since) (hmid : ∀ e ∈ mid, Undisturbed since e) :
    ∃ m, lastMark (mid ++ a :: older) = some m ∧ (m = a ∨ m ∈ mid) := by
  have hmark : markOf a = some (some a) := by
    cases a <;> first | rfl | exact absurd ha (by simp [attemptAt])
  obtain ⟨e, hmem, hlast, hsome⟩ := exists_findSome? mid older hmark
  refine ⟨e, ?_, hmem⟩
  rw [lastMark, hlast]
  rcases hmem with rfl | hmem
  · rw [hmark]
    rfl
  have he := hmid e hmem
  cases e with
  | called enabled online now =>
    rw [markOf, he.1, he.2.1] at hsome
    exact absurd hsome (by simp)
  | stopped => exact he.elim
  | observed service synced =>
    rw [markOf, he.1, he.2] at hsome
    exact absurd hsome (by simp)
  | forked _ _ _ => exact he.elim
  | refused _ => exact he.elim
  | killed _ => exact absurd hsome (by simp [markOf])
  | gone _ => exact absurd hsome (by simp [markOf])
  | late _ => rfl
  | ended _ => rfl

/-- **The delay between two attempts**, however they went. -/
lemma delay_of_spaced {newer older : List Event} {a : Event} {now : Int64} {n : ℕ}
    {ntpd : Bool} (hspaced : Always Spaced trace)
    (hwarranted : Always Warranted trace)
    (htrace : trace = newer ++ .forked n ntpd now :: (mid ++ a :: older))
    (ha : attemptAt a = some since) (hmid : ∀ e ∈ mid, Undisturbed since e) :
    since.toInt + 300000 ≤ now.toInt ∨ now = Int64.maxValue ∨
      ntpd = true ∧ ∃ e rest, mid = .ended e :: rest ∧ Lists e ∧ e.now = now := by
  subst htrace
  obtain ⟨m, hm, hmem⟩ := lastMark_of_undisturbed older ha hmid
  have holder : lastCall (a :: older) = some (true, true, since) := by
    have hpast := hwarranted.of_suffix
      (suffix_append (newer ++ .forked n ntpd now :: mid) (a :: older) |>.trans (by simp))
    cases a <;> simp only [attemptAt, some.injEq, reduceCtorEq] at ha
    · rw [← ha]
      exact hpast.1.1
    · rw [← ha]
      exact hpast.1
  rcases hspaced.apply m hm with ⟨c, hc, hle⟩ | ⟨hntpd, e, back, hback, hlists, hnow⟩
  · have hsince : since ≤ c := by
      rcases hmem with rfl | hmem
      · cases m <;> simp_all [attemptAt, endedAt]
      obtain ⟨mid₁, mid₂, rfl⟩ := append_of_mem hmem
      have hsplit : Always Warranted
          ((newer ++ .forked n ntpd now :: mid₁) ++ m :: (mid₂ ++ a :: older)) := by
        simpa using hwarranted
      have hpast : Warranted m (mid₂ ++ a :: older) := hsplit.apply
      have hcall : lastCall (mid₂ ++ a :: older) = some (true, true, c) := by
        cases m <;> simp only [endedAt, some.injEq, reduceCtorEq] at hc
        · rw [← hc]
          exact hpast
        · rw [← hc]
          exact hpast
        · rw [← hc]
          exact hpast
      exact le_lastCall (fun e he => hmid e (by simp [he])) holder hcall
    rcases of_afterMs_le (Int64.le_trans (afterMs_mono hsince) hle) with h | h
    · exact .inl h
    · exact .inr (.inl h)
  · refine .inr (.inr ⟨hntpd, e, ?_⟩)
    rcases mid with _ | ⟨e', rest⟩
    · obtain ⟨rfl, -⟩ : a = .ended e ∧ older = back := by simpa using hback
      exact absurd ha (by simp [attemptAt])
    · obtain ⟨rfl, -⟩ : e' = .ended e ∧ rest ++ a :: older = back := by simpa using hback
      exact ⟨rest, rfl, hlists, hnow⟩

/-- **The time-sync worker.** Whatever the calls of the worker and their surroundings are:

there is at most one child at any moment; a child is started only in a call with both flags set,
where the last observation found neither a time service of the system nor a synchronised kernel,
and `ntpd` only behind a probe that ended cleanly and listed it; a child is killed while it is
there, and no second time; and a start comes `C1_TIME_RETRY_MS` behind the last attempt before it,
unless the clock has come to its end, in between the worker was stopped, paused or found somebody
else keeping the clock, or it is the start of `ntpd` right behind the end of its probe. -/
theorem time_sync (calls : List Call) :
    let trace := (run calls).trace
    (∀ moment, moment <:+ trace → (children moment).length ≤ 1) ∧
    (∀ newer older n ntpd now, trace = newer ++ .forked n ntpd now :: older →
      lastCall older = some (true, true, now) ∧ lastObservation older = some (.none, false) ∧
      (ntpd = true → ∃ e, .ended e ∈ older ∧ Lists e)) ∧
    (∀ newer older n, trace = newer ++ .killed n :: older →
      .killed n ∉ older ∧ n ∈ children older) ∧
    (∀ newer mid older a since n ntpd now,
      trace = newer ++ .forked n ntpd now :: (mid ++ a :: older) →
      attemptAt a = some since → (∀ e ∈ mid, Undisturbed since e) →
      since.toInt + 300000 ≤ now.toInt ∨ now = Int64.maxValue ∨
        ntpd = true ∧ ∃ e rest, mid = .ended e :: rest ∧ Lists e ∧ e.now = now) := by
  intro trace
  have howned := owned_run calls
  have hknown := known_run calls
  have htimed := timed_run calls
  refine ⟨fun moment hmoment => length_children_le (howned.always.of_suffix hmoment),
    fun newer older n ntpd now htrace => ?_, fun newer older n htrace => ?_,
    fun newer mid older a since n ntpd now htrace ha hmid =>
      delay_of_spaced htimed.always hknown.always htrace ha hmid⟩
  · have halways : Always Warranted trace := hknown.always
    rw [htrace] at halways
    exact halways.apply
  · have halways : Always Allowed trace := howned.always
    rw [htrace] at halways
    exact halways.apply

/-- A call in which syncing is enabled and online, and everything can be started. -/
def calm (now : Int64) : Tick where
  enabled := true
  online := true
  now := now
  reads := []
  wait := .alive
  lastReads := []
  service := .none
  synced := false
  cancel := ⟨.alive, true⟩
  executable := true
  piped := true
  forked := true

/-- A probe fails, and the tick that finds it so also finds a time service of the system: when this
is no longer there, the next probe is started six seconds behind the first one. After a stop it is
started a second behind it. -/
theorem time_sync_restart :
    (run [.tick (calm 0), .tick { calm 1000 with wait := .exited 1, service := .system },
        .tick (calm 6000)]).trace =
      [.forked 1 false 6000, .observed .none false, .called true true 6000,
        .observed .system false, .gone 0, .called true true 1000,
        .forked 0 false 0, .observed .none false, .called true true 0] ∧
      (run [.tick (calm 0), .stop ⟨.exited 1, true⟩ fun _ => ⟨.alive, true⟩,
        .tick (calm 1000)]).trace =
      [.forked 1 false 1000, .observed .none false, .called true true 1000, .gone 0, .stopped,
        .forked 0 false 0, .observed .none false, .called true true 0] := by
  constructor <;> rfl

end C1auncher.Services.TimeSyncRetry
