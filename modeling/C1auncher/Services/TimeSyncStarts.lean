import C1auncher.Services.TimeSyncProbe

/-!
What comes before a child is started: the call, the observation and, for `ntpd`, the probe; and how
much time has passed since the last attempt.
-/

namespace C1auncher.Services.TimeSyncStarts

open Traces Services.TimeSync Services.TimeSyncProbe List

/-! ### What a trace says last -/

def callOf : Event → Option (Bool × Bool × Int64)
  | .called enabled online now => some (enabled, online, now)
  | _ => none

def lastCall (trace : List Event) : Option (Bool × Bool × Int64) := trace.findSome? callOf

def observationOf : Event → Option (Service × Bool)
  | .observed service synced => some (service, synced)
  | _ => none

/-- What was found of other services and of the kernel last. -/
def lastObservation (trace : List Event) : Option (Service × Bool) :=
  trace.findSome? observationOf

def OfChild (e : Event) : Prop := ∃ n, e = .killed n ∨ e = .gone n

lemma OfChild.callOf {e : Event} (h : OfChild e) : callOf e = none := by
  obtain ⟨n, rfl | rfl⟩ := h <;> rfl

lemma OfChild.observationOf {e : Event} (h : OfChild e) : observationOf e = none := by
  obtain ⟨n, rfl | rfl⟩ := h <;> rfl

/-! ### What the parts of a call do -/

lemma cancelChild_eq (w : Worker) (cancel : Cancel) :
    ∃ pid sent isOpen events, cancelChild w cancel =
      ⟨{ w.sync with pid := pid, killSent := sent, probeOpen := isOpen }, w.forks,
        events ++ w.trace⟩ ∧ ∀ e ∈ events, OfChild e := by
  have hsame : ∃ pid sent isOpen events, w =
      ⟨{ w.sync with pid := pid, killSent := sent, probeOpen := isOpen }, w.forks,
        events ++ w.trace⟩ ∧ ∀ e ∈ events, OfChild e :=
    ⟨_, _, _, [], rfl, by simp⟩
  have hgone : ∀ n, ∃ pid sent isOpen events, forget w n =
      ⟨{ w.sync with pid := pid, killSent := sent, probeOpen := isOpen }, w.forks,
        events ++ w.trace⟩ ∧ ∀ e ∈ events, OfChild e :=
    fun n => ⟨none, w.sync.killSent, false, [.gone n], rfl, by simp [OfChild]⟩
  unfold cancelChild
  split
  · exact hsame
  rename_i n _
  split
  · split_ifs
    · exact ⟨w.sync.pid, true, w.sync.probeOpen, [.killed n], rfl, by simp [OfChild]⟩
    · exact hsame
  · exact hgone n
  · exact hgone n
  · exact hgone n
  · exact hsame

lemma collect_eq (t : Tick) (w : Worker) :
    ∃ s pid timedOut isOpen events, Reads w.sync s ∧ (Parsed w.sync → Parsed s) ∧
      (collect t w).1 = ⟨{ s with pid := pid, timedOut := timedOut, probeOpen := isOpen }, w.forks,
        events ++ w.trace⟩ ∧ (∀ e ∈ events, OfChild e) ∧
      ((collect t w).2 = none ∧ pid = w.sync.pid ∨ (collect t w).2.isSome ∧ pid = none) := by
  have hfinish : ∀ n status,
      let r := readProbe t.lastReads (readProbe t.reads w.sync)
      ∃ s pid timedOut isOpen events, Reads w.sync s ∧ (Parsed w.sync → Parsed s) ∧
        finish t n { w with sync := readProbe t.reads w.sync } =
          ⟨{ s with pid := pid, timedOut := timedOut, probeOpen := isOpen }, w.forks,
            events ++ w.trace⟩ ∧ (∀ e ∈ events, OfChild e) ∧
        (some status = none ∧ pid = w.sync.pid ∨ (some status : Option (Option UInt8)).isSome ∧
          pid = none) := by
    intro n status r
    exact ⟨r, none, r.timedOut || r.deadline ≤ t.now, false, [.gone n],
      (reads_readProbe _ _).trans (reads_readProbe _ _),
      fun h => (h.readProbe _).readProbe _, rfl, by simp [OfChild], .inr ⟨rfl, rfl⟩⟩
  have hlook : ∃ s pid timedOut isOpen events, Reads w.sync s ∧ (Parsed w.sync → Parsed s) ∧
      (⟨readProbe t.reads w.sync, w.forks, w.trace⟩ : Worker) =
        ⟨{ s with pid := pid, timedOut := timedOut, probeOpen := isOpen }, w.forks,
          events ++ w.trace⟩ ∧ (∀ e ∈ events, OfChild e) ∧
      ((none : Option (Option UInt8)) = none ∧ pid = w.sync.pid ∨
        (none : Option (Option UInt8)).isSome ∧ pid = none) := by
    have hreads := reads_readProbe t.reads w.sync
    have hpid : (readProbe t.reads w.sync).pid = w.sync.pid := by
      obtain ⟨_, _, _, _, _, _, hs⟩ := hreads
      rw [hs]
    exact ⟨_, _, _, _, [], hreads, fun h => h.readProbe _, rfl, by simp, .inl ⟨rfl, hpid⟩⟩
  unfold collect
  split
  · exact ⟨w.sync, _, _, _, [], Reads.refl _, id, rfl, by simp, .inl ⟨rfl, rfl⟩⟩
  rename_i n _
  simp only
  split
  · exact hlook
  · exact hlook
  · exact hfinish n _
  · exact hfinish n _
  · exact hfinish n _

lemma settleFinished_eq (t : Tick) (finished : Option (Option UInt8)) (w : Worker) :
    ∃ next state applet events, settleFinished t finished w =
      ⟨{ w.sync with nextAttempt := next, state := state, appletAvailable := applet }, w.forks,
        events ++ w.trace⟩ ∧ ∀ e ∈ events, ∃ how, e = .ended how := by
  unfold settleFinished
  split
  · exact ⟨_, _, _, [], rfl, by simp⟩
  rename_i status
  split_ifs
  · exact ⟨_, _, _, [], rfl, by simp⟩
  obtain ⟨next, state, applet, hs⟩ := settleSync_eq w.sync status t.now
  refine ⟨next, state, applet, [.ended (endOf w.sync status t.now)], ?_, by simp⟩
  rw [settle, hs]
  rfl

lemma lastCall_cancelChild (w : Worker) (cancel : Cancel) :
    lastCall (cancelChild w cancel).trace = lastCall w.trace := by
  obtain ⟨_, _, _, _, heq, hevents⟩ := cancelChild_eq w cancel
  rw [heq, lastCall, findSome?_append_of_none fun e he => (hevents e he).callOf, lastCall]

lemma lastCall_collect (t : Tick) (w : Worker) :
    lastCall (collect t w).1.trace = lastCall w.trace := by
  obtain ⟨s, _, _, _, _, -, -, heq, hevents, -⟩ := collect_eq t w
  rw [heq, lastCall, findSome?_append_of_none fun e he => (hevents e he).callOf, lastCall]

/-! ### What is known when a child is started -/

/-- A child is started in a call with both flags set, where nobody else was found to keep the clock,
and `ntpd` behind a probe that listed it. What is said of an attempt bears the time of the call. -/
def Warranted : Event → List Event → Prop
  | .forked _ ntpd now, past => lastCall past = some (true, true, now) ∧
      lastObservation past = some (.none, false) ∧
      (ntpd = true → ∃ e, .ended e ∈ past ∧ Lists e)
  | .refused now, past | .late now, past => lastCall past = some (true, true, now)
  | .ended e, past => lastCall past = some (true, true, e.now)
  | _, _ => True

lemma warranted_of_ofChild {e : Event} (h : OfChild e) (past : List Event) : Warranted e past := by
  obtain ⟨n, rfl | rfl⟩ := h <;> trivial

variable {w : Worker}

/-- What the worker keeps of the last observation and of its probes. -/
structure Known (w : Worker) : Prop where
  observation : w.sync.systemService = .unknown ∨
    lastObservation w.trace = some (w.sync.systemService, w.sync.kernelSynced)
  applet : w.sync.appletAvailable = true → ∃ e, .ended e ∈ w.trace ∧ Lists e
  parsed : Parsed w.sync
  always : Always Warranted w.trace

lemma known_start : Known Worker.start where
  observation := .inl rfl
  applet h := absurd h (by simp [Worker.start, init])
  parsed := ⟨[], [], by simp, by simp, rfl, rfl, by simp [Worker.start, init]⟩
  always := trivial

lemma Known.move {s : Sync} (h : Known w) (forks : ℕ) (events : List Event)
    (hservice : s.systemService = w.sync.systemService)
    (hsynced : s.kernelSynced = w.sync.kernelSynced)
    (happlet : s.appletAvailable = w.sync.appletAvailable) (hparsed : Parsed s)
    (hevents : ∀ e ∈ events, OfChild e) : Known ⟨s, forks, events ++ w.trace⟩ where
  observation := by
    rw [lastObservation, findSome?_append_of_none fun e he => (hevents e he).observationOf,
      hservice, hsynced]
    exact h.observation
  applet hs := by
    obtain ⟨e, he, hlists⟩ := h.applet (happlet.symm.trans hs)
    exact ⟨e, mem_append_right _ he, hlists⟩
  parsed := hparsed
  always := h.always.append fun e he past => warranted_of_ofChild (hevents e he) past

lemma Known.set {s : Sync} (h : Known w) (hservice : s.systemService = w.sync.systemService)
    (hsynced : s.kernelSynced = w.sync.kernelSynced)
    (happlet : s.appletAvailable = w.sync.appletAvailable) (hparsed : Parsed s) :
    Known { w with sync := s } :=
  h.move w.forks [] hservice hsynced happlet hparsed (by simp)

lemma Known.log {e : Event} (h : Known w) (he : observationOf e = none)
    (hw : Warranted e w.trace) : Known (w.log e) where
  observation := by
    have hsame : lastObservation (e :: w.trace) = lastObservation w.trace := by
      rw [lastObservation, findSome?_cons, he, lastObservation]
    rw [Worker.log, hsame]
    exact h.observation
  applet hs := by
    obtain ⟨e', he', hlists⟩ := h.applet hs
    exact ⟨e', mem_cons_of_mem _ he', hlists⟩
  parsed := h.parsed
  always := ⟨hw, h.always⟩

lemma Known.cancelChild (h : Known w) (cancel : Cancel) : Known (cancelChild w cancel) := by
  obtain ⟨_, _, _, _, heq, hevents⟩ := cancelChild_eq w cancel
  rw [heq]
  exact h.move _ _ rfl rfl rfl h.parsed hevents

lemma Known.requestStop (h : Known w) (cancel : Cancel) : Known (requestStop w cancel) := by
  have hmarked : Known { w with sync := { w.sync with cancelled := true } } :=
    h.set rfl rfl rfl h.parsed
  have hcancel := hmarked.cancelChild cancel
  exact hcancel.set rfl rfl rfl hcancel.parsed

lemma Known.stop (h : Known w) (first : Cancel) (attempts : ℕ → Cancel) :
    Known (stop w first attempts) := by
  have hloop : ∀ turns w, Known w → Known (stopLoop attempts turns w) := by
    intro turns
    induction turns with
    | zero => exact fun _ h => h
    | succ turns ih =>
      intro w h
      rw [stopLoop]
      split_ifs
      · exact h
      · exact ih _ (h.cancelChild _)
  have hstopped : Known (w.log .stopped) := h.log rfl trivial
  exact hloop 20 _ (hstopped.requestStop first)

lemma Known.collect (h : Known w) (t : Tick) : Known (collect t w).1 := by
  obtain ⟨s, _, _, _, _, hreads, hparsed, heq, hevents, -⟩ := collect_eq t w
  obtain ⟨_, _, _, _, _, _, rfl⟩ := hreads
  rw [heq]
  exact h.move _ _ rfl rfl rfl (hparsed h.parsed) hevents

lemma Known.observe (h : Known w) (t : Tick) : Known (observe t w) where
  observation := .inr rfl
  applet hs := by
    obtain ⟨e, he, hlists⟩ := h.applet hs
    exact ⟨e, mem_cons_of_mem _ he, hlists⟩
  parsed := h.parsed
  always := ⟨trivial, h.always⟩

lemma Known.giveWay (h : Known w) (t : Tick) : Known (giveWay t w) := by
  have hmarked : Known { w with sync := { w.sync with cancelled := true } } :=
    h.set rfl rfl rfl h.parsed
  have hcancel := hmarked.cancelChild t.cancel
  exact hcancel.set rfl rfl rfl hcancel.parsed

lemma Known.settle {now : Int64} (h : Known w) (hcall : lastCall w.trace = some (true, true, now))
    (status : Option UInt8) : Known (settle w status now) := by
  obtain ⟨_, _, _, hs⟩ := settleSync_eq w.sync status now
  refine ⟨?_, fun happlet => ?_, ?_, hcall, h.always⟩
  · have hsame : lastObservation (TimeSync.settle w status now).trace = lastObservation w.trace :=
      rfl
    rw [hsame]
    simp only [TimeSync.settle, Worker.log, hs]
    exact h.observation
  · rcases settleSync_cases h.parsed status now with ⟨-, hbefore⟩ | ⟨-, -, hlists⟩
    · obtain ⟨e, he, hlists⟩ := h.applet (hbefore happlet)
      exact ⟨e, mem_cons_of_mem _ he, hlists⟩
    · exact ⟨_, mem_cons_self, hlists⟩
  · simp only [TimeSync.settle, Worker.log, hs]
    exact h.parsed

lemma Known.settleFinished {t : Tick} (h : Known w)
    (hcall : lastCall w.trace = some (true, true, t.now)) (finished : Option (Option UInt8)) :
    Known (settleFinished t finished w) := by
  unfold TimeSync.settleFinished
  split
  · exact h
  split_ifs
  · exact h
  · exact h.settle hcall _

/-- **An attempt** in a call with both flags set, where nobody else keeps the clock. -/
lemma Known.attempt {t : Tick} (h : Known w) (hcall : lastCall w.trace = some (true, true, t.now))
    (hservice : w.sync.systemService = .none) (hsynced : w.sync.kernelSynced = false) :
    Known (attempt t w) := by
  have hrefuse : ∀ state, Known (refuse w state t.now) := by
    intro state
    have hset : Known { w with sync := { w.sync with
        state := state
        nextAttempt := afterMs t.now retryMs } } := h.set rfl rfl rfl h.parsed
    exact hset.log rfl hcall
  unfold TimeSync.attempt
  split_ifs
  · exact h
  · exact hrefuse _
  · exact hrefuse _
  have hstarted : Known ⟨startChild w.sync w.forks t.now, w.forks + 1, w.trace⟩ :=
    h.move (w.forks + 1) [] rfl rfl rfl
      ⟨[], [], by simp, by simp, rfl, rfl, by simp [startChild]⟩ (by simp)
  have hlast : lastObservation w.trace = some (.none, false) := by
    have hobserved := h.observation
    rw [hservice, hsynced] at hobserved
    exact hobserved.resolve_left (by simp)
  exact hstarted.log rfl ⟨hcall, hlast, h.applet⟩

lemma Known.proceed {t : Tick} (h : Known w) (hcall : lastCall w.trace = some (true, true, t.now))
    (hservice : w.sync.systemService = .none) (hsynced : w.sync.kernelSynced = false)
    (resumed observed : Bool) (finished : Option (Option UInt8)) :
    Known (proceed t resumed observed finished w) := by
  have hready : Known { w with sync := makeReady t resumed observed w.sync } := by
    obtain ⟨_, _, hs, -⟩ := makeReady_eq t resumed observed w.sync
    exact h.set (by rw [hs]) (by rw [hs]) (by rw [hs]) (by rw [hs]; exact h.parsed)
  have hsettled := hready.settleFinished hcall finished
  obtain ⟨_, _, hs, -⟩ := makeReady_eq t resumed observed w.sync
  obtain ⟨_, _, _, events, heq, hevents⟩ :=
    settleFinished_eq t finished { w with sync := makeReady t resumed observed w.sync }
  have hlast : lastCall (TimeSync.settleFinished t finished
      { w with sync := makeReady t resumed observed w.sync }).trace =
      some (true, true, t.now) := by
    rw [heq, lastCall, findSome?_append_of_none]
    · exact hcall
    intro e he
    obtain ⟨_, rfl⟩ := hevents e he
    rfl
  unfold TimeSync.proceed
  simp only
  split_ifs
  · exact hsettled.attempt hlast (by rw [heq, hs]; exact hservice) (by rw [heq, hs]; exact hsynced)
  · have hmarked : ∀ w', Known w' → Known { w' with sync := { w'.sync with timedOut := true } } :=
      fun w' h' => h'.set rfl rfl rfl h'.parsed
    have hcancel := (hmarked _ hsettled).cancelChild t.cancel
    exact Known.log (hcancel.set rfl rfl rfl hcancel.parsed) rfl
      ((lastCall_cancelChild _ t.cancel).trans hlast)
  · exact hsettled

lemma Known.tick (h : Known w) (t : Tick) : Known (tick t w) := by
  have hcall : Known (call t w) := Known.log (h.set rfl rfl rfl h.parsed) rfl trivial
  have hcollect := hcall.collect t
  have hlast : lastCall (TimeSync.collect t (call t w)).1.trace =
      some (t.enabled, t.online, t.now) := lastCall_collect t (call t w)
  unfold TimeSync.tick
  split_ifs with hnow hpaused
  · exact h
  · exact hcollect.requestStop t.cancel
  obtain ⟨henabled, honline⟩ : t.enabled = true ∧ t.online = true := by
    simpa only [Bool.or_eq_true, Bool.not_eq_true', not_or, Bool.not_eq_false] using hpaused
  rw [henabled, honline] at hlast
  -- What the tick goes on with, whether it has observed anew or not.
  have hrest : ∀ resumed observed finished w', Known w' →
      lastCall w'.trace = some (true, true, t.now) →
      Known (if w'.sync.systemService ≠ .none ∨ w'.sync.kernelSynced then TimeSync.giveWay t w'
        else TimeSync.proceed t resumed observed finished w') := by
    intro resumed observed finished w' h' hlast'
    split_ifs with hother
    · exact h'.giveWay t
    · simp only [ne_eq, not_or, not_not, Bool.not_eq_true] at hother
      exact h'.proceed hlast' hother.1 hother.2 resumed observed finished
  refine hrest _ _ _ _ ?_ ?_
  · split_ifs
    · exact hcollect.observe t
    · exact hcollect
  split_ifs
  · exact hlast
  · exact hlast

lemma known_run (calls : List Call) : Known (run calls) :=
  run_inv known_start (fun _ t h => h.tick t)
    (fun _ first attempts h => h.stop first attempts) calls

end C1auncher.Services.TimeSyncStarts
