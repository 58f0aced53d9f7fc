import C1auncher.Power.UsbPower

/-!
What was enabled and bound before a suspend is there again when a restore has ended.
-/

namespace C1auncher.Power.UsbRestore

open C1auncher.CString (Text)
open Traces Power.UsbPower

variable (answers : ℕ → Answer) {s t u : State} {n m : ℕ}

/-! ### Reading a trace -/

def captureOf : Event → Option (Bool × Bool × Text)
  | .captured adb mtp udc => some (adb, mtp, udc)
  | _ => none

def lastCapture (past : List Event) : Option (Bool × Bool × Text) := past.findSome? captureOf

def sinceCapture (past : List Event) : List Event := past.takeWhile fun e => (captureOf e).isNone

def readOf : Event → Option (Bool × Text)
  | .readUdc ok value => some (ok, value)
  | _ => none

/-- What the last look at the binding returned. -/
def lastRead (past : List Event) : Option (Bool × Text) := past.findSome? readOf

/-- What may be done after a trace. Only the captured text is written, and only where nothing is
bound. A function is started only if it was enabled, and not again once its script succeeded. -/
def Legal : Event → List Event → Prop
  | .writeUdc value _, past =>
    value ≠ [] ∧ (∃ adb mtp, lastCapture past = some (adb, mtp, value)) ∧
      lastRead past = some (true, [])
  | .run .adbScript .stop _, past => ∃ mtp udc, lastCapture past = some (true, mtp, udc)
  | .run .adbScript .start _, past =>
    (∃ mtp udc, lastCapture past = some (true, mtp, udc)) ∧
      .run .adbScript .start true ∉ sinceCapture past
  | .run .mtpScript .suspendoff _, past =>
    (∃ adb udc, lastCapture past = some (adb, true, udc)) ∧
      .run .mtpScript .suspendoff true ∉ sinceCapture past
  | .run _ _ _, _ => False
  | _, _ => True

/-- The enabled functions are ready, and the others are not there. -/
def readyEvents (context : Context) : List Event :=
  (if context.adbEnabled then adbPaths.map (.exists_ · 1) else [.exists_ .adbLink 0]) ++
    if context.mtpEnabled then mtpPaths.map (.exists_ · 1) else [.exists_ .mtpLink 0]

/-- What a resume observed, the oldest event in front: the functions, then the binding, and the
functions once more. -/
def Observed (context : Context) (events : List Event) : Prop :=
  ∃ before between, events = before ++ readyEvents context ++ between ++
    [.readUdc true context.udc] ++ readyEvents context

/-- The same capture, still pending. -/
structure Kept (context next : Context) : Prop where
  captured : next.captured = context.captured
  adbEnabled : next.adbEnabled = context.adbEnabled
  mtpEnabled : next.mtpEnabled = context.mtpEnabled
  restorePending : next.restorePending = context.restorePending
  udc : next.udc = context.udc

lemma Kept.refl (context : Context) : Kept context context := ⟨rfl, rfl, rfl, rfl, rfl⟩

lemma Kept.trans {c d e : Context} (h : Kept c d) (h' : Kept d e) : Kept c e :=
  ⟨h'.captured.trans h.captured, h'.adbEnabled.trans h.adbEnabled,
    h'.mtpEnabled.trans h.mtpEnabled, h'.restorePending.trans h.restorePending,
    h'.udc.trans h.udc⟩

lemma Kept.ready {c d : Context} (h : Kept c d) : readyEvents d = readyEvents c := by
  rw [readyEvents, readyEvents, h.adbEnabled, h.mtpEnabled]

/-! ### Operations that only look -/

def looks : Event → Bool
  | .exists_ _ _ | .readUdc _ _ | .pauseMs _ | .heartbeat => true
  | _ => false

/-- At most so many operations that only look. -/
def Looked (n : ℕ) (s t : State) : Prop :=
  ∃ new, t = s.log new ∧ new.length ≤ n ∧ ∀ e ∈ new, looks e = true

lemma Looked.refl (s : State) : Looked 0 s s := ⟨[], rfl, le_rfl, by simp⟩

lemma Looked.mono (h : Looked n s t) (hle : n ≤ m) : Looked m s t := by
  obtain ⟨new, rfl, hlength, hlooks⟩ := h
  exact ⟨new, rfl, hlength.trans hle, hlooks⟩

lemma Looked.trans (h : Looked n s t) (h' : Looked m t u) : Looked (n + m) s u := by
  obtain ⟨new, rfl, hlength, hlooks⟩ := h
  obtain ⟨more, rfl, hlength', hlooks'⟩ := h'
  refine ⟨more ++ new, State.log_log _ _ _, by rw [List.length_append]; omega, fun e he => ?_⟩
  exact (List.mem_append.mp he).elim (hlooks' e) (hlooks e)

lemma looked_log {e : Event} (h : looks e = true) : Looked 1 s (s.log [e]) :=
  ⟨[e], rfl, le_rfl, by simpa using h⟩

lemma Looked.context (h : Looked n s t) : t.context = s.context := by
  obtain ⟨new, rfl, -⟩ := h
  rfl

lemma bind_run {σ α β : Type} (p : StateM σ α) (f : α → StateM σ β) (s : σ) :
    (p >>= f) s = f (p s).1 (p s).2 := rfl

lemma get_run (s : State) : (get : Op State) s = (s, s) := rfl

lemma readUdc_run (s : State) : readUdc answers s =
    (((answers s.trace.length).ok, (answers s.trace.length).value),
      s.log [.readUdc (answers s.trace.length).ok (answers s.trace.length).value]) := rfl

lemma allExist_spec (paths : List Path) (s : State) :
    Looked paths.length s (allExist answers paths s).2 ∧
      ((allExist answers paths s).1 = true → (allExist answers paths s).2 =
        s.log (paths.map (.exists_ · 1)).reverse) := by
  induction paths generalizing s with
  | nil => exact ⟨Looked.refl s, fun _ => rfl⟩
  | cons path paths ih =>
    have hfirst : Looked 1 s (exists_ answers path s).2 := looked_log rfl
    rw [allExist, bind_run, List.length_cons, Nat.add_comm]
    split_ifs with hfound
    · exact ⟨hfirst.mono (by omega), fun h => absurd h (by simp [pure, StateT.pure])⟩
    obtain ⟨hlooked, hseen⟩ := ih (exists_ answers path s).2
    refine ⟨hfirst.trans hlooked, fun h => ?_⟩
    rw [hseen h]
    have hone : (exists_ answers path s).2 = s.log [.exists_ path 1] := by
      rw [← not_not.mp hfound]
      rfl
    rw [hone, State.log_log, List.map_cons, List.reverse_cons]

lemma functionReady_spec (enabled : Bool) (link : Path) (paths : List Path) (hpaths : paths ≠ [])
    (s : State) : Looked paths.length s (functionReady answers enabled link paths s).2 ∧
      ((functionReady answers enabled link paths s).1 = true →
        (functionReady answers enabled link paths s).2 =
          s.log (if enabled then paths.map (.exists_ · 1) else [.exists_ link 0]).reverse) := by
  rw [functionReady]
  split_ifs with henabled
  · exact allExist_spec answers paths s
  have hfirst : Looked 1 s (exists_ answers link s).2 := looked_log rfl
  refine ⟨hfirst.mono (List.length_pos_iff.mpr hpaths), fun h => ?_⟩
  have hzero : (exists_ answers link s).1 = 0 := of_decide_eq_true h
  calc (exists_ answers link s).2 = s.log [.exists_ link (exists_ answers link s).1] := rfl
    _ = s.log [.exists_ link 0].reverse := by rw [hzero, List.reverse_singleton]

lemma functionsReady_spec (s : State) : Looked 7 s (functionsReady answers s).2 ∧
    ((functionsReady answers s).1 = true →
      (functionsReady answers s).2 = s.log (readyEvents s.context).reverse) := by
  obtain ⟨hadb, hadbSeen⟩ := functionReady_spec answers s.context.adbEnabled .adbLink
    adbPaths (by decide) s
  generalize hfirst : functionReady answers s.context.adbEnabled .adbLink adbPaths s = first
    at hadb hadbSeen
  obtain ⟨hmtp, hmtpSeen⟩ := functionReady_spec answers s.context.mtpEnabled .mtpLink
    mtpPaths (by decide) first.2
  have hrun : functionsReady answers s =
      (first.1 && (functionReady answers s.context.mtpEnabled .mtpLink mtpPaths first.2).1,
        (functionReady answers s.context.mtpEnabled .mtpLink mtpPaths first.2).2) := by
    rw [← hfirst]
    rfl
  rw [hrun]
  refine ⟨hadb.trans hmtp, fun h => ?_⟩
  obtain ⟨hadbReady, hmtpReady⟩ := (Bool.and_eq_true _ _).mp h
  rw [hmtpSeen hmtpReady, hadbSeen hadbReady, State.log_log, readyEvents, List.reverse_append]

lemma waitReady_spec (left : ℕ) (s : State) :
    Looked (9 * (left + 1)) s (waitReady answers left s).2 ∧
    ((waitReady answers left s).1 = true → ∃ t, Looked (9 * (left + 1)) s t ∧
      (waitReady answers left s).2 = t.log (readyEvents t.context).reverse) := by
  induction left generalizing s with
  | zero =>
    have hbeat : Looked 1 s (s.log [.heartbeat]) := looked_log rfl
    obtain ⟨hlooked, hseen⟩ := functionsReady_spec answers (s.log [.heartbeat])
    exact ⟨(hbeat.trans hlooked).mono (by omega),
      fun h => ⟨_, hbeat.mono (by omega), hseen h⟩⟩
  | succ left ih =>
    have hbeat : Looked 1 s (s.log [.heartbeat]) := looked_log rfl
    obtain ⟨hlooked, hseen⟩ := functionsReady_spec answers (s.log [.heartbeat])
    have hrun : waitReady answers (left + 1) s =
        if (functionsReady answers (s.log [.heartbeat])).1 then
          (true, (functionsReady answers (s.log [.heartbeat])).2)
        else waitReady answers left
          ((functionsReady answers (s.log [.heartbeat])).2.log [.pauseMs 50]) := by
      simp only [waitReady, bind_run, heartbeat]
      split_ifs <;> rfl
    rw [hrun]
    split_ifs with hready
    · exact ⟨(hbeat.trans hlooked).mono (by omega),
        fun _ => ⟨_, hbeat.mono (by omega), hseen hready⟩⟩
    have hpause : Looked 9 s ((functionsReady answers (s.log [.heartbeat])).2.log
        [.pauseMs 50]) := (hbeat.trans hlooked).trans (looked_log rfl)
    obtain ⟨hrest, hlast⟩ :=
      ih ((functionsReady answers (s.log [.heartbeat])).2.log [.pauseMs 50])
    refine ⟨(hpause.trans hrest).mono (by omega), fun h => ?_⟩
    obtain ⟨t, ht, hreadyT⟩ := hlast h
    exact ⟨t, (hpause.trans ht).mono (by omega), hreadyT⟩

/-! ### What the runs keep -/

/-- The trace is legal, and the context knows what was captured and what has been started. -/
structure Good (s : State) : Prop where
  legal : Always Legal s.trace
  captured : s.context.restorePending = true → s.context.captured = true ∧
    lastCapture s.trace = some (s.context.adbEnabled, s.context.mtpEnabled, s.context.udc)
  adb : s.context.restorePending = true → .run .adbScript .start true ∈ sinceCapture s.trace →
    s.context.adbStarted = true
  mtp : s.context.restorePending = true →
    .run .mtpScript .suspendoff true ∈ sinceCapture s.trace → s.context.mtpStarted = true

lemma looks_legal {e : Event} (h : looks e = true) (past : List Event) : Legal e past := by
  cases e <;> trivial

lemma looks_captureOf {e : Event} (h : looks e = true) : captureOf e = none := by
  cases e <;> first | rfl | cases h

lemma sinceCapture_append {new past : List Event} (h : ∀ e ∈ new, captureOf e = none) :
    sinceCapture (new ++ past) = new ++ sinceCapture past :=
  List.takeWhile_append_of_pos fun e he => by rw [h e he]; rfl

lemma lastCapture_append {new past : List Event} (h : ∀ e ∈ new, captureOf e = none) :
    lastCapture (new ++ past) = lastCapture past := findSome?_append_of_none h

lemma Good.step (h : Good s) (new : List Event) (htrace : t.trace = new ++ s.trace)
    (hkept : Kept s.context t.context) (hlegal : Always Legal (new ++ s.trace))
    (hnew : ∀ e ∈ new, captureOf e = none)
    (hadb : s.context.restorePending = true → (.run .adbScript .start true ∈ new ∨
      s.context.adbStarted = true) → t.context.adbStarted = true)
    (hmtp : s.context.restorePending = true → (.run .mtpScript .suspendoff true ∈ new ∨
      s.context.mtpStarted = true) → t.context.mtpStarted = true) : Good t where
  legal := by rwa [htrace]
  captured hpending := by
    rw [hkept.restorePending] at hpending
    rw [htrace, lastCapture_append hnew, hkept.captured, hkept.adbEnabled, hkept.mtpEnabled,
      hkept.udc]
    exact h.captured hpending
  adb hpending hmem := by
    rw [hkept.restorePending] at hpending
    rw [htrace, sinceCapture_append hnew] at hmem
    exact hadb hpending ((List.mem_append.mp hmem).imp_right (h.adb hpending))
  mtp hpending hmem := by
    rw [hkept.restorePending] at hpending
    rw [htrace, sinceCapture_append hnew] at hmem
    exact hmtp hpending ((List.mem_append.mp hmem).imp_right (h.mtp hpending))

lemma Good.looked (h : Good s) (hlooked : Looked n s t) : Good t := by
  obtain ⟨new, rfl, -, hlooks⟩ := hlooked
  have hrun : ∀ script action, .run script action true ∉ new := fun script action hmem => by
    cases hlooks _ hmem
  exact h.step _ rfl (Kept.refl _) (h.legal.append fun e he past => looks_legal (hlooks e he) past)
    (fun e he => looks_captureOf (hlooks e he))
    (fun _ hor => hor.resolve_left (hrun _ _)) (fun _ hor => hor.resolve_left (hrun _ _))

/-- A part of a resume, of at most so many operations. -/
structure Phase (n : ℕ) (s t : State) : Prop where
  good : Good t
  kept : Kept s.context t.context
  trace : ∃ new, t.trace = new ++ s.trace ∧ new.length ≤ n

lemma Good.phase (h : Good s) : Phase 0 s s := ⟨h, Kept.refl _, [], rfl, le_rfl⟩

lemma Phase.mono (h : Phase n s t) (hle : n ≤ m) : Phase m s t := by
  obtain ⟨new, htrace, hlength⟩ := h.trace
  exact ⟨h.good, h.kept, new, htrace, hlength.trans hle⟩

lemma Phase.trans (h : Phase n s t) (h' : Phase m t u) : Phase (n + m) s u := by
  obtain ⟨new, htrace, hlength⟩ := h.trace
  obtain ⟨more, htrace', hlength'⟩ := h'.trace
  refine ⟨h'.good, h.kept.trans h'.kept, more ++ new, ?_, ?_⟩
  · rw [htrace', htrace, List.append_assoc]
  · rw [List.length_append]
    omega

lemma Looked.phase (h : Looked n s t) (hs : Good s) : Phase n s t := by
  have hgood := hs.looked h
  obtain ⟨new, rfl, hlength, -⟩ := h
  exact ⟨hgood, Kept.refl _, new, rfl, hlength⟩

lemma Good.note (h : Good s) (f : Context → Context) (hkept : Kept s.context (f s.context))
    (hadb : s.context.adbStarted = true → (f s.context).adbStarted = true)
    (hmtp : s.context.mtpStarted = true → (f s.context).mtpStarted = true) :
    Phase 0 s { s with context := f s.context } :=
  ⟨h.step [] rfl hkept h.legal (by simp) (fun _ hor => hadb (hor.resolve_left (by simp)))
    (fun _ hor => hmtp (hor.resolve_left (by simp))), hkept, [], rfl, le_rfl⟩

lemma alreadyUp_spec (attempted : Bool) (s : State) :
    Looked 3 s (alreadyUp answers attempted s).2 := by
  rw [alreadyUp]
  split_ifs
  · exact (allExist_spec answers adbPaths s).1
  · exact (Looked.refl s).mono (by omega)

lemma startAdb_phase (h : Good s) (hpending : s.context.restorePending = true) :
    Phase 4 s (startAdb answers s).2 := by
  rw [startAdb, bind_run, get_run]
  split_ifs with hneeded
  · have hup := alreadyUp_spec answers s.context.adbStartAttempted s
    obtain ⟨henabled, hstarted⟩ := (Bool.and_eq_true _ _).mp hneeded
    rw [bind_run]
    generalize alreadyUp answers s.context.adbStartAttempted s = up at hup
    have hcontext := hup.context
    have hgood := hup.phase h
    split_ifs
    · exact (hgood.trans (hgood.good.note (fun context => { context with adbStarted := true })
        ⟨rfl, rfl, rfl, rfl, rfl⟩ (fun _ => rfl) id)).mono (by omega)
    have hnot : ¬up.2.context.adbStarted = true := by
      rw [hcontext]
      simpa using hstarted
    obtain ⟨-, hcapture⟩ := hgood.good.captured (by rwa [hcontext])
    have hadb : up.2.context.adbEnabled = true := by rwa [hcontext]
    have hlegal : ∀ ok, Legal (.run .adbScript .start ok) up.2.trace := fun ok =>
      ⟨⟨_, _, hadb ▸ hcapture⟩,
        fun hmem => hnot (hgood.good.adb (by rwa [hcontext]) hmem)⟩
    refine hgood.trans (m := 1) (n := 3) ⟨?_, ⟨rfl, rfl, rfl, rfl, rfl⟩, [_], rfl, le_rfl⟩
    exact hgood.good.step [_] rfl ⟨rfl, rfl, rfl, rfl, rfl⟩
      ⟨hlegal _, hgood.good.legal⟩ (by simp [captureOf])
      (fun _ hor => hor.elim (fun hmem => (Event.run.inj (List.mem_singleton.mp hmem)).2.2.symm)
        fun hwas => absurd hwas hnot)
      (fun _ hor => hor.resolve_left (by simp))
  · exact h.phase.mono (by omega)

lemma startMtp_phase (h : Good s) (hpending : s.context.restorePending = true) :
    Phase 1 s (startMtp answers s).2 := by
  rw [startMtp, bind_run, get_run]
  split_ifs with hneeded
  · obtain ⟨henabled, hstarted⟩ := (Bool.and_eq_true _ _).mp hneeded
    have hnot : ¬s.context.mtpStarted = true := by simpa using hstarted
    obtain ⟨-, hcapture⟩ := h.captured hpending
    have hmtp : s.context.mtpEnabled = true := henabled
    have hlegal : ∀ ok, Legal (.run .mtpScript .suspendoff ok) s.trace := fun ok =>
      ⟨⟨_, _, hmtp ▸ hcapture⟩, fun hmem => hnot (h.mtp hpending hmem)⟩
    refine ⟨?_, ⟨rfl, rfl, rfl, rfl, rfl⟩, [_], rfl, le_rfl⟩
    exact h.step [_] rfl ⟨rfl, rfl, rfl, rfl, rfl⟩ ⟨hlegal _, h.legal⟩
      (by simp [captureOf]) (fun _ hor => hor.resolve_left (by simp))
      (fun _ hor => hor.elim (fun hmem => (Event.run.inj (List.mem_singleton.mp hmem)).2.2.symm)
        fun hwas => absurd hwas hnot)
  · exact h.phase.mono (by omega)

lemma restoreBinding_phase (h : Good s) (hpending : s.context.restorePending = true) :
    Phase 4 s (restoreBinding answers s).2 := by
  rw [restoreBinding, bind_run, get_run, bind_run, readUdc_run]
  generalize (answers s.trace.length).ok = ok
  generalize (answers s.trace.length).value = current
  have hgood : Phase 1 s (s.log [.readUdc ok current]) := (looked_log rfl).phase h
  dsimp only
  split_ifs with hok hother hlost
  · exact hgood.mono (by omega)
  · exact hgood.mono (by omega)
  · -- the binding was lost
    obtain ⟨rfl, hudc⟩ := hlost
    have hone : ok = true := by simpa using hok
    subst hone
    have hlegal : ∀ ok, Legal (.writeUdc s.context.udc ok) (.readUdc true [] :: s.trace) :=
      fun ok => ⟨hudc, ⟨_, _, (hgood.good.captured hpending).2⟩, rfl⟩
    have hwrite : Phase 1 (s.log [.readUdc true []])
        (writeUdc answers s.context.udc (s.log [.readUdc true []])).2 :=
      ⟨hgood.good.step [_] rfl (Kept.refl _) ⟨hlegal _, hgood.good.legal⟩
        (by simp [captureOf]) (fun _ hor => hor.resolve_left (by simp))
        (fun _ hor => hor.resolve_left (by simp)), Kept.refl _, [_], rfl, le_rfl⟩
    have hboth := hgood.trans hwrite
    rw [bind_run]
    split_ifs
    · have hrest : ∀ u : State, Looked 2 u ((u.log [.pauseMs 100]).log [.heartbeat]) := fun u =>
        Looked.trans (n := 1) (m := 1) (looked_log rfl) (looked_log rfl)
      exact hboth.trans ((hrest _).phase hboth.good)
    · exact hboth.mono (by omega)
  · exact hgood.mono (by omega)

lemma Good.ended (h : Good s) : Good { s with context := { s.context with
    restorePending := false } } :=
  ⟨h.legal, by simp, by simp, by simp⟩

lemma confirm_spec (h : Good s) :
    ((confirm answers s).1 = false → Phase 8 s (confirm answers s).2) ∧
    ((confirm answers s).1 = true → Good (confirm answers s).2 ∧
      (confirm answers s).2 = State.log { s with context := { s.context with
        restorePending := false } }
        ((readyEvents s.context).reverse ++ [.readUdc true s.context.udc])) := by
  rw [confirm, bind_run, get_run, bind_run, readUdc_run]
  generalize (answers s.trace.length).ok = ok
  generalize (answers s.trace.length).value = current
  have hread : Looked 1 s (s.log [.readUdc ok current]) := looked_log rfl
  obtain ⟨hlooked, hseen⟩ := functionsReady_spec answers (s.log [.readUdc ok current])
  have hall := (hread.trans hlooked).phase h
  dsimp only
  split_ifs with hother
  · exact ⟨fun _ => (hread.phase h).mono (by omega), fun htrue => Bool.noConfusion htrue⟩
  simp only [Bool.or_eq_true, Bool.not_eq_true', decide_eq_true_eq, not_or, Bool.not_eq_false,
    not_not] at hother
  obtain ⟨rfl, rfl⟩ := hother
  rw [bind_run]
  split_ifs with hready
  · refine ⟨fun hfalse => Bool.noConfusion hfalse, fun _ => ⟨hall.good.ended, ?_⟩⟩
    have hend := hseen hready
    rw [State.log_log] at hend
    exact congrArg (fun u : State => { u with context := { u.context with
      restorePending := false } }) hend
  · exact ⟨fun _ => hall, fun htrue => Bool.noConfusion htrue⟩

lemma awaitAndBind_spec (h : Good s) (hpending : s.context.restorePending = true) :
    ((awaitAndBind answers s).1 = false → Phase 1000 s (awaitAndBind answers s).2) ∧
    ((awaitAndBind answers s).1 = true → Good (awaitAndBind answers s).2 ∧
      (awaitAndBind answers s).2.context.restorePending = false ∧
      ∃ new, (awaitAndBind answers s).2.trace = new.reverse ++ s.trace ∧ new.length ≤ 1000 ∧
        Observed s.context new) := by
  obtain ⟨hwait, hwaited⟩ := waitReady_spec answers readyPolls s
  have hbefore := hwait.phase h
  have hkept : (waitReady answers readyPolls s).2.context.restorePending = true := by
    rwa [hwait.context]
  have hbind := restoreBinding_phase answers hbefore.good hkept
  have hboth := hbefore.trans hbind
  obtain ⟨hnot, hdone⟩ := confirm_spec answers hbind.good
  have hlimit : 9 * (readyPolls + 1) = 909 := rfl
  rw [awaitAndBind, bind_run]
  split_ifs with hready
  · rw [bind_run]
    split_ifs with hbound
    · refine ⟨fun hfalse => (hboth.trans (hnot hfalse)).mono (by omega), fun htrue => ?_⟩
      obtain ⟨hgood, hend⟩ := hdone htrue
      refine ⟨hgood, by rw [hend]; rfl, ?_⟩
      obtain ⟨t, ⟨before, rfl, hlength, -⟩, hseen⟩ := hwaited hready
      obtain ⟨between, hbetween, hlength'⟩ := hbind.trace
      refine ⟨before.reverse ++ readyEvents s.context ++ between.reverse ++
        [.readUdc true s.context.udc] ++ readyEvents s.context, ?_, ?_,
        before.reverse, between.reverse, rfl⟩
      · have hcontext := hboth.kept
        rw [hend, State.log_trace, hcontext.ready, hcontext.udc, hbetween, hseen, State.log_trace,
          State.log_trace, State.log_context]
        simp
      have hready : (readyEvents s.context).length ≤ 7 := by
        rw [readyEvents]
        split_ifs <;> simp [adbPaths, mtpPaths]
      simp only [List.length_append, List.length_reverse, List.length_singleton]
      omega
    · exact ⟨fun _ => hboth.mono (by omega), fun htrue => Bool.noConfusion htrue⟩
  · exact ⟨fun _ => hbefore.mono (by omega), fun htrue => Bool.noConfusion htrue⟩

/-! ### The calls -/

lemma resume_idle (hidle : s.context.restorePending = false) :
    c1UsbPowerResume answers s = (true, s) := by
  rw [c1UsbPowerResume, bind_run, get_run]
  exact congrFun (if_pos (by simp [hidle])) s

lemma resume_pending (h : Good s) (hpending : s.context.restorePending = true) :
    ((c1UsbPowerResume answers s).1 = false → Phase 1006 s (c1UsbPowerResume answers s).2) ∧
    ((c1UsbPowerResume answers s).1 = true → Good (c1UsbPowerResume answers s).2 ∧
      (c1UsbPowerResume answers s).2.context.restorePending = false ∧
      ∃ new, (c1UsbPowerResume answers s).2.trace = new.reverse ++ s.trace ∧ new.length ≤ 1006 ∧
        Observed s.context new) := by
  have hcaptured := (h.captured hpending).1
  have hbeat : Phase 1 s (s.log [.heartbeat]) := (looked_log rfl).phase h
  have hadb := startAdb_phase answers hbeat.good hpending
  have hadbPending := hadb.kept.restorePending.trans hpending
  have hmtp := startMtp_phase answers hadb.good hadbPending
  have hmtpPending := hmtp.kept.restorePending.trans hadbPending
  have hscripts := (hbeat.trans hadb).trans hmtp
  obtain ⟨hnot, hdone⟩ := awaitAndBind_spec answers hmtp.good hmtpPending
  have hrun : c1UsbPowerResume answers s =
      if (startAdb answers (s.log [.heartbeat])).1 &&
          (startMtp answers (startAdb answers (s.log [.heartbeat])).2).1 then
        awaitAndBind answers (startMtp answers (startAdb answers (s.log [.heartbeat])).2).2
      else (false, (startMtp answers (startAdb answers (s.log [.heartbeat])).2).2) := by
    rw [c1UsbPowerResume, bind_run, get_run, if_neg (by simp [hpending, hcaptured])]
    simp only [bind_run, heartbeat]
    split_ifs <;> rfl
  rw [hrun]
  split_ifs with hok
  · refine ⟨fun hfalse => (hscripts.trans (hnot hfalse)).mono (by omega), fun htrue => ?_⟩
    obtain ⟨hgood, hended, new, hnew, hlength, before, between, hobserved⟩ := hdone htrue
    obtain ⟨early, hearly, hlength'⟩ := hscripts.trace
    refine ⟨hgood, hended, early.reverse ++ new, ?_, ?_, early.reverse ++ before, between, ?_⟩
    · rw [List.reverse_append, List.reverse_reverse, List.append_assoc, ← hearly]
      exact hnew
    · rw [List.length_append, List.length_reverse]
      omega
    · rw [hobserved, hscripts.kept.ready, hscripts.kept.udc]
      simp only [List.append_assoc]
  · exact ⟨fun _ => hscripts.mono (by omega), fun htrue => by cases htrue⟩

lemma prepare_pending (hpending : s.context.restorePending = true) :
    c1UsbPowerPrepare answers s = (false, s) := by
  rw [c1UsbPowerPrepare, bind_run, get_run]
  exact congrFun (if_pos hpending) s

def capturedContext (adb mtp : Bool) (udc : Text) : Context :=
  ⟨true, adb, mtp, adb || mtp, false, false, false, udc⟩

def captureEvents (adb mtp udc : ℤ) (value : Text) : List Event :=
  [.exists_ .adbLink adb, .exists_ .mtpLink mtp, .exists_ .udc udc, .readUdc true value,
    .captured (adb ≠ 0) (mtp ≠ 0) value, .heartbeat]

/-- What a call to prepare does to a context without a pending restore: either it captures nothing,
or it captures what the operations returned. -/
def Prepared (s t : State) : Prop :=
  ∃ new, t.trace = new.reverse ++ s.trace ∧
    ((∀ e ∈ new, captureOf e = none) ∧ t.context.restorePending = false ∨
      ∃ adb mtp udc value stopped, new = captureEvents adb mtp udc value ++ stopped ∧
        t.context = capturedContext (adb ≠ 0) (mtp ≠ 0) value)

structure PrepareEnd (s t : State) : Prop where
  good : Good t
  trace : ∃ new, t.trace = new ++ s.trace ∧ new.length ≤ 1006
  prepared : Prepared s t

lemma captured_prepared (h : Good s) (adb mtp udc : ℤ) (value : Text) (stopped : List Event)
    (hstopped : ∀ e ∈ stopped, adb ≠ 0 ∧ ∃ ok, e = .run .adbScript .stop ok)
    (hlength : stopped.length ≤ 1) :
    PrepareEnd s ⟨capturedContext (adb ≠ 0) (mtp ≠ 0) value,
      (captureEvents adb mtp udc value ++ stopped).reverse ++ s.trace⟩ := by
  have hnew : ∀ e ∈ stopped.reverse, captureOf e = none := fun e he => by
    obtain ⟨-, ok, rfl⟩ := hstopped e (List.mem_reverse.mp he)
    rfl
  have htrace : (captureEvents adb mtp udc value ++ stopped).reverse ++ s.trace =
      stopped.reverse ++ (captureEvents adb mtp udc value).reverse ++ s.trace := by
    rw [List.reverse_append]
  have hlast : lastCapture ((captureEvents adb mtp udc value).reverse ++ s.trace) =
      some (decide (adb ≠ 0), decide (mtp ≠ 0), value) := rfl
  have hsince : sinceCapture (stopped.reverse ++
      ((captureEvents adb mtp udc value).reverse ++ s.trace)) =
        stopped.reverse ++ [.heartbeat] := by
    rw [sinceCapture_append hnew]
    rfl
  have hstart : ∀ script action, action ≠ .stop → .run script action true ∉
      sinceCapture (stopped.reverse ++
        ((captureEvents adb mtp udc value).reverse ++ s.trace)) := by
    intro script action hne hmem
    rw [hsince, List.mem_append, List.mem_reverse] at hmem
    rcases hmem with hmem | hmem
    · obtain ⟨-, ok, heq⟩ := hstopped _ hmem
      exact hne (Event.run.inj heq).2.1
    · cases List.mem_singleton.mp hmem
  refine ⟨⟨?_, fun _ => ⟨rfl, ?_⟩, fun _ hmem => ?_, fun _ hmem => ?_⟩, ⟨_, rfl, ?_⟩,
    _, rfl, .inr ⟨adb, mtp, udc, value, stopped, rfl, rfl⟩⟩
  · rw [htrace, List.append_assoc]
    have hcapture : Always Legal ((captureEvents adb mtp udc value).reverse ++ s.trace) :=
      h.legal.append fun e he past => by
        simp only [captureEvents, List.mem_reverse, List.mem_cons, List.not_mem_nil, or_false] at he
        rcases he with rfl | rfl | rfl | rfl | rfl | rfl <;> trivial
    match stopped, hstopped, hlength with
    | [], _, _ => exact hcapture
    | [e], hstopped, _ =>
      obtain ⟨hadb, ok, rfl⟩ := hstopped e List.mem_cons_self
      exact ⟨⟨_, _, hlast.trans (by rw [decide_eq_true hadb])⟩, hcapture⟩
  · rw [htrace, List.append_assoc, lastCapture_append hnew]
    exact hlast
  · rw [htrace, List.append_assoc] at hmem
    exact absurd hmem (hstart _ _ (by decide))
  · rw [htrace, List.append_assoc] at hmem
    exact absurd hmem (hstart _ _ (by decide))
  · simp only [captureEvents, List.length_reverse, List.length_append, List.length_cons,
      List.length_nil]
    omega

lemma idle_prepared (h : Good s) (context : Context) (hidle : context.restorePending = false)
    (hlooked : Looked n { s with context := context } t) (hle : n ≤ 1006) : PrepareEnd s t := by
  have hgood : Good { s with context := context } :=
    ⟨h.legal, by simp [hidle], by simp [hidle], by simp [hidle]⟩
  obtain ⟨new, rfl, hlength, hlooks⟩ := id hlooked
  refine ⟨hgood.looked hlooked, ⟨new, rfl, hlength.trans hle⟩, new.reverse, ?_, .inl ⟨?_, hidle⟩⟩
  · rw [List.reverse_reverse]
    rfl
  · exact fun e he => looks_captureOf (hlooks e (List.mem_reverse.mp he))

lemma captureAndStop_prepared (h : Good s) (adb mtp udc : ℤ) :
    PrepareEnd s (captureAndStop answers adb mtp (State.log { s with context := .zero }
      [.exists_ .udc udc, .exists_ .mtpLink mtp, .exists_ .adbLink adb])).2 := by
  rw [captureAndStop, bind_run, readUdc_run]
  generalize (answers (State.log _ _).trace.length).ok = ok
  generalize (answers (State.log _ _).trace.length).value = value
  simp only [bind_run, change]
  cases ok with
  | false =>
    exact idle_prepared h { Context.zero with udc := value } rfl
      (n := 4) ⟨[.readUdc false value, .exists_ .udc udc, .exists_ .mtpLink mtp,
        .exists_ .adbLink adb], rfl, le_rfl, by simp [looks]⟩ (by omega)
  | true =>
    have hnone := captured_prepared h adb mtp udc value [] (by simp) (by simp)
    have hstop : adb ≠ 0 → ∀ ok, PrepareEnd s ⟨capturedContext (adb ≠ 0) (mtp ≠ 0) value,
        (captureEvents adb mtp udc value ++ [Event.run .adbScript .stop ok]).reverse ++ s.trace⟩ :=
      fun hadb ok => captured_prepared h adb mtp udc value [.run .adbScript .stop ok]
        (fun _ he => ⟨hadb, ok, List.mem_singleton.mp he⟩) le_rfl
    by_cases hadb : adb ≠ 0
    · simp only [bind_run, Bool.not_true, Bool.false_eq_true, if_false, if_pos hadb]
      exact hstop hadb _
    · simp only [bind_run, Bool.not_true, Bool.false_eq_true, if_false, if_neg hadb]
      exact hnone

lemma prepare_idle (h : Good s) (hidle : s.context.restorePending = false) :
    PrepareEnd s (c1UsbPowerPrepare answers s).2 := by
  rw [c1UsbPowerPrepare, bind_run, get_run, if_neg (by simp [hidle])]
  simp only [bind_run, change]
  have hlooked : Looked 3 { s with context := .zero } (exists_ answers .udc
      (exists_ answers .mtpLink (exists_ answers .adbLink { s with context := .zero }).2).2).2 :=
    Looked.trans (n := 2) (m := 1) (Looked.trans (n := 1) (m := 1) (looked_log rfl)
      (looked_log rfl)) (looked_log rfl)
  have hnone := idle_prepared h _ rfl hlooked (by omega)
  split_ifs
  · exact hnone
  · exact hnone
  · exact captureAndStop_prepared answers h _ _ _

/-! ### Runs -/

lemma Good.call (h : Good s) (call : Call) : Good (call.perform answers s).2 ∧
    ∃ new, (call.perform answers s).2.trace = new ++ s.trace ∧ new.length ≤ 1006 := by
  rcases hpending : s.context.restorePending with _ | _
  · cases call with
    | prepare =>
      have hend := prepare_idle answers h hpending
      exact ⟨hend.good, hend.trace⟩
    | resume =>
      rw [Call.perform, resume_idle answers hpending]
      exact ⟨h, [], rfl, by simp⟩
  · cases call with
    | prepare =>
      rw [Call.perform, prepare_pending answers hpending]
      exact ⟨h, [], rfl, by simp⟩
    | resume =>
      obtain ⟨hnot, hdone⟩ := resume_pending answers h hpending
      rcases hended : (c1UsbPowerResume answers s).1 with _ | _
      · exact ⟨(hnot hended).good, (hnot hended).trace⟩
      · obtain ⟨hgood, -, new, hnew, hlength, -⟩ := hdone hended
        exact ⟨hgood, new.reverse, hnew, by rwa [List.length_reverse]⟩

lemma good_afterCalls (calls : List Call) : Good (afterCalls answers calls) := by
  induction calls using List.reverseRecOn with
  | nil => exact ⟨trivial, by simp [afterCalls, Context.zero], by simp [afterCalls, Context.zero],
      by simp [afterCalls, Context.zero]⟩
  | append_singleton calls call ih =>
    rw [afterCalls, List.foldl_append]
    exact (ih.call answers call).1

/-- **USB is restored as it was**, whatever the operations return. Only the captured text is ever
written, and only where nothing is bound; a function that was disabled is not started, and none is
started again for the capture its script has succeeded for. A restore that is pending is neither
captured anew nor dropped before a resume has observed the functions, the binding and the functions
once more, in this order. Every call ends after a bounded number of operations. -/
theorem usb_restored (answers : ℕ → Answer) (calls : List Call) :
    let s := afterCalls answers calls
    Always Legal s.trace ∧
    (s.context.restorePending = false →
      c1UsbPowerResume answers s = (true, s) ∧ Prepared s (c1UsbPowerPrepare answers s).2) ∧
    (s.context.restorePending = true →
      c1UsbPowerPrepare answers s = (false, s) ∧
      ((c1UsbPowerResume answers s).1 = false →
        Kept s.context (c1UsbPowerResume answers s).2.context) ∧
      ((c1UsbPowerResume answers s).1 = true →
        (c1UsbPowerResume answers s).2.context.restorePending = false ∧
        ∃ new, (c1UsbPowerResume answers s).2.trace = new.reverse ++ s.trace ∧
          Observed s.context new)) ∧
    ∀ call : Call, ∃ new, (call.perform answers s).2.trace = new ++ s.trace ∧
      new.length ≤ 1006 := by
  intro s
  have h : Good s := good_afterCalls answers calls
  refine ⟨h.legal, fun hidle => ?_, fun hpending => ?_, fun call => (h.call answers call).2⟩
  · exact ⟨resume_idle answers hidle, (prepare_idle answers h hidle).prepared⟩
  obtain ⟨hnot, hdone⟩ := resume_pending answers h hpending
  refine ⟨prepare_pending answers hpending, fun hfalse => (hnot hfalse).kept, fun htrue => ?_⟩
  obtain ⟨-, hended, new, hnew, -, hobserved⟩ := hdone htrue
  exact ⟨hended, new, hnew, hobserved⟩

/-- A device with MTP and without ADB, and all goes well there. -/
def mtpOnly (n : ℕ) : Answer :=
  ⟨if n % 21 = 0 ∨ n % 21 = 9 ∨ n % 21 = 16 then 0 else 1, true, ['u', 'd', 'c']⟩

theorem usb_restored_mtp :
    let s := afterCalls mtpOnly [.prepare]
    s.context.restorePending = true ∧
      (c1UsbPowerResume mtpOnly s).2.context.restorePending = false ∧
      ∃ new, (c1UsbPowerResume mtpOnly s).2.trace = new.reverse ++ s.trace ∧
        Observed s.context new :=
  ⟨by decide +kernel, ((usb_restored mtpOnly [.prepare]).2.2.1 (by decide +kernel)).2.2
    (by decide +kernel)⟩

/-- ADB is seen to be absent before MTP is seen to be ready, and not after it as long as the binding
is still to be read; and the next restore starts MTP again. -/
theorem usb_restored_order :
    let s := afterCalls mtpOnly [.prepare]
    s.context.restorePending = true ∧ (c1UsbPowerResume mtpOnly s).1 = true ∧
      ¬[.exists_ (.mtpEndpoint 2) 1, .exists_ .adbLink 0, .readUdc true s.context.udc].Sublist
        (c1UsbPowerResume mtpOnly s).2.trace.reverse ∧
      (afterCalls mtpOnly [.prepare, .resume, .prepare, .resume]).trace.count
        (.run .mtpScript .suspendoff true) = 2 := by
  decide +kernel

end C1auncher.Power.UsbRestore
