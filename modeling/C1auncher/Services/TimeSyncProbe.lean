import C1auncher.Lines
import C1auncher.Services.TimeSync
import C1auncher.Traces

/-!
What is read of a probe: the flag of the applet stands for a line of what busybox has written.
-/

namespace C1auncher.Services.TimeSyncProbe

open Lines Services.TimeSync Utf8Bytes List

variable {s : Sync}

/-- A probe that ended cleanly and listed the applet: it exited with 0 in time, its output was read
to its end, and is whole lines, the applet's name among them. -/
def Lists (e : End) : Prop :=
  e.probing = true ∧ e.status = some 0 ∧ e.timedOut = false ∧ e.eof = true ∧ e.invalid = false ∧
    ∃ lines, (∀ line ∈ lines, 10 ∉ line) ∧ e.output = unlines 10 lines ∧ ntpd ∈ lines

/-- What has been read is some lines, looked at, and a part of one, kept as far as there is room. -/
def Parsed (s : Sync) : Prop :=
  ∃ lines part, (∀ line ∈ lines, 10 ∉ line) ∧ 10 ∉ part ∧ s.output = unlines 10 lines ++ part ∧
    s.probeLine = part.take lineSize ∧ (s.probeFound = true ↔ ntpd ∈ lines)

lemma take_eq_ntpd {part : Bytes} : part.take lineSize = ntpd ↔ part = ntpd := by
  constructor
  · intro h
    have hlength := congrArg List.length h
    rw [length_take, lineSize, ntpd, length_cons] at hlength
    simp only [length_cons, length_nil] at hlength
    rwa [take_of_length_le (by rw [lineSize]; omega)] at h
  · rintro rfl
    rfl

lemma take_append_byte (part : Bytes) (b : UInt8) :
    (part ++ [b]).take lineSize = if (part.take lineSize).length < lineSize
      then part.take lineSize ++ [b] else part.take lineSize := by
  rw [length_take]
  split_ifs with h
  · rw [take_of_length_le (by simp only [length_append, length_singleton]; omega),
      take_of_length_le (by omega)]
  · exact take_append_of_le_length (by omega)

/-- **One byte**: a line feed ends the line, any other byte goes on with it. -/
lemma Parsed.readByte (h : Parsed s) (b : UInt8) : Parsed (readByte s b) := by
  obtain ⟨lines, part, hlines, hpart, houtput, hline, hfound⟩ := h
  by_cases hb : b = 10
  · rw [TimeSync.readByte, if_pos hb]
    refine ⟨lines ++ [part], [], ?_, by simp, ?_, rfl, ?_⟩
    · intro line hmem
      rcases List.mem_append.mp hmem with hmem | hmem
      · exact hlines line hmem
      · rwa [List.mem_singleton.mp hmem]
    · rw [houtput, hb, unlines_append, unlines_cons, unlines_nil]
      simp
    · simp only [Bool.or_eq_true, decide_eq_true_eq, hline, take_eq_ntpd, hfound, mem_append,
        mem_singleton]
      exact or_congr_right eq_comm
  · rw [TimeSync.readByte, if_neg hb]
    refine ⟨lines, part ++ [b], hlines, ?_, ?_, ?_, hfound⟩
    · simp only [mem_append, mem_singleton, not_or]
      exact ⟨hpart, fun h => hb h.symm⟩
    · rw [houtput, append_assoc]
    · rw [take_append_byte, ← hline]

lemma Parsed.readBytes (h : Parsed s) (bytes : Bytes) :
    Parsed (bytes.foldl TimeSync.readByte s) := by
  induction bytes generalizing s with
  | nil => exact h
  | cons b bytes ih => exact ih (h.readByte b)

lemma Parsed.readLoop (h : Parsed s) (turns : ℕ) (reads : List Read) :
    Parsed (readLoop turns reads s) := by
  fun_induction TimeSync.readLoop turns reads s with
  | case1 => exact h
  | case2 => exact h
  | case3 => exact h
  | case4 => exact h
  | case5 => exact h
  | case6 => exact h
  | case7 turns first rest reads s buffer s' _ ih => exact ih (h.readBytes (s := s') buffer)

lemma Parsed.readProbe (h : Parsed s) (reads : List Read) : Parsed (readProbe reads s) := by
  unfold TimeSync.readProbe
  split_ifs
  · exact h
  · exact h.readLoop _ _

def Reads (s s' : Sync) : Prop :=
  ∃ found eof invalid bytes line output, s' = { s with
    probeFound := found
    probeEof := eof
    probeInvalid := invalid
    probeBytes := bytes
    probeLine := line
    output := output }

lemma Reads.refl (s : Sync) : Reads s s := ⟨_, _, _, _, _, _, rfl⟩

lemma Reads.trans {s' s'' : Sync} (h : Reads s s') (h' : Reads s' s'') : Reads s s'' := by
  obtain ⟨_, _, _, _, _, _, rfl⟩ := h
  obtain ⟨_, _, _, _, _, _, rfl⟩ := h'
  exact ⟨_, _, _, _, _, _, rfl⟩

lemma reads_readBytes (bytes : Bytes) (s : Sync) : Reads s (bytes.foldl readByte s) := by
  induction bytes generalizing s with
  | nil => exact Reads.refl s
  | cons b bytes ih =>
    have hbyte : Reads s (readByte s b) := by
      by_cases hb : b = 10
      · rw [readByte, if_pos hb]
        exact ⟨_, _, _, _, _, _, rfl⟩
      · rw [readByte, if_neg hb]
        exact ⟨_, _, _, _, _, _, rfl⟩
    exact hbyte.trans (ih _)

lemma reads_readLoop (turns : ℕ) (reads : List Read) (s : Sync) :
    Reads s (readLoop turns reads s) := by
  fun_induction readLoop turns reads s with
  | case1 => exact Reads.refl _
  | case2 => exact Reads.refl _
  | case3 => exact ⟨_, _, _, _, _, _, rfl⟩
  | case4 => exact Reads.refl _
  | case5 => exact ⟨_, _, _, _, _, _, rfl⟩
  | case6 => exact ⟨_, _, _, _, _, _, rfl⟩
  | case7 turns first rest reads s buffer s' _ ih =>
    have hbytes : Reads s s' := ⟨_, _, _, _, _, _, rfl⟩
    exact (hbytes.trans (reads_readBytes buffer s')).trans ih

lemma reads_readProbe (reads : List Read) (s : Sync) : Reads s (readProbe reads s) := by
  unfold readProbe
  split_ifs
  · exact Reads.refl s
  · exact reads_readLoop _ _ _

lemma settleSync_eq (s : Sync) (status : Option UInt8) (now : Int64) :
    ∃ next state applet, settleSync s status now = { s with
      nextAttempt := next
      state := state
      appletAvailable := applet } := by
  unfold settleSync
  simp only
  split_ifs
  · exact ⟨_, _, _, rfl⟩
  · exact ⟨_, _, _, rfl⟩
  · exact ⟨_, _, _, rfl⟩
  · exact ⟨_, _, _, rfl⟩
  · exact ⟨_, _, _, rfl⟩

lemma makeReady_eq (t : Tick) (resumed observed : Bool) (s : Sync) :
    ∃ next state, makeReady t resumed observed s = { s with nextAttempt := next, state := state } ∧
      (next = s.nextAttempt ∨ resumed = true ∧ s.pid = none) := by
  obtain ⟨state, hstate⟩ : ∃ state, (if observed then unverify s else s) =
      { s with state := state } := by
    split_ifs
    · unfold unverify
      split_ifs
      · exact ⟨_, rfl⟩
      · exact ⟨_, rfl⟩
    · exact ⟨_, rfl⟩
  unfold makeReady
  rw [hstate]
  simp only
  split_ifs with hresumed
  · exact ⟨_, _, rfl, .inr hresumed⟩
  · exact ⟨_, _, rfl, .inl rfl⟩

/-- **The applet becomes available only behind a probe that lists it**, which is also the only end
of an attempt that does not ask for a delay. -/
lemma settleSync_cases (h : Parsed s) (status : Option UInt8) (now : Int64) :
    ((settleSync s status now).nextAttempt = afterMs now retryMs ∧
      ((settleSync s status now).appletAvailable = true → s.appletAvailable = true)) ∨
    ((settleSync s status now).nextAttempt = now ∧
      (settleSync s status now).appletAvailable = true ∧ Lists (endOf s status now)) := by
  unfold settleSync
  simp only
  split_ifs with hbad hprobing hopen hfound
  · exact .inl ⟨rfl, by simp⟩
  · exact .inl ⟨rfl, id⟩
  · exact .inl ⟨rfl, id⟩
  · simp only [not_or, Bool.not_eq_true, Bool.not_eq_true', Bool.not_eq_false,
      not_not] at hbad hopen hfound
    obtain ⟨lines, part, hlines, -, houtput, hline, hlisted⟩ := h
    refine .inr ⟨rfl, rfl, hprobing, hbad.2, hbad.1, hopen.1, hopen.2.1, lines, hlines, ?_,
      hlisted.mp hfound⟩
    have hpart : part = [] := by
      rw [hline, take_eq_nil_iff] at hopen
      exact hopen.2.2.resolve_left (by decide)
    simp only [endOf]
    rw [houtput, hpart, append_nil]
  · exact .inl ⟨rfl, id⟩

end C1auncher.Services.TimeSyncProbe

/-!
The children of the worker: there is one at most, and it is killed once at most, while it is there.
-/

namespace C1auncher.Services.TimeSyncChildren

open Traces Services.TimeSync Services.TimeSyncProbe List

/-- The children that have been started and are not known to be gone. -/
def children : List Event → List ℕ
  | [] => []
  | .forked n _ _ :: past => n :: children past
  | .gone n :: past => (children past).erase n
  | .called .. :: past | .stopped :: past | .observed .. :: past | .refused _ :: past
  | .killed _ :: past | .late _ :: past | .ended _ :: past => children past

/-- A child is started where there is none, and one that is killed is there and was not killed
before. -/
def Allowed : Event → List Event → Prop
  | .forked .., past => children past = []
  | .killed n, past => .killed n ∉ past ∧ n ∈ children past
  | _, _ => True

def childOf : Event → Option ℕ
  | .forked n _ _ | .killed n | .gone n => some n
  | .called .. | .stopped | .observed .. | .refused _ | .late _ | .ended _ => none

variable {w : Worker}

/-- The child that the worker knows is the one that there is; it has been killed only if it is
marked so, and the next one was not. -/
structure Owned (w : Worker) : Prop where
  children : children w.trace = w.sync.pid.toList
  older : ∀ n, w.sync.pid = some n → n < w.forks
  unsent : ∀ n, w.sync.pid = some n → w.sync.killSent = false → .killed n ∉ w.trace
  fresh : ∀ n, w.forks ≤ n → .killed n ∉ w.trace
  always : Always Allowed w.trace

lemma owned_start : Owned Worker.start where
  children := rfl
  older _ h := absurd h (by simp [Worker.start, init])
  unsent _ h := absurd h (by simp [Worker.start, init])
  fresh _ _ := not_mem_nil
  always := trivial

lemma Owned.set {s : Sync} (h : Owned w) (hpid : s.pid = w.sync.pid)
    (hsent : s.killSent = w.sync.killSent) : Owned { w with sync := s } where
  children := by
    rw [hpid]
    exact h.children
  older n hn := h.older n (hpid.symm.trans hn)
  unsent n hn hs := h.unsent n (hpid.symm.trans hn) (hsent.symm.trans hs)
  fresh := h.fresh
  always := h.always

lemma Owned.log {e : Event} (h : Owned w) (he : childOf e = none) : Owned (w.log e) := by
  have hne : ∀ n, .killed n ∉ w.trace → .killed n ∉ (w.log e).trace := by
    intro n hn hmem
    rcases mem_cons.mp hmem with rfl | hmem
    · exact absurd he (by simp [childOf])
    · exact hn hmem
  have hsame : TimeSyncChildren.children (e :: w.trace) = TimeSyncChildren.children w.trace := by
    cases e <;> first | rfl | exact absurd he (by simp [childOf])
  have hallowed : Allowed e w.trace := by
    cases e <;> trivial
  exact ⟨hsame.trans h.children, h.older, fun n hn hs => hne n (h.unsent n hn hs),
    fun n hn => hne n (h.fresh n hn), hallowed, h.always⟩

lemma Owned.kill {n : ℕ} (h : Owned w) (hpid : w.sync.pid = some n)
    (hsent : w.sync.killSent = false) :
    Owned ({ w with sync := { w.sync with killSent := true } }.log (.killed n)) where
  children := h.children
  older := h.older
  unsent _ _ hs := absurd hs (by simp [Worker.log])
  fresh m hm hmem := by
    rcases mem_cons.mp hmem with heq | hmem
    · have hn := h.older n hpid
      obtain rfl : m = n := Event.killed.inj heq
      exact absurd hm (by simpa [Worker.log] using hn)
    · exact h.fresh m hm hmem
  always := ⟨⟨h.unsent n hpid hsent, by rw [h.children, hpid]; exact mem_singleton_self n⟩,
    h.always⟩

lemma Owned.forget {n : ℕ} (h : Owned w) (hpid : w.sync.pid = some n) : Owned (forget w n) where
  children := by
    have hchildren := h.children
    rw [hpid] at hchildren
    change (TimeSyncChildren.children w.trace).erase n = []
    rw [hchildren]
    simp
  older _ hn := absurd hn (by simp [TimeSync.forget, closeProbe, Worker.log])
  unsent _ hn := absurd hn (by simp [TimeSync.forget, closeProbe, Worker.log])
  fresh m hm hmem := by
    rcases mem_cons.mp hmem with heq | hmem
    · exact absurd heq (by simp)
    · exact h.fresh m hm hmem
  always := ⟨trivial, h.always⟩

lemma Owned.cancelChild (h : Owned w) (cancel : Cancel) : Owned (cancelChild w cancel) := by
  unfold TimeSync.cancelChild
  split
  · exact h
  rename_i n hpid
  split
  · split_ifs with hsend
    · simp only [Bool.and_eq_true, Bool.not_eq_true'] at hsend
      exact h.kill hpid hsend.1
    · exact h
  · exact h.forget hpid
  · exact h.forget hpid
  · exact h.forget hpid
  · exact h

lemma Owned.requestStop (h : Owned w) (cancel : Cancel) : Owned (requestStop w cancel) := by
  have hmarked : Owned { w with sync := { w.sync with cancelled := true } } := h.set rfl rfl
  exact (hmarked.cancelChild cancel).set rfl rfl

lemma Owned.stop (h : Owned w) (first : Cancel) (attempts : ℕ → Cancel) :
    Owned (stop w first attempts) := by
  have hloop : ∀ turns w, Owned w → Owned (stopLoop attempts turns w) := by
    intro turns
    induction turns with
    | zero => exact fun _ h => h
    | succ turns ih =>
      intro w h
      rw [stopLoop]
      split_ifs
      · exact h
      · exact ih _ (h.cancelChild _)
  have hstopped : Owned (w.log .stopped) := h.log rfl
  exact hloop 20 _ (hstopped.requestStop first)

lemma Owned.collect (h : Owned w) (t : Tick) : Owned (collect t w).1 := by
  have hread : ∀ reads w', Owned w' → Owned { w' with sync := readProbe reads w'.sync } := by
    intro reads w' h'
    obtain ⟨_, _, _, _, _, _, hs⟩ := reads_readProbe reads w'.sync
    exact h'.set (by rw [hs]) (by rw [hs])
  have hfinish : ∀ n w', w'.sync.pid = some n → Owned w' → Owned (finish t n w') := by
    intro n w' hpid h'
    obtain ⟨_, _, _, _, _, _, hs⟩ := reads_readProbe t.lastReads w'.sync
    exact Owned.forget (h'.set (by rw [hs]) (by rw [hs])) (by rw [hs]; exact hpid)
  unfold TimeSync.collect
  split
  · exact h
  rename_i n hpid
  have hrest := hread t.reads w h
  have hsame : (readProbe t.reads w.sync).pid = some n := by
    obtain ⟨_, _, _, _, _, _, hs⟩ := reads_readProbe t.reads w.sync
    rw [hs]
    exact hpid
  simp only
  split
  · exact hrest
  · exact hrest
  · exact hfinish n _ hsame hrest
  · exact hfinish n _ hsame hrest
  · exact hfinish n _ hsame hrest

lemma Owned.fork (h : Owned w) (hpid : w.sync.pid = none) (ntpd : Bool) (now : Int64) :
    Owned ({ w with
      sync := startChild w.sync w.forks now
      forks := w.forks + 1 }.log (.forked w.forks ntpd now)) where
  children := by
    have hnone := h.children
    rw [hpid] at hnone
    change w.forks :: TimeSyncChildren.children w.trace = [w.forks]
    rw [hnone]
    rfl
  older n hn := by
    obtain rfl : w.forks = n := by simpa [startChild, Worker.log] using hn
    exact Nat.lt_succ_self _
  unsent n hn _ hmem := by
    obtain rfl : w.forks = n := by simpa [startChild, Worker.log] using hn
    rcases mem_cons.mp hmem with heq | hmem
    · exact absurd heq (by simp)
    · exact h.fresh _ le_rfl hmem
  fresh m hm hmem := by
    rcases mem_cons.mp hmem with heq | hmem
    · exact absurd heq (by simp)
    · exact h.fresh m (Nat.le_of_succ_le hm) hmem
  always := by
    have hnone := h.children
    rw [hpid] at hnone
    exact ⟨hnone, h.always⟩

lemma Owned.attempt (h : Owned w) (hpid : w.sync.pid = none) (t : Tick) : Owned (attempt t w) := by
  have hrefuse : ∀ state, Owned (refuse w state t.now) := by
    intro state
    exact Owned.log (h.set rfl rfl) rfl
  unfold TimeSync.attempt
  split_ifs
  · exact h
  · exact hrefuse _
  · exact hrefuse _
  · exact h.fork hpid _ _

lemma Owned.settleFinished (h : Owned w) (t : Tick) (finished : Option (Option UInt8)) :
    Owned (settleFinished t finished w) := by
  unfold TimeSync.settleFinished
  split
  · exact h
  rename_i status
  split_ifs
  · exact h
  · obtain ⟨_, _, _, hs⟩ := settleSync_eq w.sync status t.now
    exact Owned.log (h.set (by rw [hs]) (by rw [hs])) rfl

lemma Owned.proceed (h : Owned w) (t : Tick) (resumed observed : Bool)
    (finished : Option (Option UInt8)) : Owned (proceed t resumed observed finished w) := by
  have hready : Owned { w with sync := makeReady t resumed observed w.sync } := by
    obtain ⟨_, _, hs, -⟩ := makeReady_eq t resumed observed w.sync
    exact h.set (by rw [hs]) (by rw [hs])
  have hsettled := hready.settleFinished t finished
  unfold TimeSync.proceed
  simp only
  split_ifs with hpid
  · exact hsettled.attempt hpid t
  · have hmarked : ∀ w', Owned w' → Owned { w' with sync := { w'.sync with timedOut := true } } :=
      fun w' h' => h'.set rfl rfl
    exact Owned.log (((hmarked _ hsettled).cancelChild t.cancel).set rfl rfl) rfl
  · exact hsettled

lemma Owned.tick (h : Owned w) (t : Tick) : Owned (tick t w) := by
  have hcall : Owned (call t w) := Owned.log (h.set rfl rfl) rfl
  have hcollect := hcall.collect t
  have hobserve : ∀ w', Owned w' → Owned (observe t w') :=
    fun w' h' => Owned.log (h'.set rfl rfl) rfl
  have hgive : ∀ w', Owned w' → Owned (giveWay t w') := by
    intro w' h'
    have hmarked : Owned { w' with sync := { w'.sync with cancelled := true } } := h'.set rfl rfl
    exact (hmarked.cancelChild t.cancel).set rfl rfl
  have hrest : ∀ resumed observed finished w', Owned w' →
      Owned (if w'.sync.systemService ≠ .none ∨ w'.sync.kernelSynced then giveWay t w'
        else TimeSync.proceed t resumed observed finished w') := by
    intro resumed observed finished w' h'
    split_ifs
    · exact hgive w' h'
    · exact h'.proceed t resumed observed finished
  unfold TimeSync.tick
  split_ifs
  · exact h
  · exact hcollect.requestStop t.cancel
  refine hrest _ _ _ _ ?_
  split_ifs
  · exact hobserve _ hcollect
  · exact hcollect

lemma owned_run (calls : List Call) : Owned (run calls) :=
  run_inv owned_start (fun _ t h => h.tick t)
    (fun _ first attempts h => h.stop first attempts) calls

lemma length_children_le {trace : List Event} (h : Always Allowed trace) :
    (children trace).length ≤ 1 := by
  induction trace with
  | nil => exact Nat.zero_le 1
  | cons e past ih =>
    have hpast := ih h.2
    cases e with
    | forked n ntpd now =>
      have hnone : children past = [] := h.1
      rw [children, hnone, length_singleton]
    | gone n => exact (length_erase_le).trans hpast
    | called _ _ _ => exact hpast
    | stopped => exact hpast
    | observed _ _ => exact hpast
    | refused _ => exact hpast
    | killed _ => exact hpast
    | late _ => exact hpast
    | ended _ => exact hpast

end C1auncher.Services.TimeSyncChildren
