import C1auncher.Update.PendingWatch

/-!
A candidate is confirmed only after it has been healthy for its whole window.

The watch keeps an instant since which the ready marker has stayed the same. The invariant
ties that instant to one of the polls: nothing in the polls after it spoke against the
candidate, and a beat stamped after it was read in one of them.
-/

namespace C1auncher.Update.CandidateHealth

open CString Update.PendingWatch List Option

/-! ### The trace -/

def lastReading (started : ℤ) : List Poll → ℤ
  | [] => started
  | p :: _ => p.now

/-- The clock never goes back. -/
def Clocked (started : ℤ) : List Poll → Prop
  | [] => True
  | p :: polls => Clocked started polls ∧ lastReading started polls ≤ p.clock ∧
    (p.clock :: p.packets.map Packet.reading).Pairwise (· ≤ ·)

def shuttingDownBefore : List Poll → Bool
  | [] => false
  | p :: _ => p.shuttingDown

/-- The last start of the window: the end of the last shutdown window, or the beginning. -/
def windowStart (started : ℤ) : List Poll → ℤ
  | [] => started
  | p :: polls =>
    if shuttingDownBefore polls && !p.shuttingDown then p.clock else windowStart started polls

/-- The heartbeats of some packets that count for a window. -/
def beatsOf (started : ℤ) (packets : List Packet) : List LivenessMessage :=
  (packets.filterMap Packet.message).filter (started ≤ ·.monotonicMs)

def accepted (started : ℤ) (p : Poll) : List LivenessMessage := beatsOf started p.packets

/-- What a confirmation at `now` says of the poll `r` and of the newer ones. -/
structure Healthy (digest : Text) (started : ℤ) (newer : List Poll) (r : Poll) (now : ℤ) :
    Prop where
  inWindow : started ≤ r.now ∧ r.now < started + readyTimeoutMs
  stable : r.now + readyStableMs ≤ now
  marker : ∃ identity, ∀ p ∈ r :: newer, p.marker digest = some identity
  noShutdown : ∀ p ∈ r :: newer, p.shuttingDown = false
  /-- All beats come from one user interface, and a late one is still fresh. -/
  beats : ∃ pid, (∀ p ∈ newer, ∀ m ∈ accepted started p, m.uiPid = pid) ∧
    ∃ p ∈ newer, ∃ m ∈ accepted started p,
      r.now + readyStableMs ≤ m.monotonicMs ∧ now ≤ m.monotonicMs + heartbeatTimeoutMs

/-! ### Reading the pipe -/

lemma beatsOf_cons (started : ℤ) (packet : Packet) (packets : List Packet) :
    beatsOf started (packet :: packets) = beatsOf started [packet] ++ beatsOf started packets := by
  rw [beatsOf, ← singleton_append, filterMap_append, filter_append]
  rfl

structure Drained (w : Watch) (packets : List Packet) (w' : Watch) : Prop where
  started : w'.started = w.started
  readyIdentity : w'.readyIdentity = w.readyIdentity
  wasShuttingDown : w'.wasShuttingDown = w.wasShuttingDown
  readyAt : w'.readyAt = -1 ∨ (w'.readyAt = w.readyAt ∧ w'.uiPid = w.uiPid ∧
    ∀ m ∈ beatsOf w.started packets, m.uiPid = w.uiPid)
  lastBeat : w'.lastBeat = w.lastBeat ∨
    ∃ m ∈ beatsOf w.started packets, m.monotonicMs = w'.lastBeat

lemma Drained.refl (w : Watch) : Drained w [] w :=
  ⟨rfl, rfl, rfl, .inr ⟨rfl, rfl, by simp [beatsOf]⟩, .inl rfl⟩

lemma drained_beat {w w' : Watch} {packet : Packet} (h : w.beat packet = some w') :
    Drained w [packet] w' ∧ (w'.lastBeat = w.lastBeat ∨ w'.lastBeat ≤ packet.reading) := by
  unfold Watch.beat at h
  split at h
  · simp at h
  rename_i message hm
  split_ifs at h with hbad hold horder hpid
  · -- a beat of an earlier window
    cases h
    exact ⟨⟨rfl, rfl, rfl, .inr ⟨rfl, rfl, by simp [beatsOf, hm, hold]⟩, .inl rfl⟩, .inl rfl⟩
  all_goals
    cases h
    have hmem : message ∈ beatsOf w.started [packet] := by simp [beatsOf, hm, not_lt.mp hold]
    have hstamp : message.monotonicMs ≤ packet.reading := by omega
    refine ⟨⟨rfl, rfl, rfl, ?_, .inr ⟨message, hmem, rfl⟩⟩, .inr hstamp⟩
  · exact .inl rfl
  refine .inr ⟨rfl, (not_not.mp hpid).symm, fun m hm' => ?_⟩
  have : m = message := by simpa [beatsOf, hm, not_lt.mp hold] using hm'
  exact this ▸ (not_not.mp hpid).symm

lemma Drained.trans {w w' w'' : Watch} {packet : Packet} {packets : List Packet}
    (h : Drained w [packet] w') (h' : Drained w' packets w'') :
    Drained w (packet :: packets) w'' := by
  have hs := h.started
  refine ⟨h'.started.trans hs, h'.readyIdentity.trans h.readyIdentity,
    h'.wasShuttingDown.trans h.wasShuttingDown, ?_, ?_⟩
  · rcases h'.readyAt with hnone | ⟨hready, hpid, hall⟩
    · exact .inl hnone
    rcases h.readyAt with hnone | ⟨hready', hpid', hall'⟩
    · exact .inl (hready.trans hnone)
    refine .inr ⟨hready.trans hready', hpid.trans hpid', fun m hm => ?_⟩
    rw [beatsOf_cons] at hm
    rcases mem_append.mp hm with hm | hm
    · exact hall' m hm
    · exact (hall m (hs ▸ hm)).trans hpid'
  · rw [beatsOf_cons]
    rcases h'.lastBeat with hsame | ⟨m, hm, hlast⟩
    · rcases h.lastBeat with hsame' | ⟨m, hm, hlast⟩
      · exact .inl (hsame.trans hsame')
      · exact .inr ⟨m, mem_append_left _ hm, hlast.trans hsame.symm⟩
    · exact .inr ⟨m, mem_append_right _ (hs ▸ hm), hlast⟩

lemma drained_of_drain {w w' : Watch} {packets : List Packet} (h : w.drain packets = some w') :
    Drained w packets w' := by
  induction packets generalizing w with
  | nil =>
    cases h
    exact Drained.refl _
  | cons packet packets ih =>
    obtain ⟨w1, hbeat, hdrain⟩ := bind_eq_some_iff.mp h
    exact (drained_beat hbeat).1.trans (ih hdrain)

lemma lastBeat_le_of_drain {w w' : Watch} {packets : List Packet} {clock : ℤ}
    (h : w.drain packets = some w')
    (hclock : (clock :: packets.map Packet.reading).Pairwise (· ≤ ·))
    (hw : w.lastBeat ≤ max (-1) clock) :
    w'.lastBeat ≤ max (-1) ((packets.getLast?.map Packet.reading).getD clock) := by
  induction packets generalizing w clock with
  | nil =>
    cases h
    exact hw
  | cons packet packets ih =>
    obtain ⟨w1, hbeat, hdrain⟩ := bind_eq_some_iff.mp h
    obtain ⟨hfirst, hrest⟩ := List.pairwise_cons.mp hclock
    have hle : clock ≤ packet.reading := hfirst _ (by simp)
    have hw1 : w1.lastBeat ≤ max (-1) packet.reading := by
      rcases (drained_beat hbeat).2 with h | h <;> omega
    have := ih hdrain hrest hw1
    rcases hlast : packets.getLast? with _ | last
    · simpa [getLast?_cons, hlast] using this
    · simpa [getLast?_cons, hlast] using this

/-! ### The invariant -/

structure Since (digest : Text) (w : Watch) (newer : List Poll) (r : Poll) : Prop where
  readyAt : r.now = w.readyAt
  marker : ∀ p ∈ r :: newer, p.marker digest = some w.readyIdentity
  noShutdown : ∀ p ∈ r :: newer, p.shuttingDown = false
  onePid : ∀ p ∈ newer, ∀ m ∈ accepted w.started p, m.uiPid = w.uiPid
  late : w.readyAt < w.lastBeat →
    ∃ p ∈ newer, ∃ m ∈ accepted w.started p, m.monotonicMs = w.lastBeat

structure Tracks (digest : Text) (begin : ℤ) (polls : List Poll) (w : Watch) : Prop where
  started : w.started = windowStart begin polls
  shuttingDown : w.wasShuttingDown = shuttingDownBefore polls
  lastBeat : w.lastBeat ≤ max (-1) (lastReading begin polls)
  ready : 0 ≤ w.readyAt → ∃ newer r older, polls = newer ++ r :: older ∧ Since digest w newer r

section

variable {digest : Text} {started : ℤ} {polls : List Poll} {p : Poll} {w w' : Watch}

lemma restart_started (h : Tracks digest started polls w) :
    (w.restart p).started = windowStart started (p :: polls) := by
  simp only [Watch.restart, windowStart, h.shuttingDown]
  split_ifs
  · rfl
  · exact h.started

lemma restart_lastBeat (h : Tracks digest started polls w)
    (hclock : lastReading started polls ≤ p.clock) :
    (w.restart p).lastBeat ≤ max (-1) p.clock := by
  have := h.lastBeat
  simp only [Watch.restart]
  split_ifs
  · simp
  · omega

lemma restart_ready (h : 0 ≤ (w.restart p).readyAt) :
    w.restart p = { w with wasShuttingDown := p.shuttingDown } := by
  simp only [Watch.restart] at h ⊢
  split_ifs at h ⊢
  · simp at h
  · rfl

lemma tracks_drain (h : Tracks digest started polls w) (hclock : Clocked started (p :: polls))
    (hdrain : (w.restart p).drain p.packets = some w') :
    w'.started = windowStart started (p :: polls) ∧ w'.wasShuttingDown = p.shuttingDown ∧
      w'.lastBeat ≤ max (-1) p.now := by
  have hd := drained_of_drain hdrain
  exact ⟨hd.started.trans (restart_started h),
    hd.wasShuttingDown, lastBeat_le_of_drain hdrain hclock.2.2 (restart_lastBeat h hclock.2.1)⟩

lemma Since.extend {newer : List Poll} {r : Poll} (h : Since digest w newer r)
    (hd : Drained w p.packets w') (hready : w'.readyAt = w.readyAt) (hpid : w'.uiPid = w.uiPid)
    (hall : ∀ m ∈ accepted w.started p, m.uiPid = w.uiPid)
    (hmarker : p.marker digest = some w'.readyIdentity) (hnot : p.shuttingDown = false) :
    Since digest w' (p :: newer) r := by
  have hs := hd.started
  constructor
  · exact h.readyAt.trans hready.symm
  · intro q hq
    rw [hd.readyIdentity] at hmarker ⊢
    rcases mem_cons.mp hq with rfl | hq
    · exact h.marker q mem_cons_self
    rcases mem_cons.mp hq with rfl | hq
    · exact hmarker
    · exact h.marker q (mem_cons_of_mem _ hq)
  · intro q hq
    rcases mem_cons.mp hq with rfl | hq
    · exact h.noShutdown q mem_cons_self
    rcases mem_cons.mp hq with rfl | hq
    · exact hnot
    · exact h.noShutdown q (mem_cons_of_mem _ hq)
  · intro q hq m hm
    rw [hs] at hm
    rw [hpid]
    rcases mem_cons.mp hq with rfl | hq
    · exact hall m hm
    · exact h.onePid q hq m hm
  · intro hlate
    rw [hs]
    rcases hd.lastBeat with hsame | ⟨m, hm, hlast⟩
    · rw [hready, hsame] at hlate
      obtain ⟨q, hq, m, hm, hlast⟩ := h.late hlate
      exact ⟨q, mem_cons_of_mem _ hq, m, hm, hlast.trans hsame.symm⟩
    · exact ⟨p, mem_cons_self, m, hm, hlast⟩

/-- A poll outside of a shutdown window, up to the look at the marker. -/
theorem tracks_mark (h : Tracks digest started polls w) (hclock : Clocked started (p :: polls))
    (hdrain : (w.restart p).drain p.packets = some w') (hnot : p.shuttingDown = false) :
    Tracks digest started (p :: polls) (w'.mark digest p) := by
  obtain ⟨hstarted, hshut, hbeat⟩ := tracks_drain h hclock hdrain
  have hd := drained_of_drain hdrain
  unfold Watch.mark
  rcases hm : p.marker digest with _ | identity
  · exact ⟨hstarted, hshut, hbeat, by simp⟩
  dsimp only
  split_ifs with hnew
  · -- the window of the marker starts with this poll
    refine ⟨hstarted, hshut, hbeat, fun hpos => ⟨[], p, polls, rfl, ?_⟩⟩
    refine ⟨rfl, by simpa using hm, by simpa using hnot, by simp, fun hlate => ?_⟩
    simp only at hpos hlate
    omega
  · refine ⟨hstarted, hshut, hbeat, fun hpos => ?_⟩
    simp only [not_or, not_lt, not_not] at hnew
    rcases hd.readyAt with hnone | ⟨hready, hpid, hall⟩
    · omega
    have hrestart := restart_ready (hready ▸ hpos)
    rw [hrestart] at hd hready hpid hall
    obtain ⟨newer, r, older, rfl, hsince⟩ := h.ready (by simpa using hready ▸ hpos)
    refine ⟨p :: newer, r, older, rfl, ?_⟩
    have hsince' : Since digest { w with wasShuttingDown := p.shuttingDown } newer r :=
      { hsince with }
    exact hsince'.extend hd hready hpid hall (hnew.2 ▸ hm) hnot

lemma turn_cases (digest : Text) (w : Watch) (p : Poll) :
    (∃ e, w.turn digest p = ⟨false, .error e⟩) ∨
      ∃ w1, (w.restart p).drain p.packets = some w1 ∧
        ((p.shuttingDown = true ∧ w.turn digest p = ⟨false, .ok { w1 with readyAt := -1 }⟩) ∨
          (p.shuttingDown = false ∧ w.turn digest p = (w1.mark digest p).decide p)) := by
  by_cases hwait : p.waited = .error
  · exact .inl ⟨.failed, by simp [Watch.turn, hwait]⟩
  rcases hdrain : (w.restart p).drain p.packets with _ | w1
  · exact .inl ⟨.failed, by simp [Watch.turn, hdrain]⟩
  by_cases hbroken : p.pipe.length < drainMax ∧ p.pipeBroken
  · exact .inl ⟨.failed, by simp [Watch.turn, hdrain, hbroken]⟩
  have hturn : w.turn digest p =
      if p.shuttingDown then
        if p.waited = .exited then ⟨false, .error .childExit⟩
        else if p.stop then ⟨false, .error .stopped⟩
        else ⟨false, .ok { w1 with readyAt := -1 }⟩
      else (w1.mark digest p).decide p := by
    simp only [Watch.turn, hwait, if_false, hdrain, hbroken]
  rw [hturn]
  split_ifs with hshut hexit hstop
  · exact .inl ⟨_, rfl⟩
  · exact .inl ⟨_, rfl⟩
  · exact .inr ⟨w1, rfl, .inl ⟨hshut, rfl⟩⟩
  · exact .inr ⟨w1, rfl, .inr ⟨by simpa using hshut, rfl⟩⟩

lemma eq_of_decide (h : (w.decide p).next = .ok w') : w' = w := by
  unfold Watch.decide Watch.confirm at h
  split at h
  · simp at h
  · simp at h
  · split_ifs at h
    · exact (Except.ok.inj h).symm
    split at h
    · simp at h
    · exact (Except.ok.inj h).symm
    · simp at h
  · simp at h
  · exact (Except.ok.inj h).symm

theorem tracks_watchAfter (hclock : Clocked started polls)
    (h : watchAfter digest started polls = some w) : Tracks digest started polls w := by
  induction polls generalizing w with
  | nil =>
    cases h
    exact ⟨rfl, rfl, by simp [Watch.init], by simp [Watch.init]⟩
  | cons p polls ih =>
    obtain ⟨w0, hw0, hnext⟩ := bind_eq_some_iff.mp h
    have hok : (w0.turn digest p).next = .ok w := by
      cases hn : (w0.turn digest p).next with
      | error e => simp [hn, Except.toOption] at hnext
      | ok w1 => simpa [hn, Except.toOption] using hnext
    have h0 := ih hclock.1 hw0
    obtain ⟨e, ht⟩ | ⟨w1, hdrain, ⟨-, ht⟩ | ⟨hnot, ht⟩⟩ := turn_cases digest w0 p
    · simp [ht] at hok
    · obtain ⟨hstarted, hwas, hbeat⟩ := tracks_drain h0 hclock hdrain
      rw [ht] at hok
      cases hok
      exact ⟨hstarted, hwas, hbeat, by simp⟩
    · rw [ht] at hok
      rw [eq_of_decide hok]
      exact tracks_mark h0 hclock hdrain hnot

/-! ### The confirmation -/

lemma decide_confirm {o : Observation} (h : pendingDecide o = .confirm) :
    0 ≤ o.readyAtMs ∧ o.startedMs ≤ o.readyAtMs ∧
      o.readyAtMs < o.startedMs + readyTimeoutMs ∧ o.readyAtMs + readyStableMs ≤ o.nowMs := by
  unfold pendingDecide at h
  split_ifs at h
  omega

lemma call_decide (h : (w.decide p).callsConfirm = true) :
    pendingDecide ⟨p.waited = .exited, p.stop, w.started, p.now, w.readyAt⟩ = .confirm ∧
      w.readyAt + readyStableMs ≤ w.lastBeat ∧ p.now ≤ w.lastBeat + heartbeatTimeoutMs := by
  unfold Watch.decide at h
  split at h
  · simp at h
  · simp at h
  · rename_i hdecide
    refine ⟨hdecide, ?_⟩
    unfold Watch.confirm at h
    split_ifs at h
    omega
  · simp at h
  · simp at h

/-- **Candidate confirmation.** On every trace with a monotone clock, `c1_update_confirm` is
called only after an instant within the first minute of the window since which the candidate
has been healthy for half a minute. -/
theorem confirm_only_healthy (hclock : Clocked started (p :: polls))
    (hw : watchAfter digest started polls = some w)
    (hcall : (w.turn digest p).callsConfirm = true) :
    ∃ newer r older, p :: polls = newer ++ r :: older ∧
      Healthy digest (windowStart started (p :: polls)) newer r p.now := by
  obtain ⟨e, ht⟩ | ⟨w1, hdrain, ⟨-, ht⟩ | ⟨hnot, ht⟩⟩ := turn_cases digest w p
  · simp [ht] at hcall
  · simp [ht] at hcall
  rw [ht] at hcall
  obtain ⟨hdecide, hlate, hfresh⟩ := call_decide hcall
  have ht := tracks_mark (tracks_watchAfter hclock.1 hw) hclock hdrain hnot
  obtain ⟨hpos, hfrom, hto, hstable⟩ := decide_confirm hdecide
  simp only at hpos hfrom hto hstable
  obtain ⟨newer, r, older, heq, hsince⟩ := ht.ready hpos
  refine ⟨newer, r, older, heq, ?_⟩
  rw [← ht.started]
  have hr := hsince.readyAt
  obtain ⟨q, hq, m, hm, hlast⟩ := hsince.late (by unfold readyStableMs at hlate; omega)
  exact ⟨by omega, by omega, ⟨_, hsince.marker⟩, hsince.noShutdown,
    _, hsince.onePid, q, hq, m, hm, by omega, by omega⟩

end

/-- A candidate whose marker appears after a second, and that beats half a minute later. -/
def steadyDigest : Text := List.replicate 64 'a'

def steadyPoll (clock : ℤ) : Poll where
  shuttingDown := false
  waited := .running
  clock := clock
  pipe := [⟨some ⟨clock, 7⟩, clock⟩]
  pipeBroken := false
  stop := false
  markerContent := some (steadyDigest ++ ['\n'])
  markerIdentity := some ⟨1, 2, 3, 4⟩
  confirmed := .ok

theorem confirm_only_healthy_steady :
    ∃ newer r older, [steadyPoll 31000, steadyPoll 1000] = newer ++ r :: older ∧
      Healthy steadyDigest 0 newer r 31000 := by
  have hclock : Clocked 0 [steadyPoll 31000, steadyPoll 1000] := by
    simp [Clocked, lastReading, steadyPoll, Poll.now, Poll.packets, drainMax]
  exact confirm_only_healthy (w := ⟨0, 1000, 1000, 7, ⟨1, 2, 3, 4⟩, false⟩) hclock
    (by decide +kernel) (by decide +kernel)

end C1auncher.Update.CandidateHealth
