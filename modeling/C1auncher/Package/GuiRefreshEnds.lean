import C1auncher.Package.GuiRefreshRuns

/-!
A refresh that is cancelled ends: every turn brings the worker closer to its exit, and the program
reaps it.
-/

namespace C1auncher.Package.GuiRefreshEnds

open Utf8Bytes Traces Package.GuiRefresh Package.GuiRefreshRuns List

/-- How many turns of the worker there are at most until it exits, once it is to stop. -/
def rank : Worker → ℕ
  | .loading | .refreshing => 2
  | .checking reply sent => if sent < replySize || !reply.initial then 1 else 3
  | .writing _ _ => 4
  | .ended _ | .gone => 0

/-- In the middle of a job that was cancelled, later than a state of it. -/
structure Closing (old w : World) : Prop where
  going : Going w
  cancelFd : w.job.cancelFd = false
  nearer : rank w.worker ≤ rank old.worker
  later : ∀ e ∈ recent old.log, e ∈ recent w.log

variable {old w : World}

lemma rank_checking (reply : Reply) (sent : ℕ) : rank (.checking reply sent) ≤ 3 := by
  rw [rank]
  split_ifs <;> omega

lemma rank_turn (h : w.job.cancelFd = false) (outcome : Outcome) :
    rank (w.turn outcome).worker ≤ rank w.worker - 1 := by
  unfold World.turn
  cases hworker : w.worker with
  | loading => exact le_of_eq rfl
  | refreshing => exact le_of_eq rfl
  | checking reply sent =>
    dsimp only
    unfold World.check
    by_cases hmore : sent < replySize
    · rw [if_pos hmore, if_pos (by rw [h]; exact Bool.or_true _)]
      exact Nat.zero_le _
    rw [if_neg hmore]
    split_ifs with hinitial
    · simp [rank, hmore, hinitial]
    · exact Nat.zero_le _
  | writing reply sent =>
    dsimp only
    unfold World.write
    cases outcome.how with
    | interrupted => exact rank_checking _ _
    | failed => exact Nat.zero_le _
    | ok =>
      dsimp only
      split_ifs
      · exact rank_checking _ _
      · exact rank_checking _ _
  | ended status => simp [rank, hworker]
  | gone => simp [rank, hworker]

lemma not_alive_of_rank {worker : Worker} (h : rank worker = 0) : ¬Alive worker := by
  cases worker with
  | checking reply sent =>
    rw [rank] at h
    split_ifs at h
  | ended status => exact id
  | gone => exact id
  | _ => cases h

lemma rank_act (h : w.job.cancelFd = false) (a : Act) :
    rank (w.act a).worker ≤ rank w.worker := by
  cases a with
  | turn outcome => exact (rank_turn h outcome).trans (Nat.sub_le _ _)
  | die =>
    unfold World.act
    dsimp only
    split
    · exact le_rfl
    · exact le_rfl
    · exact Nat.zero_le _

lemma closing_self (h : Going w) (hcancel : w.job.cancelFd = false) : Closing w w :=
  ⟨h, hcancel, le_rfl, fun _ he => he⟩

lemma Closing.act (h : Closing old w) (a : Act) : Closing old (w.act a) :=
  ⟨h.going.act a, by rw [job_act, h.cancelFd], (rank_act h.cancelFd a).trans h.nearer,
    fun e he => mem_recent_act (h.later e he) a⟩

lemma Closing.receive (h : Closing old w) (n : ℕ) : Closing old (w.receive n) :=
  { h with going := ⟨h.going.live.receive n, h.going.pid, h.going.unreaped⟩ }

lemma mem_recent_consume {e : Event} (h : e ∈ recent w.log) : e ∈ recent w.consume.log :=
  mem_cons_of_mem _ (mem_cons_of_mem _ h)

lemma Closing.consume (h : Closing old w) (hfull : w.job.buffer.length = replySize)
    (hinitial : initialField w.job.buffer = true) : Closing old w.consume :=
  ⟨h.going.consume hfull hinitial, h.cancelFd, h.nearer,
    fun e he => mem_recent_consume (h.later e he)⟩

lemma Closing.nothing (h : Closing old w) : Closing old (w.tell (.returned 0 [])) :=
  ⟨h.going.nothing, h.cancelFd, h.nearer, fun e he => mem_cons_of_mem _ (h.later e he)⟩

/-- **Once cancelled**, a job ends or comes closer to its end. -/
lemma Closing.run (h : Closing old w) (c : Call) :
    (Rest (c.run w) ∧ Finished (c.run w)) ∨ Closing old (c.run w) := by
  cases c with
  | start possible =>
    rw [Call.run, h.going.start]
    exact .inr h
  | cancel =>
    have hcancel := h.going.cancel
    refine .inr ⟨hcancel.1, hcancel.2, ?_, fun e he => ?_⟩
    all_goals
      rw [Call.run, World.cancel, if_neg (by rw [h.going.pid]; decide)]
    · exact h.nearer
    · exact mem_cons_of_mem _ (h.later e he)
  | poll first wait last =>
    exact h.going.poll (fun _ a h => h.act a) (fun _ n h => h.receive n)
      (fun _ h => h.consume) (fun _ h => h.nothing) h first wait last
  | happen a => exact .inr (h.act a)

lemma Closing.poll_ended (h : Closing w w) (hended : rank w.worker = 0) (first : List Moment)
    {wait : Moment} (hwait : wait.how ≠ .interrupted) (last : List Moment) :
    (Rest (w.poll first wait last) ∧ Finished (w.poll first wait last)) ∨
      .consumed ∉ recent w.log ∧ .consumed ∈ recent (w.poll first wait last).log := by
  have hdrain : Closing w (World.drain first w) :=
    drain_keeps (fun _ a h => h.act a) (fun _ n h => h.receive n) first h
  unfold World.poll
  rw [if_neg (by rw [h.going.pid]; decide)]
  generalize World.drain first w = w' at hdrain
  dsimp only
  split_ifs with hwhole
  · refine .inr ⟨fun hconsumed => ?_, mem_cons_of_mem _ mem_cons_self⟩
    rcases hdrain.going.live.buffer hwhole.1 with ⟨hnot, -⟩ | ⟨-, first, last, -, hlast, hbuffer⟩
    · exact hnot (hdrain.later _ hconsumed)
    · rw [hbuffer, initialField_bytes, hlast] at hwhole
      cases hwhole.2
  · rcases hdrain.going.await wait last with hend | ⟨hinterrupted | halive, -⟩
    · exact .inl hend
    · exact absurd hinterrupted hwait
    have hacts : Closing w (w'.acts wait.acts) :=
      acts_keep (fun _ a h => h.act a) hdrain wait.acts
    exact absurd halive (not_alive_of_rank (Nat.le_zero.mp (hended ▸ hacts.nearer)))

/-- The worker and the program take turns again and again, and signals do not keep the program from
asking for the worker. -/
structure Fair (later : ℕ → Call) : Prop where
  turns : ∀ n, ∃ m ≥ n, ∃ outcome, later m = .happen (.turn outcome)
  polls : ∀ n, ∃ m ≥ n, ∃ first wait last, later m = .poll first wait last ∧
    wait.how ≠ .interrupted

open Classical in
/-- Whether the first reply is still to be taken. -/
noncomputable def owed (w : World) : ℕ := if .consumed ∈ recent w.log then 0 else 1

structure Exited (w : World) : Prop where
  closing : Closing w w
  rank : rank w.worker = 0

def Over (w : World) : Prop := Rest w ∧ Finished w

lemma Exited.run (h : Exited w) (c : Call) :
    Over (c.run w) ∨ Closing w (c.run w) ∧ Exited (c.run w) := by
  refine (h.closing.run c).imp_right fun hnext => ⟨hnext, ⟨?_, ?_⟩⟩
  · exact closing_self hnext.going hnext.cancelFd
  · exact Nat.le_zero.mp (h.rank ▸ hnext.nearer)

lemma Closing.owed_le (h : Closing old w) : owed w ≤ owed old := by
  unfold owed
  by_cases hold : .consumed ∈ recent old.log
  · rw [if_pos hold, if_pos (h.later _ hold)]
  · rw [if_neg hold]
    split_ifs <;> omega

lemma Closing.exits (h : Closing w w) {later : ℕ → Call} (hfair : Fair later) :
    ∃ n, Over (states Call.run w later n) ∨ Exited (states Call.run w later n) := by
  suffices hreached : ∃ n ≥ 0, Over (states Call.run w later n) ∨ Exited (states Call.run w later n)
      from hreached.imp fun _ => And.right
  refine reaches_of_falls (s := states Call.run w later) (n := 0) (Q := fun w => Closing w w)
    (G := fun w => Over w ∨ Exited w) (fun w => rank w.worker) (fun n hn => ?_) (fun n => ?_) h
  · rcases hn.run (later n) with hend | hnext
    · exact .inl (.inl hend)
    · exact .inr ⟨closing_self hnext.going hnext.cancelFd, hnext.nearer⟩
  obtain ⟨m, hm, outcome, hturn⟩ := hfair.turns n
  refine ⟨m, hm, fun hn => ?_⟩
  rw [states, hturn]
  generalize states Call.run w later m = w' at hn
  have hkept : Closing w' (w'.turn outcome) := hn.act (.turn outcome)
  have hself := closing_self hkept.going hkept.cancelFd
  have hrank := rank_turn hn.cancelFd outcome
  by_cases hzero : rank (w'.turn outcome).worker = 0
  · exact .inl (.inr ⟨hself, hzero⟩)
  · exact .inr ⟨hself, Nat.lt_of_le_sub_one (by omega) hrank⟩

lemma Exited.reaped {later : ℕ → Call} (hfair : Fair later) {n : ℕ}
    (hn : Exited (states Call.run w later n)) : ∃ k ≥ n, Over (states Call.run w later k) := by
  refine reaches_of_falls (s := states Call.run w later) (n := n) (Q := Exited) (G := Over) owed
    (fun m hm => ?_) (fun k => ?_) hn
  · exact (hm.run (later m)).imp_right fun ⟨hnext, hexited⟩ => ⟨hexited, hnext.owed_le⟩
  obtain ⟨m, hm, first, wait, last, hpoll, hwait⟩ := hfair.polls k
  refine ⟨m, hm, fun hexited => ?_⟩
  rw [states, hpoll]
  generalize states Call.run w later m = w' at hexited
  rcases hexited.run (.poll first wait last) with hend | ⟨-, hnext⟩
  · exact .inl hend
  refine (hexited.closing.poll_ended hexited.rank first hwait last).imp_right
    fun ⟨hnot, hconsumed⟩ => ⟨hnext, ?_⟩
  change owed (w'.poll first wait last) < owed w'
  rw [owed, if_pos hconsumed, owed, if_neg hnot]
  exact Nat.zero_lt_one

/-- **A cancelled job ends**, by turns of the worker until it exits and polls until it is reaped. -/
theorem Closing.ends (h : Closing w w) {later : ℕ → Call} (hfair : Fair later) :
    ∃ n, Over (states Call.run w later n) := by
  obtain ⟨n, hend | hn⟩ := h.exits hfair
  · exact ⟨n, hend⟩
  · exact (hn.reaped hfair).imp fun _ => And.right

/-- **What a refresh hands out.** Whatever the worker and the program do in between: the first reply
is handed out once at most, all of it; the second one is handed out whole, when the worker has
exited with 0 and nobody cancelled; a job ends once, with everything closed and the worker reaped;
and it ends when it is cancelled and polled, wherever the worker is. -/
theorem refresh_hands_out (calls : List Call) :
    (∀ newer r b older, (run .idle calls).log = newer ++ .returned r b :: older →
        AllowedReturn r b older) ∧
      (Finished (run .idle calls) → Ended (run .idle calls)) ∧
      ((run .idle calls).job.pid = true → ∀ later, Fair later →
        ∃ n, Ended (states Call.run (run .idle calls).cancel later n) ∧
          Finished (states Call.run (run .idle calls).cancel later n)) := by
  have hstate := rest_or_going calls
  generalize run .idle calls = w at hstate ⊢
  have halways : Always Allowed w.log := hstate.elim Rest.always fun h => h.live.always
  refine ⟨fun newer r b older hlog => ?_, fun ⟨r, b, hr, hmem⟩ => ?_, fun hpid later hfair => ?_⟩
  · rw [hlog] at halways
    exact halways.apply
  · rcases hstate with h | h
    · exact h.ended
    · exact absurd hmem (h.live.reading.running r b hr)
  · rcases hstate with h | h
    · rw [h.ended.1] at hpid
      cases hpid
    · obtain ⟨n, hrest, hfinished⟩ := (closing_self h.cancel.1 h.cancel.2).ends hfair
      exact ⟨n, hrest.ended, hfinished⟩

/-- A turn, a poll, a turn, a poll. -/
def alternating (n : ℕ) : Call :=
  if n % 2 = 0 then .happen (.turn ⟨.zero, 0, .ok, replySize, false⟩) else .poll [] ⟨[], .ok, 0⟩ []

lemma fair_alternating : Fair alternating := by
  refine ⟨fun n => ⟨2 * n, by omega, _, if_pos (by omega)⟩,
    fun n => ⟨2 * n + 1, by omega, [], ⟨[], .ok, 0⟩, [], if_neg (by omega), by decide⟩⟩

/-- A worker that has just been started and is cancelled at once. -/
theorem refresh_hands_out_run :
    ∃ n, Ended (states Call.run (run .idle [.start true]).cancel alternating n) ∧
      Finished (states Call.run (run .idle [.start true]).cancel alternating n) :=
  (refresh_hands_out [.start true]).2.2 rfl alternating fair_alternating

end C1auncher.Package.GuiRefreshEnds
