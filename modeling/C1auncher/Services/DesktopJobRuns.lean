import C1auncher.Services.DesktopJobs
import C1auncher.Services.UpdateCheckText

/-!
What a job of the desktop returns, and whom it signals, in any run.
-/

namespace C1auncher.Services.DesktopJobRuns

open Utf8Bytes Traces Services.DesktopJobs List

def isStart : Event → Bool
  | .started .. => true
  | _ => false

def recent (log : List Event) : List Event := since isStart log

def startOf (log : List Event) : Option (Kind × Int64) :=
  log.findSome? fun e => match e with
    | .started kind now => some (kind, now)
    | _ => none

/-- All that was written since the last start. -/
def written : List Event → Bytes
  | [] => []
  | .started .. :: _ => []
  | .wrote bytes :: log => written log ++ bytes
  | _ :: log => written log

def graceEnd (kind : Kind) (now : Int64) : Int64 :=
  after (if now < 0 then 0 else now) (graceMs kind)

/-- The child has not been reaped; it is killed only once, after the grace that a cancellation
left it. -/
def AllowedSignal (signal : Signal) (now : Int64) (past : List Event) : Prop :=
  startOf past ≠ none ∧ (∀ status, .reaped status ∉ recent past) ∧
    (signal = .kill → (∀ t, .signalled .kill t ∉ recent past) ∧
      ∃ kind t c, startOf past = some (kind, t) ∧ .cancelled c ∈ recent past ∧
        graceEnd kind c ≤ now)

/-- The child exited with 0 and was reaped before the deadline; nobody cancelled, nobody writes
any more, and this is all that was written. It is the first success. -/
def AllowedSuccess (output : Bytes) (now : Int64) (past : List Event) : Prop :=
  (∃ kind t, startOf past = some (kind, t) ∧ now < after t (timeoutMs kind)) ∧
    .exited (some 0) ∈ recent past ∧ .reaped (some 0) ∈ recent past ∧ .closed ∈ recent past ∧
    (∀ c, .cancelled c ∉ recent past) ∧ output = written past ∧ output.length ≤ 255 ∧
    0 ∉ output ∧ ∀ o t, .returned 1 o t ∉ recent past

def Allowed : Event → List Event → Prop
  | .signalled signal now, past => AllowedSignal signal now past
  | .returned result output now, past => result = 1 → AllowedSuccess output now past
  | _, _ => True

structure Base (w : World) : Prop where
  started : ∃ t, startOf w.log = some (w.job.kind, t) ∧ (w.job.cancelled = false →
    w.job.deadline = after t (timeoutMs w.job.kind) ∧ ∀ c, .cancelled c ∉ recent w.log)
  cancelled : w.job.cancelled = true →
    ∃ c, .cancelled c ∈ recent w.log ∧ w.job.deadline = graceEnd w.job.kind c
  killed : w.job.killed = false → ∀ t, .signalled .kill t ∉ recent w.log
  output : w.job.failed = false → written w.log = w.job.output ++ w.pipe ∧
    w.job.output.length ≤ 255 ∧ 0 ∉ w.job.output
  eof : w.job.failed = false → w.job.fd = false → w.pipe = [] ∧ w.writers = false
  closed : w.writers = false → .closed ∈ recent w.log
  first : ∀ o t, .returned 1 o t ∉ recent w.log

/-- What is true of a child that has not been waited for. -/
structure Owned (w : World) : Prop where
  unreaped : ∀ status, .reaped status ∉ recent w.log
  ended : ∀ status, w.child = .ended status → .exited status ∈ recent w.log

structure Live (w : World) : Prop where
  always : Always Allowed w.log
  base : Base w
  owned : w.job.pid = true → Owned w

variable {w : World} {now : Int64}

lemma recent_cons {e : Event} (h : isStart e = false) (log : List Event) :
    recent (e :: log) = e :: recent log :=
  since_cons h log

lemma mem_recent {e e' : Event} {log : List Event} (h : isStart e = false) (hne : e' ≠ e) :
    e' ∈ recent (e :: log) ↔ e' ∈ recent log :=
  mem_since_of_ne h hne

/-- An event the job does not know of: nobody was signalled, reaped or asked to end. -/
def Outside : Event → Prop
  | .wrote _ | .closed | .exited _ => True
  | _ => False

lemma Outside.isStart {e : Event} (h : Outside e) : isStart e = false := by
  cases e <;> first | rfl | cases h

lemma Live.outside (h : Live w) {e : Event} (he : Outside e) {pipe : Bytes} {writers : Bool}
    {child : Child}
    (houtput : w.job.failed = false → written w.log = w.job.output ++ w.pipe →
      written (e :: w.log) = w.job.output ++ pipe)
    (heof : w.job.failed = false → w.job.fd = false → pipe = [] ∧ writers = false)
    (hclosed : writers = false → .closed ∈ recent (e :: w.log))
    (hended : w.job.pid = true → ∀ status, child = .ended status →
      .exited status ∈ recent (e :: w.log)) :
    Live ⟨w.job, pipe, writers, child, e :: w.log⟩ := by
  have hmem : ∀ e', ¬Outside e' → (e' ∈ recent (e :: w.log) ↔ e' ∈ recent w.log) := fun e' he' =>
    mem_recent he.isStart fun heq => he' (heq ▸ he)
  have hstart : startOf (e :: w.log) = startOf w.log := by
    cases e <;> first | rfl | cases he
  have hallowed : Allowed e w.log := by
    cases e <;> trivial
  obtain ⟨t, hkind, hdeadline⟩ := h.base.started
  refine ⟨⟨hallowed, h.always⟩, ⟨⟨t, hstart.trans hkind, fun hc => ?_⟩, fun hc => ?_,
    fun hk t' => ?_, fun hf => ?_, heof, hclosed, fun o t' => ?_⟩,
    fun hp => ⟨fun status => ?_, hended hp⟩⟩
  · obtain ⟨h1, h2⟩ := hdeadline hc
    exact ⟨h1, fun c => by rw [hmem _ id]; exact h2 c⟩
  · obtain ⟨c, h1, h2⟩ := h.base.cancelled hc
    exact ⟨c, (hmem _ id).mpr h1, h2⟩
  · rw [hmem _ id]
    exact h.base.killed hk t'
  · obtain ⟨h1, h2⟩ := h.base.output hf
    exact ⟨houtput hf h1, h2⟩
  · rw [hmem _ id]
    exact h.base.first o t'
  · rw [hmem _ id]
    exact (h.owned hp).unreaped status

/-! ### The child -/

lemma Live.act (h : Live w) (a : Act) : Live (w.act a) := by
  cases a with
  | write bytes =>
    unfold World.act
    dsimp only
    split_ifs with hwriters
    · refine h.outside (e := .wrote bytes) trivial (fun _ hw => ?_) (fun hf hfd => ?_)
        (fun hc => ?_) fun hp status hs => ?_
      · rw [written, hw, append_assoc]
      · have := (h.base.eof hf hfd).2
        rw [hwriters] at this
        cases this
      · rw [hwriters] at hc
        cases hc
      · rw [recent_cons rfl]
        exact mem_cons_of_mem _ ((h.owned hp).ended status hs)
    · exact h
  | close =>
    unfold World.act
    dsimp only
    split_ifs with hwriters
    · refine h.outside (e := .closed) trivial (fun _ hw => hw) (fun hf hfd => ?_) (fun _ => ?_)
        fun hp status hs => ?_
      · exact ⟨(h.base.eof hf hfd).1, rfl⟩
      · rw [recent_cons rfl]
        exact mem_cons_self
      · rw [recent_cons rfl]
        exact mem_cons_of_mem _ ((h.owned hp).ended status hs)
    · exact h
  | exit status =>
    unfold World.act
    dsimp only
    split_ifs with hchild
    · refine h.outside (e := .exited status) trivial (fun _ hw => hw) h.base.eof
        (fun hc => ?_) fun hp status' hs => ?_
      · rw [recent_cons rfl]
        exact mem_cons_of_mem _ (h.base.closed hc)
      cases hs
      rw [recent_cons rfl]
      exact mem_cons_self
    · exact h

lemma Live.acts (h : Live w) (as : List Act) : Live (w.acts as) := by
  induction as generalizing w with
  | nil => exact h
  | cons a as ih => exact ih (h.act a)

lemma job_acts (w : World) (as : List Act) : (w.acts as).job = w.job := by
  induction as generalizing w with
  | nil => rfl
  | cons a as ih =>
    refine (ih (w.act a)).trans ?_
    cases a <;> dsimp only [World.act] <;> split_ifs <;> rfl

/-! ### The job -/

def OfCancel : Event → Prop
  | .cancelled _ | .signalled .term _ => True
  | _ => False

lemma Live.cancel (h : Live w) (now : Int64) : Live (w.cancel now) := by
  unfold World.cancel
  by_cases hskip : (!w.job.pid || w.job.cancelled) = true
  · rw [if_pos hskip]
    exact h
  rw [if_neg hskip]
  simp only [Bool.or_eq_true, Bool.not_eq_true', not_or, Bool.not_eq_false,
    Bool.not_eq_true] at hskip
  obtain ⟨hpid, hcancelled⟩ := hskip
  obtain ⟨t, hkind, -⟩ := h.base.started
  have howned := h.owned hpid
  have hmem : ∀ e, ¬OfCancel e →
      (e ∈ recent (.signalled .term now :: .cancelled now :: w.log) ↔ e ∈ recent w.log) := by
    intro e he
    have h1 : e ≠ .cancelled now := by
      rintro rfl
      exact he trivial
    have h2 : e ≠ .signalled .term now := by
      rintro rfl
      exact he trivial
    rw [mem_recent rfl h2, mem_recent rfl h1]
  have hsignal : AllowedSignal .term now (.cancelled now :: w.log) :=
    ⟨fun hnone => absurd (hkind.symm.trans hnone) nofun, fun status => by
      rw [recent_cons rfl, mem_cons, or_iff_right nofun]
      exact howned.unreaped status, nofun⟩
  dsimp only [World.signalOwnedChild, World.tell]
  rw [if_pos hpid]
  refine ⟨⟨hsignal, trivial, h.always⟩, ⟨⟨t, hkind, nofun⟩, fun _ => ⟨now, ?_, rfl⟩,
    fun hk t' => ?_, h.base.output, h.base.eof, fun hw => ?_, fun o t' => ?_⟩,
    fun _ => ⟨fun status => ?_, fun status hs => ?_⟩⟩
  · change Event.cancelled now ∈ recent (.signalled .term now :: .cancelled now :: w.log)
    rw [recent_cons rfl, recent_cons rfl]
    exact mem_cons_of_mem _ mem_cons_self
  · rw [hmem _ id]
    exact h.base.killed hk t'
  · exact (hmem _ id).mpr (h.base.closed hw)
  · rw [hmem _ id]
    exact h.base.first o t'
  · rw [hmem _ id]
    exact howned.unreaped status
  · exact (hmem _ id).mpr (howned.ended status hs)

lemma Live.fail (h : Live w) (now : Int64) : Live (w.fail now) := by
  have hfailed : Live { w with job := { w.job with failed := true } } :=
    ⟨h.always, { h.base with output := nofun, eof := nofun }, fun hp => ⟨(h.owned hp).unreaped,
      (h.owned hp).ended⟩⟩
  exact hfailed.cancel now

lemma Live.take (h : Live w) {buffer rest : Bytes} (hpipe : w.pipe = buffer ++ rest)
    (hfd : w.job.fd = true) (hfailed : w.job.failed = false) (now : Int64) :
    Live ({ w with pipe := rest }.take buffer now) := by
  obtain ⟨hwritten, hlen, hzero⟩ := h.base.output hfailed
  unfold World.take
  dsimp only
  split_ifs with hbad
  · have hfailed' : Live { w with pipe := rest, job := { w.job with failed := true } } :=
      ⟨h.always, { h.base with output := nofun, eof := nofun }, fun hp => ⟨(h.owned hp).unreaped,
        (h.owned hp).ended⟩⟩
    exact hfailed'.cancel now
  simp only [outputCapacity, not_or, not_le, not_lt] at hbad
  refine ⟨h.always, { h.base with output := fun _ => ⟨?_, ?_, ?_⟩, eof := fun _ hf => ?_ },
    fun hp => ⟨(h.owned hp).unreaped, (h.owned hp).ended⟩⟩
  · rw [hwritten, hpipe, append_assoc]
  · rw [length_append]
    omega
  · rw [mem_append, not_or]
    exact ⟨hzero, hbad.2.2⟩
  · rw [hfd] at hf
    cases hf

lemma Live.drain (reads : ℕ → Moment) (now : Int64) (left : ℕ) (h : Live w) :
    Live (World.drain reads now left w) := by
  induction left generalizing w with
  | zero => exact h
  | succ left ih =>
    rw [World.drain]
    by_cases hstop : (!w.job.fd || w.job.failed) = true
    · rw [if_pos hstop]
      exact h
    rw [if_neg hstop]
    simp only [Bool.or_eq_true, Bool.not_eq_true', not_or, Bool.not_eq_false,
      Bool.not_eq_true] at hstop
    have hacts := h.acts (reads left).acts
    have hjob : (w.acts (reads left).acts).job = w.job := job_acts w _
    dsimp only
    generalize w.acts (reads left).acts = v at hacts hjob
    cases (reads left).how with
    | interrupted => exact ih hacts
    | failed => exact hacts.fail now
    | ok =>
      dsimp only
      by_cases hempty : v.pipe = []
      · rw [if_pos hempty]
        by_cases hwriters : v.writers = true
        · rw [if_pos hwriters]
          exact hacts
        rw [if_neg hwriters]
        exact ⟨hacts.always, { hacts.base with eof := fun _ _ => ⟨hempty, by simpa using hwriters⟩
          }, fun hp => ⟨(hacts.owned hp).unreaped, (hacts.owned hp).ended⟩⟩
      · rw [if_neg hempty]
        exact ih (hacts.take (take_append_drop _ _).symm (hjob ▸ hstop.1) (hjob ▸ hstop.2)
          now)

lemma Live.overdue (h : Live w) (now : Int64) : Live (w.overdue now) := by
  unfold World.overdue
  by_cases hdeadline : w.job.deadline ≤ now
  swap
  · rw [if_neg hdeadline]
    exact h
  rw [if_pos hdeadline]
  by_cases hcancelled : w.job.cancelled = true
  swap
  · rw [if_pos (by simpa using hcancelled)]
    exact h.cancel now
  rw [if_neg (by simpa using hcancelled)]
  by_cases hkilled : w.job.killed = true
  · rw [if_neg (by simpa using hkilled)]
    exact h
  rw [if_pos (by simpa using hkilled)]
  rw [Bool.not_eq_true] at hkilled
  obtain ⟨t, hkind, hdead⟩ := h.base.started
  obtain ⟨c, hc, hgrace⟩ := h.base.cancelled hcancelled
  dsimp only [World.signalOwnedChild]
  by_cases hpid : w.job.pid = true
  swap
  · rw [if_neg hpid]
    exact ⟨h.always, ⟨⟨t, hkind, hdead⟩, fun _ => ⟨c, hc, hgrace⟩, nofun, h.base.output, h.base.eof,
      h.base.closed, h.base.first⟩, fun hp => absurd hp hpid⟩
  rw [if_pos hpid]
  dsimp only [World.tell]
  have howned := h.owned hpid
  have hmem : ∀ e, e ≠ .signalled .kill now →
      (e ∈ recent (.signalled .kill now :: w.log) ↔ e ∈ recent w.log) := fun e =>
    mem_recent rfl
  have hsignal : AllowedSignal .kill now w.log :=
    ⟨fun hnone => absurd (hkind.symm.trans hnone) nofun, howned.unreaped,
      fun _ => ⟨h.base.killed hkilled, w.job.kind, t, c, hkind, hc, hgrace ▸ hdeadline⟩⟩
  refine ⟨⟨hsignal, h.always⟩,
    ⟨⟨t, hkind, fun hc' => absurd (hcancelled.symm.trans hc') (by decide)⟩,
      fun _ => ⟨c, (hmem _ (by simp)).mpr hc, hgrace⟩, nofun, h.base.output, h.base.eof,
    fun hw => (hmem _ (by simp)).mpr (h.base.closed hw), fun o t' => ?_⟩,
    fun _ => ⟨fun status => ?_, fun status hs => ?_⟩⟩
  · rw [hmem _ (by simp)]
    exact h.base.first o t'
  · rw [hmem _ (by simp)]
    exact howned.unreaped status
  · exact (hmem _ (by simp)).mpr (howned.ended status hs)

/-! ### What a loop leaves of the record -/

/-- No later start, so that what has happened recently still has. -/
def Keeps (w w' : World) : Prop := ∀ e ∈ recent w.log, e ∈ recent w'.log

lemma keeps_tell (w : World) {e : Event} (h : isStart e = false) : Keeps w (w.tell e) := by
  intro e' he'
  change e' ∈ recent (e :: w.log)
  rw [recent_cons h]
  exact mem_cons_of_mem _ he'

lemma keeps_act (w : World) (a : Act) : Keeps w (w.act a) := by
  cases a with
  | write bytes =>
    dsimp only [World.act]
    split_ifs
    · exact fun e he => keeps_tell w (e := .wrote bytes) rfl e he
    · exact fun _ => id
  | close =>
    dsimp only [World.act]
    split_ifs
    · exact fun e he => keeps_tell w (e := .closed) rfl e he
    · exact fun _ => id
  | exit status =>
    dsimp only [World.act]
    split_ifs
    · exact fun e he => keeps_tell w (e := .exited status) rfl e he
    · exact fun _ => id

lemma keeps_acts (w : World) (as : List Act) : Keeps w (w.acts as) := by
  induction as generalizing w with
  | nil => exact fun _ => id
  | cons a as ih => exact fun e he => ih (w.act a) e (keeps_act w a e he)

lemma cancel_of_pid (h : w.job.pid = false) (now : Int64) : w.cancel now = w := by
  rw [World.cancel, if_pos (by rw [h]; rfl)]

lemma fail_of_pid (h : w.job.pid = false) (now : Int64) :
    w.fail now = { w with job := { w.job with failed := true } } :=
  cancel_of_pid (w := { w with job := { w.job with failed := true } }) h now

lemma take_of_pid (h : w.job.pid = false) (buffer : Bytes) (now : Int64) :
    (w.take buffer now).log = w.log ∧ (w.take buffer now).job.pid = false := by
  dsimp only [World.take]
  split_ifs
  · rw [fail_of_pid h]
    exact ⟨rfl, h⟩
  · exact ⟨rfl, h⟩

lemma drain_reaped (reads : ℕ → Moment) (now : Int64) (left : ℕ) (h : w.job.pid = false) :
    Keeps w (World.drain reads now left w) ∧
      (World.drain reads now left w).job.pid = false := by
  induction left generalizing w with
  | zero => exact ⟨fun _ => id, h⟩
  | succ left ih =>
    rw [World.drain]
    by_cases hstop : (!w.job.fd || w.job.failed) = true
    · rw [if_pos hstop]
      exact ⟨fun _ => id, h⟩
    rw [if_neg hstop]
    have hkeeps := keeps_acts w (reads left).acts
    have hpid : (w.acts (reads left).acts).job.pid = false := by rw [job_acts]; exact h
    dsimp only
    generalize w.acts (reads left).acts = v at hkeeps hpid
    cases (reads left).how with
    | interrupted =>
      obtain ⟨h1, h2⟩ := ih hpid
      exact ⟨fun e he => h1 e (hkeeps e he), h2⟩
    | failed =>
      dsimp only
      rw [fail_of_pid hpid]
      exact ⟨hkeeps, hpid⟩
    | ok =>
      dsimp only
      split_ifs
      · exact ⟨hkeeps, hpid⟩
      · exact ⟨hkeeps, hpid⟩
      obtain ⟨hlog, hpid'⟩ := take_of_pid (w := { v with pipe := v.pipe.drop _ }) hpid
        (v.pipe.take (min outputCapacity (max 1 (reads left).limit))) now
      obtain ⟨h1, h2⟩ := ih hpid'
      refine ⟨fun e he => h1 e ?_, h2⟩
      rw [hlog]
      exact hkeeps e he

/-! ### Polls -/

lemma Live.reaped (h : Live w) (status : Option UInt8) :
    Live ({ w with job := { w.job with pid := false }, child := .none }.tell
      (.reaped status)) := by
  have hmem : ∀ e, e ≠ .reaped status →
      (e ∈ recent (.reaped status :: w.log) ↔ e ∈ recent w.log) := fun e => mem_recent rfl
  obtain ⟨t, hkind, hdead⟩ := h.base.started
  refine ⟨⟨trivial, h.always⟩, ⟨⟨t, hkind, fun hc => ?_⟩, fun hc => ?_, fun hk t' => ?_,
    h.base.output, h.base.eof, fun hw => (hmem _ (by simp)).mpr (h.base.closed hw), fun o t' => ?_⟩,
    nofun⟩
  · obtain ⟨h1, h2⟩ := hdead hc
    exact ⟨h1, fun c => by rw [World.tell, hmem _ (by simp)]; exact h2 c⟩
  · obtain ⟨c, h1, h2⟩ := h.base.cancelled hc
    exact ⟨c, (hmem _ (by simp)).mpr h1, h2⟩
  · rw [World.tell, hmem _ (by simp)]
    exact h.base.killed hk t'
  · rw [World.tell, hmem _ (by simp)]
    exact h.base.first o t'

structure Kept (w : World) : Prop where
  always : Always Allowed w.log
  live : w.job.pid = true → Live w

lemma Live.finish (h : Live { w with job := { w.job with pid := false } })
    (status : Option (Option UInt8)) (hstatus : status = some (some 0) →
      .exited (some 0) ∈ recent w.log ∧ .reaped (some 0) ∈ recent w.log)
    (reads : ℕ → Moment) (now : Int64) : Kept (w.finish status reads now) := by
  have hdrained := h.drain reads now 4
  obtain ⟨hkeeps, hpid⟩ := drain_reaped (w := { w with job := { w.job with pid := false } }) reads
    now 4 rfl
  unfold World.finish
  dsimp only
  generalize World.drain reads now 4 { w with job := { w.job with pid := false } } = v
    at hdrained hkeeps hpid
  refine ⟨⟨fun hresult => ?_, hdrained.always⟩, fun hp => absurd (hpid.symm.trans hp) (by decide)⟩
  have hsuccess : (status == some (some 0) && now < v.job.deadline && !v.job.cancelled &&
      !v.job.failed && !v.job.fd) = true := by
    by_contra hno
    rw [if_neg hno] at hresult
    cases hresult
  rw [if_pos hsuccess]
  simp only [Bool.and_eq_true, beq_iff_eq, decide_eq_true_eq, Bool.not_eq_true'] at hsuccess
  obtain ⟨⟨⟨⟨hzero, hnow⟩, hcancelled⟩, hfailed⟩, hfd⟩ := hsuccess
  obtain ⟨t, hkind, hdead⟩ := hdrained.base.started
  obtain ⟨hdeadline, hnone⟩ := hdead hcancelled
  obtain ⟨hwritten, hlen, hnul⟩ := hdrained.base.output hfailed
  obtain ⟨hpipe, hwriters⟩ := hdrained.base.eof hfailed hfd
  rw [hpipe, append_nil] at hwritten
  exact ⟨⟨v.job.kind, t, hkind, hdeadline ▸ hnow⟩, hkeeps _ (hstatus hzero).1,
    hkeeps _ (hstatus hzero).2, hdrained.base.closed hwriters, hnone, hwritten.symm, hlen, hnul,
    hdrained.base.first⟩

lemma Live.unowned (h : Live w) : Live { w with job := { w.job with pid := false } } :=
  ⟨h.always, { h.base with }, nofun⟩

lemma Live.running (h : Live w) (now : Int64) : Live (w.tell (.returned 0 [] now)) := by
  have hmem : ∀ e, e ≠ .returned 0 [] now →
      (e ∈ recent (.returned 0 [] now :: w.log) ↔ e ∈ recent w.log) := fun e => mem_recent rfl
  obtain ⟨t, hkind, hdead⟩ := h.base.started
  refine ⟨⟨nofun, h.always⟩, ⟨⟨t, hkind, fun hc => ?_⟩, fun hc => ?_, fun hk t' => ?_,
    h.base.output, h.base.eof, fun hw => (hmem _ (by simp)).mpr (h.base.closed hw), fun o t' => ?_⟩,
    fun hp => ⟨fun status => ?_, fun status hs => ?_⟩⟩
  · obtain ⟨h1, h2⟩ := hdead hc
    exact ⟨h1, fun c => by rw [World.tell, hmem _ (by simp)]; exact h2 c⟩
  · obtain ⟨c, h1, h2⟩ := h.base.cancelled hc
    exact ⟨c, (hmem _ (by simp)).mpr h1, h2⟩
  · rw [World.tell, hmem _ (by simp)]
    exact h.base.killed hk t'
  · rw [World.tell, hmem _ (by simp)]
    exact h.base.first o t'
  · rw [World.tell, hmem _ (by simp)]
    exact (h.owned hp).unreaped status
  · exact (hmem _ (by simp)).mpr ((h.owned hp).ended status hs)

lemma Kept.poll (h : Kept w) (wait : Moment) (reads : ℕ → Moment) (now : Int64) :
    Kept (w.poll wait reads now) := by
  unfold World.poll
  by_cases hpid : w.job.pid = true
  swap
  · rw [if_pos (by simpa using hpid)]
    exact ⟨⟨nofun, h.always⟩, fun hp => absurd hp hpid⟩
  rw [if_neg (by simpa using hpid)]
  have hacts := (h.live hpid).acts wait.acts
  have hpid' : (w.acts wait.acts).job.pid = true := by rw [job_acts]; exact hpid
  have hrunning : Kept (((World.drain reads now 4 (w.acts wait.acts)).overdue now).tell
      (.returned 0 [] now)) := by
    have hlive := ((hacts.drain reads now 4).overdue now).running now
    exact ⟨hlive.always, fun _ => hlive⟩
  have hgone : Kept ((w.acts wait.acts).finish none reads now) :=
    hacts.unowned.finish none nofun reads now
  unfold World.waitpid
  dsimp only
  generalize w.acts wait.acts = v at hacts hpid' hrunning hgone
  cases wait.how with
  | interrupted => exact hrunning
  | failed => exact hgone
  | ok =>
    rcases hchild : v.child with _ | _ | status
    · exact hgone
    · exact hrunning
    have hended := (hacts.owned hpid').ended status hchild
    let u : World := { v with child := .none }.tell (.reaped status)
    have hreaped : Live { u with job := { u.job with pid := false } } := hacts.reaped status
    refine hreaped.finish (some status) (fun hstatus => ?_) reads now
    cases hstatus
    exact ⟨keeps_tell v rfl _ hended, by
      change _ ∈ recent (.reaped (some 0) :: v.log)
      rw [recent_cons rfl]
      exact mem_cons_self⟩

/-! ### Runs -/

lemma kept_idle : Kept .idle := ⟨trivial, nofun⟩

lemma Kept.start (h : Kept w) (kind : Kind) (now : Int64) (forked : Bool) :
    Kept (w.start kind now forked) := by
  unfold World.start
  split_ifs
  · exact h
  have hlive : Live ({ w with
      job := { Job.init kind with
        pid := true, fd := true, deadline := after now (timeoutMs kind) }
      pipe := [], writers := true, child := .running }.tell (.started kind now)) :=
    ⟨⟨trivial, h.always⟩, ⟨⟨now, rfl, fun _ => ⟨rfl, nofun⟩⟩, nofun, fun _ => nofun,
      fun _ => ⟨rfl, Nat.zero_le _, nofun⟩, nofun, nofun, nofun⟩, fun _ => ⟨nofun, nofun⟩⟩
  exact ⟨hlive.always, fun _ => hlive⟩

lemma Kept.cancel (h : Kept w) (now : Int64) : Kept (w.cancel now) := by
  by_cases hpid : w.job.pid = true
  · have hlive := (h.live hpid).cancel now
    exact ⟨hlive.always, fun _ => hlive⟩
  · rw [cancel_of_pid (by simpa using hpid)]
    exact h

lemma Kept.act (h : Kept w) (a : Act) : Kept (w.act a) := by
  by_cases hpid : w.job.pid = true
  · have hlive := (h.live hpid).act a
    exact ⟨hlive.always, fun _ => hlive⟩
  have hjob : (w.act a).job = w.job := job_acts w [a]
  refine ⟨?_, fun hp => absurd (hjob ▸ hp) hpid⟩
  cases a <;> dsimp only [World.act] <;> split_ifs <;>
    first | exact ⟨trivial, h.always⟩ | exact h.always

lemma Kept.call (h : Kept w) (call : Call) : Kept (call.run w) := by
  cases call with
  | start kind now forked => exact h.start kind now forked
  | cancel now => exact h.cancel now
  | poll wait reads now => exact h.poll wait reads now
  | happen a => exact h.act a

lemma kept_run (calls : List Call) : Kept (run calls) := by
  unfold run
  have hstart := kept_idle
  generalize World.idle = w at hstart
  induction calls generalizing w with
  | nil => exact hstart
  | cons call calls ih => exact ih _ (hstart.call call)

open C1auncher.CString C1auncher.Services.UpdateCheckText in
/-- **A check reaches the desktop unchanged.** In any run of jobs, however the output comes in
pieces, calls are interrupted and the child and those who hold its pipe behave: signals go to a
child that is not reaped, a kill once only after a cancellation and its grace; a poll succeeds once
a start at most, in time, for a child that exited with 0 and was not cancelled, and with all its
output. And the parser accepts what the updater prints of a checked release and nothing else. -/
theorem update_check_reaches_desktop (calls : List Call) :
    (∀ newer older signal now, (run calls).log = newer ++ .signalled signal now :: older →
      AllowedSignal signal now older) ∧
    (∀ newer older output now, (run calls).log = newer ++ .returned 1 output now :: older →
      AllowedSuccess output now older) ∧
    ∀ (text : Text) (outputs : UInt64 × Bool) (sequence : UInt64) (available : Bool),
      (updateParse text outputs = (true, sequence, available) ↔
        ∃ version, sequence ≠ 0 ∧ safeToken version ∧
          text = checkConfigured sequence version available) ∧
      ((updateParse text outputs).1 = false → (updateParse text outputs).2 = outputs) := by
  have halways := (kept_run calls).always
  refine ⟨fun newer older signal now hlog => ?_, fun newer older output now hlog => ?_,
    updateParse_iff⟩
  · rw [hlog] at halways
    exact halways.apply
  · rw [hlog] at halways
    exact halways.apply rfl

/-- A child that writes and ends between two polls. -/
example : (run [.start .core 0 true, .happen (.write [0x61, 0x0a]), .poll ⟨[], .ok, 0⟩
    (fun _ => ⟨[], .ok, 1⟩) 10, .happen (.exit (some 0)), .happen .close, .poll ⟨[], .ok, 0⟩
    (fun _ => ⟨[], .ok, 256⟩) 20]).log.head? = some (.returned 1 [0x61, 0x0a] 20) := by
  decide

end C1auncher.Services.DesktopJobRuns
