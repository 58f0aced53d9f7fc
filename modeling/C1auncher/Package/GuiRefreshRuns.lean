import C1auncher.Package.GuiRefresh

/-!
What a refresh hands out: the worker stands where its replies and what it has written say, and the
program has read what was written.
-/

namespace C1auncher.Package.GuiRefreshRuns

open Utf8Bytes Traces Package.GuiRefresh List

def isStart : Event → Bool
  | .started => true
  | _ => false

def recent (log : List Event) : List Event := since isStart log

/-- The replies the worker has made since the last start, in order. -/
def published : List Event → List Reply
  | [] => []
  | .started :: _ => []
  | .published reply :: log => published log ++ [reply]
  | _ :: log => published log

/-- All that was written since the last start. -/
def written : List Event → Bytes
  | [] => []
  | .started :: _ => []
  | .wrote bytes :: log => written log ++ bytes
  | _ :: log => written log

def Terminal (result : ℤ) : Prop := result = 1 ∨ result = -1

/-- The first reply is handed out once, all of it; the last one with success, when the worker has
exited with 0 and nobody cancelled; and a job ends once, with its worker reaped. -/
def AllowedReturn (result : ℤ) (buffer : Bytes) (past : List Event) : Prop :=
  (result = 2 → (∃ first rest, published past = first :: rest ∧ first.initial = true ∧
      buffer = first.bytes) ∧ ∀ b, .returned 2 b ∉ recent past) ∧
    (result = 1 → (∃ first last, published past = [first, last] ∧ last.initial = false ∧
      buffer = last.bytes) ∧ .exited (some 0) ∈ recent past ∧ .cancelled ∉ recent past) ∧
    (Terminal result → (∃ status, .reaped status ∈ recent past) ∧
      ∀ r b, Terminal r → .returned r b ∉ recent past)

def Allowed : Event → List Event → Prop
  | .returned result buffer, past => AllowedReturn result buffer past
  | _, _ => True

/-- At most two replies, the first one marked as such. -/
def Ordered : List Reply → Prop
  | [] => True
  | [first] => first.initial = true
  | [first, last] => first.initial = true ∧ last.initial = false
  | _ => False

def stream (replies : List Reply) : Bytes := replies.flatMap Reply.bytes

def Standing (replies : List Reply) (sent : Bytes) : Worker → Prop
  | .loading => replies = [] ∧ sent = []
  | .checking reply n => n ≤ replySize ∧ ∃ earlier, replies = earlier ++ [reply] ∧
      sent = stream earlier ++ reply.bytes.take n
  | .writing reply n => n < replySize ∧ ∃ earlier, replies = earlier ++ [reply] ∧
      sent = stream earlier ++ reply.bytes.take n
  | .refreshing => ∃ first, replies = [first] ∧ sent = first.bytes
  | .ended _ | .gone => sent <+: stream replies

def Alive : Worker → Prop
  | .ended _ | .gone => False
  | _ => True

/-- What the program knows of what has happened: what it has read is what was written, behind the
first reply once that one has been consumed. -/
structure Reading (w : World) : Prop where
  read : ∃ front, written w.log = front ++ w.job.buffer ++ w.pipe ∧
    (.consumed ∉ recent w.log ∧ front = [] ∨ .consumed ∈ recent w.log ∧
      ∃ first rest, published w.log = first :: rest ∧ front = first.bytes)
  buffered : w.job.buffer.length ≤ replySize
  bounded : w.pipe.length ≤ capacity
  handed : ∀ b, .returned 2 b ∈ recent w.log → .consumed ∈ recent w.log
  running : ∀ r b, Terminal r → .returned r b ∉ recent w.log
  cancelled : w.job.cancelling = false → .cancelled ∉ recent w.log

/-- In the middle of a job. -/
structure Live (w : World) : Prop where
  always : Always Allowed w.log
  ordered : Ordered (published w.log)
  standing : Standing (published w.log) (written w.log) w.worker
  alive : Alive w.worker → ∀ status, .exited status ∉ recent w.log
  ended : ∀ status, w.worker = .ended status → .exited status ∈ recent w.log
  complete : .exited (some 0) ∈ recent w.log →
    ∃ first last, published w.log = [first, last] ∧ written w.log = first.bytes ++ last.bytes
  reading : Reading w

variable {w : World}

variable {e : Event} {reply : Reply} {P : World → Prop}

lemma recent_cons (h : isStart e = false) (log : List Event) :
    recent (e :: log) = e :: recent log :=
  since_cons h log

lemma mem_recent {e' : Event} {log : List Event} (h : isStart e = false) (hne : e' ≠ e) :
    e' ∈ recent (e :: log) ↔ e' ∈ recent log :=
  mem_since_of_ne h hne

/-! ### Replies -/

lemma length_le32 (n : UInt32) : (le32 n).length = 4 := rfl

lemma length_bytes (r : Reply) : r.bytes.length = replySize := by
  simp only [Reply.bytes, length_append, length_le32, r.index.property]
  rfl

lemma initialField_bytes (r : Reply) : initialField r.bytes = r.initial := by
  have hfield : field r.bytes 12 = le32 (flag r.initial) := by
    simp only [field, Reply.bytes, append_assoc]
    rfl
  rw [initialField, hfield]
  cases r.initial <;> rfl

lemma capacity_lt : capacity < replySize := by decide

lemma stream_append (a b : List Reply) : stream (a ++ b) = stream a ++ stream b :=
  flatMap_append

lemma stream_singleton (r : Reply) : stream [r] = r.bytes := by
  simp [stream]

lemma Standing.begins {replies : List Reply} {sent : Bytes} {worker : Worker}
    (h : Standing replies sent worker) : sent <+: stream replies := by
  have hreply : ∀ (earlier : List Reply) (reply : Reply) (n : ℕ),
      stream earlier ++ reply.bytes.take n <+: stream (earlier ++ [reply]) := by
    intro earlier reply n
    rw [stream_append, stream_singleton]
    exact prefix_append_right_inj _ |>.mpr ( take_prefix _ _)
  cases worker with
  | loading =>
    rw [h.1, h.2]
    exact prefix_rfl
  | checking reply n =>
    obtain ⟨-, earlier, rfl, rfl⟩ := h
    exact hreply earlier reply n
  | writing reply n =>
    obtain ⟨-, earlier, rfl, rfl⟩ := h
    exact hreply earlier reply n
  | refreshing =>
    obtain ⟨first, rfl, rfl⟩ := h
    rw [stream_singleton]
  | ended status => exact h
  | gone => exact h

/-! ### The worker -/

def OfWorker : Event → Prop
  | .published _ | .wrote _ | .exited _ => True
  | _ => False

lemma OfWorker.isStart (h : OfWorker e) : isStart e = false := by
  cases e <;> first | rfl | cases h

lemma Reading.worker (h : Reading w) (he : OfWorker e) {pipe bytes : Bytes}
    {worker : Worker} {more : List Reply} (hpipe : pipe = w.pipe ++ bytes)
    (hpublished : published (e :: w.log) = published w.log ++ more)
    (hwritten : written (e :: w.log) = written w.log ++ bytes) (hroom : pipe.length ≤ capacity) :
    Reading ⟨w.job, pipe, worker, e :: w.log⟩ := by
  have hmem : ∀ e', ¬OfWorker e' → (e' ∈ recent (e :: w.log) ↔ e' ∈ recent w.log) :=
    fun e' he' => mem_recent he.isStart fun heq => he' (heq ▸ he)
  refine ⟨?_, h.buffered, hroom, fun b hb => ?_, fun r b hr => ?_, fun hc => ?_⟩
  · obtain ⟨front, hread, hfront⟩ := h.read
    refine ⟨front, ?_, ?_⟩
    · rw [hwritten, hread, hpipe, append_assoc]
    rw [hmem _ id]
    refine hfront.imp_right fun ⟨hconsumed, first, rest, hfirst, hbytes⟩ =>
      ⟨hconsumed, first, rest ++ more, ?_, hbytes⟩
    rw [hpublished, hfirst]
    rfl
  · exact (hmem _ id).mpr (h.handed b ((hmem _ id).mp hb))
  · rw [hmem _ id]
    exact h.running r b hr
  · rw [hmem _ id]
    exact h.cancelled hc

lemma Live.exit (h : Live w) (status : Option UInt8) (hzero : status = some 0 →
    ∃ first last, published w.log = [first, last] ∧ written w.log = first.bytes ++ last.bytes) :
    Live (w.exit status) := by
  refine ⟨⟨trivial, h.always⟩, h.ordered, h.standing.begins, nofun, fun status' hs => ?_,
    fun hexited => ?_, h.reading.worker (e := .exited status) trivial
      (append_nil w.pipe).symm (append_nil _).symm (append_nil _).symm
      h.reading.bounded⟩
  · cases hs
    exact (recent_cons (e := .exited status) rfl w.log) ▸ mem_cons_self
  by_cases hstatus : status = some 0
  · exact hzero hstatus
  · refine h.complete ((mem_recent (e := .exited status) rfl ?_).mp hexited)
    exact fun heq => hstatus (Event.exited.inj heq).symm

lemma Live.goes (h : Live w) (halive : Alive w.worker) {worker : Worker} (hworker : Alive worker)
    (hstanding : Standing (published w.log) (written w.log) worker) :
    Live { w with worker := worker } := by
  refine ⟨h.always, h.ordered, hstanding, fun _ => h.alive halive, fun status hs => ?_, h.complete,
    { h.reading with }⟩
  change worker = .ended status at hs
  rw [hs] at hworker
  cases hworker

lemma Live.publish (h : Live w) (halive : Alive w.worker)
    (hordered : Ordered (published w.log ++ [reply]))
    (hsent : written w.log = stream (published w.log)) : Live (w.publish reply) := by
  have hexited : ∀ status, .exited status ∉ recent (.published reply :: w.log) := by
    intro status
    rw [mem_recent rfl (by simp)]
    exact h.alive halive status
  refine ⟨⟨trivial, h.always⟩, hordered, ⟨Nat.zero_le _, published w.log, rfl, ?_⟩,
    fun _ => hexited, nofun, fun hzero => absurd hzero (hexited (some 0)),
    h.reading.worker (e := .published reply) trivial (append_nil w.pipe).symm rfl
      (append_nil _).symm h.reading.bounded⟩
  rw [take_zero, append_nil]
  exact hsent

lemma Live.wrote (h : Live w) {n amount : ℕ} (hworker : w.worker = .writing reply n)
    (hamount : n + amount ≤ replySize) (hroom : w.pipe.length + amount ≤ capacity) :
    Live ({ w with
      pipe := w.pipe ++ (reply.bytes.drop n).take amount
      worker := .checking reply (n + amount) }.tell
        (.wrote ((reply.bytes.drop n).take amount))) := by
  have halive : Alive w.worker := by rw [hworker]; trivial
  obtain ⟨-, earlier, hpublished, hsent⟩ : Standing (published w.log) (written w.log)
    (.writing reply n) := hworker ▸ h.standing
  have hlen : ((reply.bytes.drop n).take amount).length ≤ amount := length_take_le _ _
  have hnow : written w.log ++ (reply.bytes.drop n).take amount =
      stream earlier ++ reply.bytes.take (n + amount) := by
    rw [hsent, append_assoc, take_add]
  generalize (reply.bytes.drop n).take amount = bytes at hlen hnow ⊢
  have hexited : ∀ status, .exited status ∉ recent (.wrote bytes :: w.log) := by
    intro status
    rw [mem_recent rfl (by simp)]
    exact h.alive halive status
  refine ⟨⟨trivial, h.always⟩, h.ordered, ⟨hamount, earlier, hpublished, hnow⟩,
    fun _ => hexited, nofun, fun hzero => absurd hzero (hexited (some 0)),
    h.reading.worker (e := .wrote bytes) trivial rfl (append_nil _).symm rfl ?_⟩
  rw [length_append]
  omega

lemma ordered_last {earlier : List Reply} (h : Ordered (earlier ++ [reply])) :
    reply.initial = true ∧ earlier = [] ∨ reply.initial = false ∧ ∃ first, earlier = [first] := by
  match earlier, h with
  | [], h => exact .inl ⟨h, rfl⟩
  | [first], h => exact .inr ⟨h.2, first, rfl⟩
  | _ :: _ :: earlier, h =>
    rcases earlier with _ | ⟨_, _⟩ <;> cases h

lemma Live.check (h : Live w) {sent : ℕ} (hworker : w.worker = .checking reply sent)
    (signalled : Bool) : Live (w.check reply sent signalled) := by
  have halive : Alive w.worker := by rw [hworker]; trivial
  obtain ⟨hle, earlier, hpublished, hsent⟩ : Standing (published w.log) (written w.log)
    (.checking reply sent) := hworker ▸ h.standing
  unfold World.check
  by_cases hmore : sent < replySize
  · rw [if_pos hmore]
    split_ifs
    · exact h.exit (some 1) (by simp)
    · exact h.goes halive trivial ⟨hmore, earlier, hpublished, hsent⟩
  rw [if_neg hmore]
  rw [take_of_length_le (by rw [length_bytes]; omega)] at hsent
  rcases ordered_last (hpublished ▸ h.ordered) with ⟨hinitial, rfl⟩ | ⟨hinitial, first, rfl⟩
  · rw [if_pos hinitial]
    exact h.goes halive trivial ⟨reply, hpublished, hsent⟩
  rw [if_neg (by rw [hinitial]; decide)]
  refine h.exit (some 0) fun _ => ⟨first, reply, hpublished, ?_⟩
  rw [hsent, stream_singleton]

lemma Live.write (h : Live w) {sent : ℕ} (hworker : w.worker = .writing reply sent)
    (outcome : Outcome) : Live (w.write reply sent outcome) := by
  have halive : Alive w.worker := by rw [hworker]; trivial
  obtain ⟨hlt, hrest⟩ : Standing (published w.log) (written w.log) (.writing reply sent) :=
    hworker ▸ h.standing
  have hagain : Live { w with worker := .checking reply sent } :=
    h.goes halive trivial ⟨hlt.le, hrest⟩
  unfold World.write
  cases outcome.how with
  | interrupted => exact hagain
  | failed => exact h.exit (some 1) (by simp)
  | ok =>
    dsimp only
    by_cases hfull : capacity ≤ w.pipe.length
    · rw [if_pos hfull]
      exact hagain
    · rw [if_neg hfull]
      exact h.wrote hworker (by omega) (by omega)

/-- **The worker** stands where its replies and what it has sent say. -/
lemma Live.turn (h : Live w) (outcome : Outcome) : Live (w.turn outcome) := by
  unfold World.turn
  cases hworker : w.worker with
  | loading =>
    obtain ⟨hpublished, hsent⟩ : Standing (published w.log) (written w.log) .loading :=
      hworker ▸ h.standing
    refine h.publish (by rw [hworker]; trivial) ?_ ?_
    · rw [hpublished]
      rfl
    · rw [hpublished, hsent]
      rfl
  | refreshing =>
    obtain ⟨first, hpublished, hsent⟩ : Standing (published w.log) (written w.log) .refreshing :=
      hworker ▸ h.standing
    have hordered := h.ordered
    rw [hpublished] at hordered
    refine h.publish (by rw [hworker]; trivial) ?_ ?_
    · rw [hpublished]
      exact ⟨hordered, rfl⟩
    · rw [hpublished, hsent, stream_singleton]
  | checking reply sent => exact h.check hworker outcome.signalled
  | writing reply sent => exact h.write hworker outcome
  | ended status => exact h
  | gone => exact h

lemma Live.act (h : Live w) (a : Act) : Live (w.act a) := by
  cases a with
  | turn outcome => exact h.turn outcome
  | die =>
    unfold World.act
    dsimp only
    split
    · exact h
    · exact h
    · exact h.exit none nofun

lemma acts_keep (hact : ∀ w a, P w → P (w.act a)) (h : P w) (as : List Act) :
    P (w.acts as) := by
  induction as generalizing w with
  | nil => exact h
  | cons a as ih => exact ih (hact w a h)

/-! ### The program -/

lemma Live.receive (h : Live w) (limit : ℕ) : Live (w.receive limit) := by
  obtain ⟨front, hread, hfront⟩ := h.reading.read
  have hbuffered := h.reading.buffered
  refine { h with reading := { h.reading with read := ⟨front, ?_, hfront⟩, buffered := ?_, bounded
    := ?_ } }
  · change written w.log = front ++ (w.job.buffer ++ w.pipe.take _) ++ w.pipe.drop _
    rw [append_assoc, append_assoc, take_append_drop, ← append_assoc]
    exact hread
  · change (w.job.buffer ++ w.pipe.take _).length ≤ replySize
    rw [length_append, length_take]
    omega
  change (w.pipe.drop _).length ≤ capacity
  have := h.reading.bounded
  rw [length_drop]
  omega

lemma drain_keeps (hact : ∀ w a, P w → P (w.act a))
    (hreceive : ∀ w n, P w → P (w.receive n)) (moments : List Moment) (h : P w) :
    P (World.drain moments w) := by
  induction moments generalizing w with
  | nil => exact hreceive w _ h
  | cons moment moments ih =>
    rw [World.drain]
    split_ifs
    · have hacts : P (w.acts moment.acts) := acts_keep hact h moment.acts
      dsimp only
      cases moment.how with
      | interrupted => exact ih hacts
      | failed => exact hacts
      | ok =>
        dsimp only
        split_ifs
        · exact hacts
        · exact ih (hreceive _ _ hacts)
    · exact h

lemma Live.drain (moments : List Moment) (h : Live w) : Live (World.drain moments w) :=
  drain_keeps (fun _ a h => h.act a) (fun _ n h => h.receive n) moments h

lemma eq_first {replies : List Reply} {buffer more : Bytes}
    (h : buffer ++ more <+: stream replies) (hlen : buffer.length = replySize) :
    ∃ first rest, replies = first :: rest ∧ buffer = first.bytes := by
  obtain ⟨tail, htail⟩ := h
  rcases replies with _ | ⟨first, rest⟩
  · have hnil : buffer = [] := by
      rw [append_assoc] at htail
      exact (List.append_eq_nil_iff.mp htail).1
    rw [hnil] at hlen
    cases hlen
  · refine ⟨first, rest, rfl, ?_⟩
    rw [append_assoc] at htail
    exact (append_inj htail (hlen.trans (length_bytes first).symm)).1

lemma Live.buffer (h : Live w) (hfull : w.job.buffer.length = replySize) :
    (.consumed ∉ recent w.log ∧ ∃ first rest, published w.log = first :: rest ∧
        first.initial = true ∧ w.job.buffer = first.bytes) ∨
      (.consumed ∈ recent w.log ∧ ∃ first last, published w.log = [first, last] ∧
        last.initial = false ∧ w.job.buffer = last.bytes) := by
  obtain ⟨front, hread, hfront⟩ := h.reading.read
  have hbegins := h.standing.begins
  have hordered := h.ordered
  rw [hread, append_assoc] at hbegins
  rcases hfront with ⟨hconsumed, rfl⟩ | ⟨hconsumed, first, rest, hpublished, rfl⟩
  · rw [nil_append] at hbegins
    obtain ⟨first, rest, hpublished, hbuffer⟩ := eq_first hbegins hfull
    refine .inl ⟨hconsumed, first, rest, hpublished, ?_, hbuffer⟩
    rw [hpublished] at hordered
    match rest, hordered with
    | [], hordered => exact hordered
    | [_], hordered => exact hordered.1
  · rw [hpublished] at hbegins hordered
    obtain ⟨last, rest, rfl, hbuffer⟩ := eq_first
      ((prefix_append_right_inj first.bytes).mp hbegins) hfull
    match rest, hordered with
    | [], hordered => exact .inr ⟨hconsumed, first, last, hpublished, hordered.2, hbuffer⟩

/-- What the program writes down of the end of the worker and of a call's result. -/
def Noted : Event → Prop
  | .reaped _ | .returned _ _ => True
  | _ => False

lemma Noted.isStart (h : Noted e) : isStart e = false := by
  cases e <;> first | rfl | cases h

lemma Noted.mem_recent {e' : Event} (h : Noted e) (h' : ¬Noted e') {log : List Event} :
    e' ∈ recent (e :: log) ↔ e' ∈ recent log :=
  GuiRefreshRuns.mem_recent h.isStart fun heq => h' (heq ▸ h)

lemma Noted.published (h : Noted e) (log : List Event) :
    published (e :: log) = published log := by
  cases e <;> first | rfl | cases h

lemma Noted.written (h : Noted e) (log : List Event) :
    written (e :: log) = written log := by
  cases e <;> first | rfl | cases h

lemma Live.noted (h : Live w) (he : Noted e) (hallowed : Allowed e w.log)
    {worker : Worker} (hworker : worker = w.worker ∨ worker = .gone)
    (htwo : ∀ b, e = .returned 2 b → .consumed ∈ recent w.log)
    (hgoes : ∀ r b, Terminal r → e ≠ .returned r b) :
    Live ⟨w.job, w.pipe, worker, e :: w.log⟩ := by
  have hmem : ∀ {e'}, ¬Noted e' → (e' ∈ recent (e :: w.log) ↔ e' ∈ recent w.log) :=
    fun h' => he.mem_recent h'
  have hreading : Reading ⟨w.job, w.pipe, worker, e :: w.log⟩ := by
    refine ⟨?_, h.reading.buffered, h.reading.bounded, fun b hb => ?_, fun r b hr => ?_,
      fun hc => ?_⟩
    · rw [he.written, he.published, hmem id]
      exact h.reading.read
    · rw [recent_cons he.isStart, mem_cons] at hb
      rw [hmem id]
      exact hb.elim (fun heq => htwo b heq.symm) (h.reading.handed b)
    · rw [recent_cons he.isStart, mem_cons, not_or]
      exact ⟨(hgoes r b hr).symm, h.reading.running r b hr⟩
    · rw [hmem id]
      exact h.reading.cancelled hc
  refine ⟨⟨hallowed, h.always⟩, ?_, ?_, fun halive status => ?_, fun status hs => ?_,
    fun hzero => ?_, hreading⟩
  · rw [he.published]
    exact h.ordered
  · rw [he.published, he.written]
    rcases hworker with rfl | rfl
    · exact h.standing
    · exact h.standing.begins
  · rw [hmem id]
    rcases hworker with rfl | rfl
    · exact h.alive halive status
    · cases halive
  · rw [hmem id]
    rcases hworker with rfl | rfl
    · exact h.ended status hs
    · cases hs
  · rw [he.published, he.written]
    exact h.complete ((hmem id).mp hzero)

lemma Live.nothing (h : Live w) (buffer : Bytes) : Live (w.tell (.returned 0 buffer)) := by
  have hzero : ∀ r, Terminal r → r ≠ 0 := by
    rintro r (rfl | rfl) <;> decide
  have hallowed : AllowedReturn 0 buffer w.log :=
    ⟨nofun, nofun, fun hr => absurd rfl (hzero 0 hr)⟩
  refine h.noted (e := .returned 0 buffer) trivial hallowed (.inl rfl) nofun fun r b hr heq => ?_
  cases heq
  exact hzero 0 hr rfl

lemma Live.cancel (h : Live w) : Live w.cancel := by
  unfold World.cancel
  split_ifs
  · exact h
  have hmem : ∀ {e'}, e' ≠ .cancelled → (e' ∈ recent (.cancelled :: w.log) ↔ e' ∈ recent w.log) :=
    mem_recent rfl
  refine ⟨⟨trivial, h.always⟩, h.ordered, h.standing, fun halive status => ?_,
    fun status hs => ?_, fun hzero => ?_, ⟨?_, h.reading.buffered, h.reading.bounded,
      fun b hb => ?_, fun r b hr => ?_, nofun⟩⟩
  · exact (hmem (by simp)).not.mpr (h.alive halive status)
  · exact (hmem (by simp)).mpr (h.ended status hs)
  · exact h.complete ((hmem (by simp)).mp hzero)
  · obtain ⟨front, hread, hfront⟩ := h.reading.read
    exact ⟨front, hread, hfront.imp (.imp_left (hmem (by simp)).not.mpr)
      (.imp_left (hmem (by simp)).mpr)⟩
  · exact (hmem (by simp)).mpr (h.reading.handed b ((hmem (by simp)).mp hb))
  · exact (hmem (by simp)).not.mpr (h.reading.running r b hr)

/-- **The first reply** is handed out, or dropped where the refresh is cancelled. -/
lemma Live.consume (h : Live w) (hfull : w.job.buffer.length = replySize)
    (hinitial : initialField w.job.buffer = true) : Live w.consume := by
  obtain ⟨hnot, first, rest, hpublished, hfirst, hbuffer⟩ |
    ⟨-, -, last, -, hlast, hbuffer⟩ := h.buffer hfull
  · obtain ⟨front, hread, hfront⟩ := h.reading.read
    obtain rfl : front = [] := hfront.elim (·.2) fun hc => absurd hc.1 hnot
    have hmem : ∀ {e'}, e' ≠ .consumed →
        (e' ∈ recent (.consumed :: w.log) ↔ e' ∈ recent w.log) := mem_recent rfl
    have hconsumed : .consumed ∈ recent (.consumed :: w.log) := mem_cons_self
    have hlive : Live ({ w with job := { w.job with buffer := [] } }.tell .consumed) := by
      refine ⟨⟨trivial, h.always⟩, h.ordered, h.standing, fun halive status => ?_,
        fun status hs => ?_, fun hzero => ?_, ⟨⟨first.bytes, ?_, .inr ⟨hconsumed, first, rest,
          hpublished, rfl⟩⟩, Nat.zero_le _, h.reading.bounded, fun _ _ => hconsumed,
          fun r b hr => ?_, fun hc => ?_⟩⟩
      · exact (hmem (by simp)).not.mpr (h.alive halive status)
      · exact (hmem (by simp)).mpr (h.ended status hs)
      · exact h.complete ((hmem (by simp)).mp hzero)
      · change written w.log = first.bytes ++ [] ++ w.pipe
        rw [append_nil, ← hbuffer]
        exact hread
      · exact (hmem (by simp)).not.mpr (h.reading.running r b hr)
      · exact (hmem (by simp)).not.mpr (h.reading.cancelled hc)
    unfold World.consume
    dsimp only
    split_ifs
    · have hallowed : AllowedReturn 2 w.job.buffer (.consumed :: w.log) := by
        refine ⟨fun _ => ⟨⟨first, rest, hpublished, hfirst, hbuffer⟩, fun b hb => ?_⟩, nofun, ?_⟩
        · exact hnot (h.reading.handed b ((hmem (by simp)).mp hb))
        · rintro (hr | hr) <;> cases hr
      refine hlive.noted (e := .returned 2 w.job.buffer) trivial hallowed (.inl rfl)
        (fun _ _ => hconsumed) ?_
      rintro r b (rfl | rfl) heq <;> cases heq
    · exact hlive.nothing _
  · rw [hbuffer, initialField_bytes, hlast] at hinitial
    cases hinitial

/-! ### The end of a job -/

/-- No worker and no descriptor, and the worker is reaped. -/
def Ended (w : World) : Prop :=
  w.job.pid = false ∧ w.job.resultFd = false ∧ w.job.progressFd = false ∧
    w.job.cancelFd = false ∧ w.worker = .gone

/-- The job that was started last has come to its end. -/
def Finished (w : World) : Prop := ∃ r b, Terminal r ∧ .returned r b ∈ recent w.log

/-- Between two calls, while a job goes on. -/
structure Going (w : World) : Prop where
  live : Live w
  pid : w.job.pid = true
  unreaped : w.worker ≠ .gone

/-- Between two calls, when there is no job. -/
structure Rest (w : World) : Prop where
  always : Always Allowed w.log
  ended : Ended w

lemma act_of_gone (h : w.worker = .gone) (a : Act) : w.act a = w := by
  cases a <;> simp only [World.act, World.turn, h]

lemma drain_of_gone (moments : List Moment) (h : w.worker = .gone) :
    (World.drain moments w).worker = .gone ∧ (World.drain moments w).log = w.log := by
  refine drain_keeps (P := fun w' => w'.worker = .gone ∧ w'.log = w.log) (fun w' a h' => ?_)
    (fun _ _ h' => h') moments ⟨h, rfl⟩
  rw [act_of_gone h'.1]
  exact h'

/-- **What is in the pipe when the worker has exited with 0** is less than a reply, so that a whole
reply is the second one. -/
lemma Live.success (h : Live w) (hzero : .exited (some 0) ∈ recent w.log)
    (hfull : w.job.buffer.length = replySize) :
    ∃ first last, published w.log = [first, last] ∧ last.initial = false ∧
      w.job.buffer = last.bytes := by
  rcases h.buffer hfull with ⟨hnot, -⟩ | ⟨-, hlast⟩
  · obtain ⟨front, hread, hfront⟩ := h.reading.read
    obtain rfl : front = [] := hfront.elim (·.2) fun hc => absurd hc.1 hnot
    obtain ⟨first, last, -, hwritten⟩ := h.complete hzero
    have hlen := congrArg List.length (hread.symm.trans hwritten)
    have hbound := h.reading.bounded
    have hcapacity := capacity_lt
    simp only [length_append, length_nil, length_bytes, hfull] at hlen
    omega
  · exact hlast

lemma Live.finish (h : Live w) (hgone : w.worker = .gone) {status : Option UInt8}
    (hreaped : .reaped status ∈ recent w.log) (hexited : .exited status ∈ recent w.log)
    (moments : List Moment) :
    Rest (w.finish (some status) moments) ∧ Finished (w.finish (some status) moments) := by
  have hdrain := h.drain moments
  obtain ⟨hgone', hlog⟩ := drain_of_gone moments hgone
  rw [← hlog] at hreaped hexited
  unfold World.finish
  generalize World.drain moments w = w' at hdrain hgone' hreaped hexited
  dsimp only
  generalize hsuccess : (some status == some (some 0) && !w'.job.cancelling &&
    w'.job.buffer.length == replySize && validFields w'.job.buffer) = success
  have hterminal : Terminal (if success then 1 else -1) := by
    cases success
    · exact .inr rfl
    · exact .inl rfl
  have hallowed : AllowedReturn (if success then 1 else -1) w'.job.buffer w'.log := by
    refine ⟨fun htwo => ?_, fun hone => ?_, fun _ => ⟨⟨status, hreaped⟩, hdrain.reading.running⟩⟩
    · cases success <;> cases htwo
    cases success with
    | false => cases hone
    | true =>
      simp only [Bool.and_eq_true, beq_iff_eq, Option.some.injEq, Bool.not_eq_true'] at hsuccess
      obtain ⟨⟨⟨rfl, hcancelling⟩, hfull⟩, -⟩ := hsuccess
      exact ⟨hdrain.success hexited hfull, hexited, hdrain.reading.cancelled hcancelling⟩
  exact ⟨⟨⟨hallowed, hdrain.always⟩, rfl, rfl, rfl, rfl, hgone'⟩, _, _, hterminal,
    mem_cons_self⟩

lemma job_act (a : Act) : (w.act a).job = w.job := by
  cases a with
  | turn outcome =>
    unfold World.act World.turn World.check World.write
    dsimp only
    repeat' split
    all_goals rfl
  | die =>
    unfold World.act
    dsimp only
    split <;> rfl

lemma act_ne_gone (h : w.worker ≠ .gone) (a : Act) : (w.act a).worker ≠ .gone := by
  cases a with
  | turn outcome =>
    unfold World.act World.turn World.check World.write
    dsimp only
    repeat' split
    all_goals first | exact h | nofun
  | die =>
    unfold World.act
    dsimp only
    split <;> first | exact h | nofun

lemma Going.act (h : Going w) (a : Act) : Going (w.act a) :=
  ⟨h.live.act a, by rw [job_act, h.pid], act_ne_gone h.unreaped a⟩

lemma Going.drain (moments : List Moment) (h : Going w) : Going (World.drain moments w) :=
  drain_keeps (fun _ a h => h.act a)
    (fun _ n h => ⟨h.live.receive n, h.pid, h.unreaped⟩) moments h

lemma mem_recent_act (he : e ∈ recent w.log) (a : Act) : e ∈ recent (w.act a).log := by
  have hone : (w.act a).log = w.log ∨ ∃ e', OfWorker e' ∧ (w.act a).log = e' :: w.log := by
    cases a with
    | turn outcome =>
      unfold World.act World.turn World.check World.write
      dsimp only
      repeat' split
      all_goals first | exact .inl rfl | exact .inr ⟨_, by trivial, rfl⟩
    | die =>
      unfold World.act
      dsimp only
      split <;> first | exact .inl rfl | exact .inr ⟨_, by trivial, rfl⟩
  rcases hone with hlog | ⟨e', hworker, hlog⟩
  · rw [hlog]
    exact he
  · rw [hlog, recent_cons hworker.isStart]
    exact mem_cons_of_mem _ he

lemma Going.await (h : Going w) (wait : Moment) (moments : List Moment) :
    (Rest (w.await wait moments) ∧ Finished (w.await wait moments)) ∨
      (wait.how = .interrupted ∨ Alive (w.acts wait.acts).worker) ∧
        w.await wait moments = (w.acts wait.acts).tell (.returned 0 []) := by
  have hacts : Going (w.acts wait.acts) := acts_keep (fun _ a h => h.act a) h wait.acts
  unfold World.await
  generalize w.acts wait.acts = w' at hacts
  dsimp only
  split
  · next hhow => exact .inr ⟨.inl hhow, rfl⟩
  · next status hworker _ =>
    have hexited : .exited status ∈ recent (.reaped status :: w'.log) :=
      (mem_recent rfl (by simp)).mpr (hacts.live.ended status hworker)
    have hgone := hacts.live.noted (e := .reaped status) trivial trivial (.inr rfl) nofun nofun
    exact .inl (hgone.finish rfl mem_cons_self hexited moments)
  · next hworker _ => exact absurd hworker hacts.unreaped
  · next hended hgone =>
    have halive : Alive w'.worker := by
      cases hworker : w'.worker with
      | ended status => exact hended status hworker
      | gone => exact hgone hworker
      | _ => trivial
    exact .inr ⟨.inr halive, rfl⟩

lemma Going.poll (hact : ∀ w a, P w → P (w.act a))
    (hreceive : ∀ w n, P w → P (w.receive n))
    (hconsume : ∀ w, P w → w.job.buffer.length = replySize →
      initialField w.job.buffer = true → P w.consume)
    (hnothing : ∀ w, P w → P (w.tell (.returned 0 []))) (h : Going w) (hP : P w)
    (first : List Moment) (wait : Moment) (last : List Moment) :
    (Rest (w.poll first wait last) ∧ Finished (w.poll first wait last)) ∨
      P (w.poll first wait last) := by
  have hdrain : P (World.drain first w) := drain_keeps hact hreceive first hP
  have hgoing := h.drain first
  unfold World.poll
  rw [if_neg (by rw [h.pid]; decide)]
  generalize World.drain first w = w' at hdrain hgoing
  dsimp only
  split_ifs with hwhole
  · exact .inr (hconsume w' hdrain hwhole.1 hwhole.2)
  rcases hgoing.await wait last with hend | ⟨-, heq⟩
  · exact .inl hend
  · rw [heq]
    exact .inr (hnothing _ (acts_keep hact hdrain wait.acts))

lemma Going.consume (h : Going w) (hfull : w.job.buffer.length = replySize)
    (hinitial : initialField w.job.buffer = true) : Going w.consume :=
  ⟨h.live.consume hfull hinitial, h.pid, h.unreaped⟩

lemma Going.nothing (h : Going w) : Going (w.tell (.returned 0 [])) :=
  ⟨h.live.nothing [], h.pid, h.unreaped⟩

lemma Going.cancel (h : Going w) : Going w.cancel ∧ w.cancel.job.cancelFd = false := by
  have hcancel : w.cancel =
      { w with job := { w.job with cancelling := true, cancelFd := false } }.tell .cancelled := by
    rw [World.cancel, if_neg (by rw [h.pid]; decide)]
  have hlive := h.live.cancel
  rw [hcancel] at hlive ⊢
  exact ⟨⟨hlive, h.pid, h.unreaped⟩, rfl⟩

lemma Going.start (h : Going w) (possible : Bool) : w.start possible = w := by
  rw [World.start, if_pos h.pid]

lemma Going.run (h : Going w) (c : Call) :
    (Rest (c.run w) ∧ Finished (c.run w)) ∨ Going (c.run w) := by
  cases c with
  | start possible =>
    rw [Call.run, h.start]
    exact .inr h
  | cancel => exact .inr h.cancel.1
  | poll first wait last =>
    exact h.poll (fun _ a h => h.act a) (fun _ n h => ⟨h.live.receive n, h.pid, h.unreaped⟩)
      (fun _ h => h.consume) (fun _ h => h.nothing) h first wait last
  | happen a => exact .inr (h.act a)

lemma Rest.start (h : Rest w) (possible : Bool) :
    Rest (w.start possible) ∨ Going (w.start possible) := by
  obtain ⟨hpid, hresult, hprogress, hcancel, hworker⟩ := h.ended
  rw [World.start, if_neg (by rw [hpid]; decide)]
  cases possible with
  | false => exact .inl ⟨h.always, rfl, rfl, rfl, rfl, hworker⟩
  | true =>
    have hreading : Reading ⟨⟨true, true, true, true, false, []⟩, [], .loading,
        .started :: w.log⟩ :=
      ⟨⟨[], rfl, .inl ⟨not_mem_nil, rfl⟩⟩, Nat.zero_le _, Nat.zero_le _, nofun,
        fun _ _ _ => not_mem_nil, fun _ => not_mem_nil⟩
    exact .inr ⟨⟨⟨trivial, h.always⟩, trivial, ⟨rfl, rfl⟩, fun _ _ => not_mem_nil, nofun,
      nofun, hreading⟩, rfl, nofun⟩

lemma Rest.run (h : Rest w) (c : Call) : Rest (c.run w) ∨ Going (c.run w) := by
  have hpid := h.ended.1
  cases c with
  | start possible => exact h.start possible
  | cancel =>
    rw [Call.run, World.cancel, if_pos (by rw [hpid]; rfl)]
    exact .inl h
  | poll first wait last =>
    rw [Call.run, World.poll, if_pos (by rw [hpid]; rfl)]
    refine .inl ⟨⟨⟨nofun, nofun, ?_⟩, h.always⟩, h.ended⟩
    rintro (hr | hr) <;> cases hr
  | happen a =>
    rw [Call.run, act_of_gone h.ended.2.2.2.2]
    exact .inl h

/-- **Between any two calls** there is a job that goes on, or none. -/
theorem rest_or_going (calls : List Call) :
    Rest (run .idle calls) ∨ Going (run .idle calls) := by
  have hkept : ∀ w, Rest w ∨ Going w → Rest (run w calls) ∨ Going (run w calls) := by
    induction calls with
    | nil => exact fun _ h => h
    | cons c calls ih =>
      intro w h
      refine ih (c.run w) ?_
      rcases h with h | h
      · exact h.run c
      · exact (h.run c).imp_left And.left
  exact hkept .idle (.inl ⟨trivial, rfl, rfl, rfl, rfl, rfl⟩)

end C1auncher.Package.GuiRefreshRuns
