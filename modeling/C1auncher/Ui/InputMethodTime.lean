import C1auncher.Ui.InputMethodRuns

/-!
How long a request waits: five seconds to be sent once nothing is outstanding, and five seconds for
its reply.
-/

namespace C1auncher.Ui.InputMethodTime

open Rings Traces Ui.ImeWire Ui.InputMethod Ui.InputMethodRuns List

def time : Event → Option ℤ
  | .connected now => some now
  | .ticked t => some t.now
  | _ => none

/-- A clock that is never negative and never goes back. -/
def Clock (log : List Event) : Prop :=
  (log.filterMap time).Pairwise (fun later earlier => earlier ≤ later) ∧
    ∀ c ∈ log.filterMap time, 0 ≤ c

/-- A tick that sent a request, returned an answer or failed. -/
def isServed : Event → Bool
  | .ticked t => t.result != 0 || t.sent.isSome
  | _ => false

/-- A request that could be sent waits for less than five seconds after the first attempt, and one
that was sent for less than five seconds after that. -/
def Prompt (t : Tick) (past : List Event) : Prop :=
  Clock (.ticked t :: past) →
    (∀ t', .ticked t' ∈ since isServed past → t'.tried = true → t.result ≠ -1 →
        t.now < t'.now + 5000) ∧
      ∀ t', .ticked t' ∈ since isEnd past → t'.sent.isSome = true → t.result = 0 →
        t.now < t'.now + 5000

def InTime : Event → List Event → Prop
  | .ticked t, past => Prompt t past
  | _, _ => True

/-- Between two calls, where the clock is right. -/
structure Facts (w : World) : Prop where
  known : w.input.deadline = -1 ∨ ∃ c ∈ w.log.filterMap time, w.input.deadline = c + 5000
  waits : w.input.client.pendingSequence ≠ 0 → 0 ≤ w.input.deadline
  putOff : ∀ t, .ticked t ∈ since isServed w.log → t.tried = true → 0 ≤ w.input.deadline ∧
    w.input.deadline ≤ t.now + 5000 ∧ Waiting w.input ∧ w.input.client.connected = true
  flight : ∀ t, .ticked t ∈ since isEnd w.log → t.sent.isSome = true →
    w.input.deadline = t.now + 5000 ∧ w.input.client.pendingSequence ≠ 0 ∧
      w.input.client.connected = true

structure Timed (w : World) : Prop where
  always : Always InTime w.log
  facts : Clock w.log → Facts w

variable {w : World}

lemma Clock.tail {e : Event} {log : List Event} (h : Clock (e :: log)) : Clock log := by
  have hsub : (log.filterMap time).Sublist ((e :: log).filterMap time) :=
    (sublist_cons_self e log).filterMap time
  exact ⟨h.1.sublist hsub, fun c hc => h.2 c (hsub.mem hc)⟩

lemma times_ticked (t : Tick) (log : List Event) :
    (.ticked t :: log).filterMap time = t.now :: log.filterMap time := rfl

variable {t : Tick} {log : List Event} {w' : World}

lemma Clock.now (h : Clock (.ticked t :: log)) : 0 ≤ t.now := by
  have hall := h.2
  rw [times_ticked] at hall
  exact hall t.now mem_cons_self

lemma Clock.past (h : Clock (.ticked t :: log)) {c : ℤ}
    (hc : c ∈ log.filterMap time) : c ≤ t.now := by
  have hpairs := h.1
  rw [times_ticked] at hpairs
  exact (List.pairwise_cons.mp hpairs).1 c hc

lemma mem_time_cons {e : Event} {c : ℤ} (h : c ∈ log.filterMap time) :
    c ∈ (e :: log).filterMap time :=
  ((sublist_cons_self e log).filterMap time).mem h

/-! ### Ticks -/

lemma Timed.ticked (h : Timed w) {input : Input}
    (hprompt : Clock (.ticked t :: w.log) → Facts w →
      Prompt t w.log ∧ Facts ⟨input, .ticked t :: w.log⟩) : Timed ⟨input, .ticked t :: w.log⟩ :=
  ⟨⟨fun hclock => (hprompt hclock (h.facts hclock.tail)).1 hclock, h.always⟩,
    fun hclock => (hprompt hclock (h.facts hclock.tail)).2⟩

lemma known_cons {e : Event} {deadline : ℤ}
    (h : deadline = -1 ∨ ∃ c ∈ log.filterMap time, deadline = c + 5000) :
    deadline = -1 ∨ ∃ c ∈ (e :: log).filterMap time, deadline = c + 5000 :=
  h.imp_right fun ⟨c, hc, heq⟩ => ⟨c, mem_time_cons hc, heq⟩

lemma Facts.early (h : Facts w) {now : ℤ} (hearly : Early w now)
    (ht : .ticked t ∈ since isServed w.log) (htried : t.tried = true) : now < t.now + 5000 := by
  obtain ⟨hzero, hdeadline, -⟩ := h.putOff t ht htried
  have hlt : now < w.input.deadline := not_le.mp fun hle => hearly ⟨hzero, hle⟩
  omega

lemma Timed.ended (h : Timed w) {input : Input} (hend : t.result ≠ 0)
    (hprompt : t.result ≠ -1 → Facts w → ∀ t', .ticked t' ∈ since isServed w.log →
      t'.tried = true → t.now < t'.now + 5000)
    (hknown : input.deadline = -1 ∨ input.deadline = w.input.deadline)
    (hpending : input.client.pendingSequence = 0) : Timed ⟨input, .ticked t :: w.log⟩ := by
  have hserved : isServed (.ticked t) = true := by
    simp [isServed, hend]
  have hisend : isEnd (.ticked t) = true := by
    simp [isEnd, hend]
  refine h.ticked fun hclock hfacts => ⟨fun _ => ⟨fun t' ht' htried hresult => ?_,
    fun _ _ _ hzero => absurd hzero hend⟩, ?_, fun hne => absurd hpending hne, fun t' ht' => ?_,
    fun t' ht' => ?_⟩
  · exact hprompt hresult hfacts t' ht' htried
  · rcases hknown with hknown | hknown
    · exact .inl hknown
    · rw [hknown]
      exact known_cons hfacts.known
  · rw [since_of_starts hserved] at ht'
    cases ht'
  · rw [since_of_starts hisend] at ht'
    cases ht'

lemma Timed.idle (h : Timed w) {now : ℤ}
    (hnone : ¬Waiting w.input ∨ w.input.client.connected = false)
    (hflight : Facts w → ∀ t, .ticked t ∈ since isEnd w.log → t.sent.isSome = true →
      now < t.now + 5000)
    {client : Client} (hclient : client = w.input.client ∨
      w.input.client.pendingSequence = 0 ∧ client.pendingSequence = 0) :
    Timed ⟨{ w.input with client := client },
      .ticked ⟨now, none, false, none, 0, none⟩ :: w.log⟩ := by
  refine h.ticked fun hclock hfacts => ?_
  have hnever : ∀ t, .ticked t ∈ since isServed w.log → t.tried = true → False := by
    intro t ht htried
    obtain ⟨-, -, hwaiting, hconnected⟩ := hfacts.putOff t ht htried
    rcases hnone with hnone | hnone
    · exact hnone hwaiting
    · rw [hconnected] at hnone
      cases hnone
  refine ⟨fun _ => ⟨fun t ht htried _ => (hnever t ht htried).elim,
    fun t ht hsent _ => hflight hfacts t ht hsent⟩, known_cons hfacts.known, fun hne => ?_,
    fun t ht htried => ?_, fun t ht hsent => ?_⟩
  · rcases hclient with rfl | ⟨-, hzero⟩
    · exact hfacts.waits hne
    · exact absurd hzero hne
  · rcases (mem_since_cons rfl).mp ht with heq | ht
    · cases heq
      cases htried
    · exact (hnever t ht htried).elim
  rcases (mem_since_cons rfl).mp ht with heq | hold
  · cases heq
    cases hsent
  rcases hclient with rfl | ⟨hzero, -⟩
  · exact hfacts.flight t hold hsent
  · exact absurd hzero (hfacts.flight t hold hsent).2.1

lemma Timed.putOff (h : Timed w) (hready : Ready w) {now : ℤ} (hearly : Early w now)
    (hwaiting : Waiting w.input) {deadline : ℤ}
    (hdeadline : deadline = if w.input.deadline < 0 then now + 5000 else w.input.deadline) :
    Timed ⟨{ w.input with deadline := deadline },
      .ticked ⟨now, none, true, none, 0, none⟩ :: w.log⟩ := by
  refine h.ticked fun hclock hfacts => ?_
  have hnow : 0 ≤ now := hclock.now
  have hnever : ∀ t, .ticked t ∈ since isEnd w.log → t.sent.isSome = true → False :=
    fun t ht hsent => (hfacts.flight t ht hsent).2.1 hwaiting.pending
  have hbound : 0 ≤ deadline ∧ deadline ≤ now + 5000 := by
    rw [hdeadline]
    split_ifs with hnone
    · omega
    rcases hfacts.known with hknown | ⟨c, hc, hknown⟩
    · omega
    · have : c ≤ now := hclock.past hc
      omega
  refine ⟨fun _ => ⟨fun t ht htried _ => hfacts.early hearly ht htried,
    fun t ht hsent _ => (hnever t ht hsent).elim⟩, ?_, fun hne => absurd hwaiting.pending hne,
    fun t ht htried => ?_, fun t ht hsent => ?_⟩
  · rw [hdeadline]
    split_ifs
    · exact .inr ⟨now, mem_cons_self, rfl⟩
    · exact known_cons hfacts.known
  · rcases (mem_since_cons rfl).mp ht with heq | ht
    · cases heq
      exact ⟨hbound.1, hbound.2, ⟨hwaiting.pending, hwaiting.count⟩, hready.connected⟩
    obtain ⟨hzero, hle, -⟩ := hfacts.putOff t ht htried
    rw [if_neg (by omega)] at hdeadline
    rw [hdeadline]
    exact ⟨hzero, hle, ⟨hwaiting.pending, hwaiting.count⟩, hready.connected⟩
  · rcases (mem_since_cons rfl).mp ht with heq | ht
    · cases heq
      cases hsent
    · exact (hnever t ht hsent).elim

lemma Timed.send (h : Timed w) {now : ℤ} (hearly : Early w now) (hwaiting : Waiting w.input)
    {client : Client} (hconnected : client.connected = true)
    (hpending : client.pendingSequence ≠ 0) {sent : Request × Request}
    {queue : Ring Request queueSize} {original : Request} :
    Timed ⟨{ w.input with
        client := client, queue := queue, originalRequest := original, deadline := now + 5000 },
      .ticked ⟨now, none, true, some sent, 0, none⟩ :: w.log⟩ := by
  refine h.ticked fun hclock hfacts => ?_
  have hnow : 0 ≤ now := hclock.now
  have hnever : ∀ t, .ticked t ∈ since isEnd w.log → t.sent.isSome = true → False :=
    fun t ht hsent => (hfacts.flight t ht hsent).2.1 hwaiting.pending
  refine ⟨fun _ => ⟨fun t ht htried _ => hfacts.early hearly ht htried,
    fun t ht hsent _ => (hnever t ht hsent).elim⟩, .inr ⟨now, mem_cons_self, rfl⟩,
    fun _ => by change 0 ≤ now + 5000; omega, fun t ht => ?_, fun t ht hsent => ?_⟩
  · rw [since_of_starts rfl] at ht
    cases ht
  rcases (mem_since_cons rfl).mp ht with heq | ht
  · cases heq
    exact ⟨rfl, hpending, hconnected⟩
  · exact (hnever t ht hsent).elim

/-- **A tick** comes in time, and knows when the next one is late. -/
lemma Timed.turn (h : Timed w) (hkept : Kept w) {now : ℤ} (hturn : Turn w now w') :
    Timed w' := by
  cases hturn with
  | off hoff =>
    refine h.idle (.inr hoff) (fun hfacts t ht hsent => ?_) (.inl rfl)
    rw [(hfacts.flight t ht hsent).2.2] at hoff
    cases hoff
  | fail tried => exact h.ended (by simp) (fun hne => absurd rfl hne) (.inl rfl) rfl
  | reply hready hpending response =>
    refine h.ended (by simp) (fun _ hfacts t ht htried => ?_) (.inl rfl) rfl
    exact absurd (hfacts.putOff t ht htried).2.2.1.pending hpending
  | rest hready hearly hnone =>
    have hflight : Facts w → ∀ t, .ticked t ∈ since isEnd w.log → t.sent.isSome = true →
        now < t.now + 5000 := by
      intro hfacts t ht hsent
      obtain ⟨hdeadline, hpending, -⟩ := hfacts.flight t ht hsent
      have hzero := hfacts.waits hpending
      have hlt : now < w.input.deadline := not_le.mp fun hle => hearly ⟨hzero, hle⟩
      omega
    unfold World.rest
    dsimp only
    split_ifs with hdrained
    · simp only [Bool.and_eq_true, beq_iff_eq] at hdrained
      exact h.idle (.inl hnone) hflight (.inr ⟨hdrained.2, rfl⟩)
    · exact h.idle (.inl hnone) hflight (.inl rfl)
  | here hready hearly hwaiting view response hhere =>
    exact h.ended (by simp) (fun _ hfacts t ht htried => hfacts.early hearly ht htried) (.inr rfl)
      hwaiting.pending
  | putOff hready hearly hwaiting =>
    exact h.putOff hready hearly hwaiting rfl
  | send hready hearly hwaiting client wire hconnected hpending hnext hwire =>
    have hne : client.pendingSequence ≠ 0 := by
      rw [hpending]
      exact hkept.next
    exact h.send hearly hwaiting hconnected hne

/-! ### Keys and modes -/

/-- What a key or a change of the mode over a connection does. -/
structure Asked (w w' : World) : Prop where
  client : w'.input.client = w.input.client
  deadline : w'.input.deadline = w.input.deadline
  count : w.input.queue.count ≠ 0 → w'.input.queue.count ≠ 0
  log : w'.log = w.log ∨
    ∃ request, w'.log = .accepted request :: w.log ∨ w'.log = .refused request :: w.log

lemma count_of_contents {queue queue' : Ring Request queueSize} {request : Request}
    (h : queue'.contents = queue.contents ++ [request]) : queue'.count ≠ 0 := by
  rw [← Ring.length_contents, h, length_append]
  exact Nat.succ_ne_zero _

lemma key_asked (w : World) (keysym modifiers : UInt32) : Asked w (w.key keysym modifiers).1 := by
  unfold World.key
  dsimp only
  split_ifs
  · exact ⟨rfl, rfl, id, .inl rfl⟩
  · exact ⟨rfl, rfl, id, .inl rfl⟩
  rcases push_cases w.input ⟨opKey, keysym, modifiers, 0⟩ with ⟨queue, hpush, hqueue⟩ | hpush
  · rw [hpush]
    exact ⟨rfl, rfl, fun _ => count_of_contents hqueue, .inr ⟨_, .inl rfl⟩⟩
  · rw [hpush]
    exact ⟨rfl, rfl, id, .inr ⟨_, .inr rfl⟩⟩

lemma request_asked (w : World) : Asked w w.request.1 := by
  unfold World.request
  dsimp only
  generalize Request.mk _ _ _ _ = request
  rcases push_cases w.input request with ⟨queue, hpush, hqueue⟩ | hpush
  · rw [hpush]
    exact ⟨rfl, rfl, fun _ => count_of_contents hqueue, .inr ⟨_, .inl rfl⟩⟩
  · rw [hpush]
    exact ⟨rfl, rfl, id, .inl rfl⟩

lemma Asked.since_eq (h : Asked w w') {starts : Event → Bool}
    (hstarts : ∀ request, starts (.accepted request) = false ∧ starts (.refused request) = false) : .ticked t ∈ since starts w'.log ↔ .ticked t ∈ since starts w.log := by
  rcases h.log with heq | ⟨request, heq | heq⟩
  · rw [heq]
  · rw [heq, mem_since_of_ne (hstarts request).1 (by simp)]
  · rw [heq, mem_since_of_ne (hstarts request).2 (by simp)]

lemma Asked.times (h : Asked w w') : w'.log.filterMap time = w.log.filterMap time := by
  rcases h.log with heq | ⟨request, heq | heq⟩ <;> rw [heq] <;> rfl

lemma Facts.asked (h : Facts w) (ha : Asked w w') : Facts w' := by
  have hserved : ∀ {t}, .ticked t ∈ since isServed w'.log ↔ .ticked t ∈ since isServed w.log :=
    ha.since_eq fun _ => ⟨rfl, rfl⟩
  have hend : ∀ {t}, .ticked t ∈ since isEnd w'.log ↔ .ticked t ∈ since isEnd w.log :=
    ha.since_eq fun _ => ⟨rfl, rfl⟩
  refine ⟨?_, ?_, fun t ht htried => ?_, fun t ht hsent => ?_⟩
  · rw [ha.times, ha.deadline]
    exact h.known
  · rw [ha.client, ha.deadline]
    exact h.waits
  · obtain ⟨hzero, hle, hwaiting, hconnected⟩ := h.putOff t (hserved.mp ht) htried
    rw [ha.deadline, ha.client]
    refine ⟨hzero, hle, ⟨?_, ha.count hwaiting.count⟩, hconnected⟩
    rw [ha.client]
    exact hwaiting.pending
  · rw [ha.deadline, ha.client]
    exact h.flight t (hend.mp ht) hsent

lemma Timed.asked (h : Timed w) (ha : Asked w w') : Timed w' := by
  refine ⟨?_, fun hclock => ?_⟩
  · rcases ha.log with heq | ⟨request, heq | heq⟩ <;> rw [heq]
    · exact h.always
    · exact ⟨trivial, h.always⟩
    · exact ⟨trivial, h.always⟩
  · rw [Clock, ha.times] at hclock
    exact (h.facts hclock).asked ha

lemma Timed.toggle (h : Timed w) (hkept : Kept w) (outcome : Connect) (now : ℤ) :
    Timed (w.toggle outcome now).1 := by
  unfold World.toggle
  split_ifs with hfailed hconnected
  · exact h
  · exact h.asked (request_asked w)
  rw [Bool.not_eq_true] at hconnected
  have hidle := hkept.idle hconnected
  have hserved : Facts w → ∀ t, .ticked t ∈ since isServed w.log → t.tried = true → False := by
    intro hfacts t ht htried
    rw [(hfacts.putOff t ht htried).2.2.2] at hconnected
    cases hconnected
  have hend : Facts w → ∀ t, .ticked t ∈ since isEnd w.log → t.sent.isSome = true → False := by
    intro hfacts t ht hsent
    rw [(hfacts.flight t ht hsent).2.2] at hconnected
    cases hconnected
  have hclosed : ∀ client : Client, client.pendingSequence = 0 →
      Timed { w with input := { w.input with client := client, failed := true } } := by
    intro client hpending
    refine ⟨h.always, fun hclock => ?_⟩
    have hfacts := h.facts hclock
    exact ⟨hfacts.known, fun hne => absurd hpending hne,
      fun t ht htried => (hserved hfacts t ht htried).elim,
      fun t ht hsent => (hend hfacts t ht hsent).elim⟩
  unfold Client.connect
  rw [if_neg (by rw [hconnected]; decide)]
  cases outcome with
  | absent => exact hclosed _ hidle.1
  | refused => exact hclosed _ rfl
  | ok =>
    have hopen : Timed ({ w with input := { w.input with
        client := ⟨true, 1, 0, w.input.client.pendingRequest⟩
        deadline := now + 5000 } }.tell (.connected now)) := by
      refine ⟨⟨trivial, h.always⟩, fun hclock => ?_⟩
      have hfacts := h.facts hclock.tail
      refine ⟨.inr ⟨now, mem_cons_self, rfl⟩, fun hne => absurd rfl hne,
        fun t ht htried => ?_, fun t ht hsent => ?_⟩
      · exact (hserved hfacts t ((mem_since_of_ne rfl (by simp)).mp ht) htried).elim
      · exact (hend hfacts t ((mem_since_of_ne rfl (by simp)).mp ht) hsent).elim
    exact hopen.asked (request_asked _)

lemma Timed.call (h : Timed w) (hkept : Kept w) (c : Call) : Timed (c.run w) := by
  cases c with
  | toggle outcome now => exact h.toggle hkept outcome now
  | key keysym modifiers => exact h.asked (key_asked w keysym modifiers)
  | tick receiving sending now => exact h.turn hkept (tick_turn hkept.next receiving sending now)

lemma timed_idle : Timed .idle :=
  ⟨trivial, fun _ => ⟨.inl rfl, fun hne => absurd rfl hne, fun _ ht => absurd ht not_mem_nil,
    fun _ ht => absurd ht not_mem_nil⟩⟩

/-- **Every run** is in time. -/
theorem timed_run (calls : List Call) : Timed (run .idle calls) := by
  have hrun : ∀ w, Kept w → Timed w → Timed (run w calls) := by
    induction calls with
    | nil => exact fun _ _ h => h
    | cons c calls ih => exact fun w hkept h => ih (c.run w) (hkept.call c) (h.call hkept c)
  exact hrun .idle kept_idle timed_idle

end C1auncher.Ui.InputMethodTime
