import C1auncher.Ui.InputMethodTime

/-!
Every request is answered, or the connection fails: whatever is waiting goes on at the next tick
or at one behind its deadline.
-/

namespace C1auncher.Ui.InputMethodAnswers

open Rings Traces Utf8Bytes Ui.ImeWire Ui.InputMethod Ui.InputMethodRuns Ui.InputMethodTime List

/-- The last thing that happened is a tick that returned -1. -/
def Fails (w : World) : Prop := ∃ t past, w.log = .ticked t :: past ∧ t.result = -1

def Settled (asked : List Request) (w : World) : Prop := Fails w ∨ asked <+: answered w.log

/-- These requests have been accepted, and nothing has failed since. -/
structure Asking (asked : List Request) (w : World) : Prop where
  kept : Kept w
  timed : Timed w
  clock : Clock w.log
  asked : asked <+: requests w.log

/-- How far the head of the queue is from its answer. -/
def stage (input : Input) : ℕ :=
  if input.client.pendingSequence ≠ 0 then 0 else if 0 ≤ input.deadline then 1 else 2

/-- How many steps there are at most until all of these requests are answered. -/
def rank (asked : List Request) (w : World) : ℕ :=
  3 * (asked.length - (answered w.log).length) + stage w.input

variable {w : World} {asked : List Request}

lemma stage_of_pending {input : Input} (h : input.client.pendingSequence ≠ 0) : stage input = 0 :=
  if_pos h

lemma stage_of_waiting {input : Input} (h : Waiting input) :
    stage input = if 0 ≤ input.deadline then 1 else 2 :=
  if_neg (not_not.mpr h.pending)

lemma stage_le (input : Input) : stage input ≤ 2 := by
  unfold stage
  split_ifs <;> omega

lemma Asking.left (h : Asking asked w) (hleft : ¬Settled asked w) :
    (answered w.log).length < asked.length ∧ w.input.client.connected = true ∧
      (w.input.client.pendingSequence ≠ 0 ∨ w.input.queue.count ≠ 0) := by
  have hprefix : answered w.log <+: requests w.log := by
    rw [h.kept.order, append_assoc]
    exact prefix_append _ _
  have hlt : (answered w.log).length < asked.length := by
    by_contra hle
    exact hleft (.inr (prefix_of_prefix_length_le h.asked hprefix (not_lt.mp hle)))
  have hwork : w.input.client.pendingSequence ≠ 0 ∨ w.input.queue.count ≠ 0 := by
    by_contra hnone
    rw [not_or, not_not, not_not] at hnone
    have horder := h.kept.order
    rw [outstanding_of_zero hnone.1, (Ring.contents_eq_nil _).mpr hnone.2, append_nil,
      append_nil] at horder
    exact hleft (.inr (horder ▸ h.asked))
  refine ⟨hlt, ?_, hwork⟩
  by_contra hconnected
  rw [Bool.not_eq_true] at hconnected
  obtain ⟨hpending, hcount⟩ := h.kept.idle hconnected
  exact hwork.elim (· hpending) (· hcount)

lemma rank_answered (hlt : (answered w.log).length < asked.length) {t : Tick} {response : Response}
    (hone : t.result = 1) (hresponse : t.response = some response) (input : Input) :
    rank asked ⟨input, .ticked t :: w.log⟩ < rank asked w := by
  have hlen : (answered (.ticked t :: w.log)).length = (answered w.log).length + 1 := by
    rw [answered, answers_ticked (by rw [hone]; simp), hresponse, map_append,
      length_append]
    rfl
  have hstage := stage_le input
  change 3 * (asked.length - (answered (.ticked t :: w.log)).length) + stage input <
    3 * (asked.length - (answered w.log).length) + stage w.input
  rw [hlen]
  omega

lemma rank_nothing (w : World) (input : Input) {t : Tick} (hzero : t.result = 0)
    (hnone : t.response = none) : rank asked (World.tell ⟨input, w.log⟩ (.ticked t)) =
      3 * (asked.length - (answered w.log).length) + stage input := by
  have hanswered : answered (.ticked t :: w.log) = answered w.log := by
    rw [answered, answers_ticked (by rw [hzero]; simp), hnone]
    exact congrArg _ (append_nil _)
  change 3 * (asked.length - (answered (.ticked t :: w.log)).length) + stage input = _
  rw [hanswered]

lemma rank_lt (input : Input) {t : Tick} (hzero : t.result = 0) (hnone : t.response = none)
    (hstage : stage input < stage w.input) :
    rank asked (World.tell ⟨input, w.log⟩ (.ticked t)) < rank asked w := by
  rw [rank_nothing w input hzero hnone]
  exact Nat.add_lt_add_left hstage _

/-- What a call comes to while something is waiting: a step on, or nothing, and then a tick comes
before the deadline. -/
def Nearer (asked : List Request) (w w' : World) (now : Option ℤ) : Prop :=
  rank asked w' < rank asked w ∨ rank asked w' = rank asked w ∧
    w'.input.deadline = w.input.deadline ∧ ∀ c, now = some c → c < w.input.deadline

lemma Asking.turn (h : Asking asked w) (hleft : ¬Settled asked w) {now : ℤ} {w' : World}
    (hturn : Turn w now w') (hclock : Clock w'.log) :
    Settled asked w' ∨ Asking asked w' ∧ Nearer asked w w' (some now) := by
  obtain ⟨hlt, hconnected, hwork⟩ := h.left hleft
  have hkept := h.kept.turn hturn
  have htimed := h.timed.turn h.kept hturn
  have hasking : ∀ t, w'.log = .ticked t :: w.log → t.result ≠ -1 → Asking asked w' := by
    intro t hlog hresult
    refine ⟨hkept, htimed, hclock, ?_⟩
    rw [hlog, requests_ticked hresult]
    exact h.asked
  cases hturn with
  | off hoff =>
    rw [hconnected] at hoff
    cases hoff
  | fail tried => exact .inl (.inl ⟨_, _, rfl, rfl⟩)
  | reply hready hpending response =>
    exact .inr ⟨hasking _ rfl (by simp), .inl (rank_answered hlt rfl rfl _)⟩
  | here hready hearly hwaiting view response hhere =>
    exact .inr ⟨hasking _ rfl (by simp), .inl (rank_answered hlt rfl rfl _)⟩
  | rest hready hearly hnone =>
    have hpending : w.input.client.pendingSequence ≠ 0 := by
      intro hpending
      exact hnone ⟨hpending, hwork.resolve_left fun hne => hne hpending⟩
    have hzero := (h.timed.facts h.clock).waits hpending
    rw [rest_eq (.inl hpending)] at hasking ⊢
    refine .inr ⟨hasking _ rfl (by simp), .inr ⟨rank_nothing w _ rfl rfl, rfl, fun c hc => ?_⟩⟩
    cases hc
    exact not_le.mp fun hle => hearly ⟨hzero, hle⟩
  | putOff hready hearly hwaiting =>
    have hnow : 0 ≤ now := hclock.now
    refine .inr ⟨hasking _ rfl (by simp), ?_⟩
    by_cases hnone : w.input.deadline < 0
    · refine .inl (rank_lt _ rfl rfl ?_)
      have hset : 0 ≤ if w.input.deadline < 0 then now + 5000 else w.input.deadline := by
        rw [if_pos hnone]
        omega
      rw [stage_of_waiting hwaiting, if_neg (not_le.mpr hnone)]
      have hnew : stage { w.input with deadline :=
          if w.input.deadline < 0 then now + 5000 else w.input.deadline } = 1 := by
        rw [stage, if_neg (not_not.mpr hwaiting.pending), if_pos hset]
      exact hnew.trans_lt Nat.one_lt_two
    · refine .inr ⟨?_, if_neg hnone, fun c hc => ?_⟩
      · rw [if_neg hnone]
        exact rank_nothing w _ rfl rfl
      · cases hc
        exact not_le.mp fun hle => hearly ⟨not_lt.mp hnone, hle⟩
  | send hready hearly hwaiting client wire hconnected hpending hnext hwire =>
    refine .inr ⟨hasking _ rfl (by simp), .inl ?_⟩
    have hne : client.pendingSequence ≠ 0 := by
      rw [hpending]
      exact h.kept.next
    refine rank_lt _ rfl rfl ?_
    rw [stage_of_pending hne, stage_of_waiting hwaiting]
    split_ifs <;> omega

lemma Asking.more (h : Asking asked w) {w' : World} (hkept : Kept w') (htimed : Timed w')
    (ha : Asked w w') : Asking asked w' ∧ Nearer asked w w' none := by
  have hstage : stage w'.input = stage w.input := by
    rw [stage, stage, ha.client, ha.deadline]
  have hclock : Clock w'.log := by
    rw [Clock, ha.times]
    exact h.clock
  have hlog : asked <+: requests w'.log ∧ answered w'.log = answered w.log := by
    rcases ha.log with heq | ⟨request, heq | heq⟩
    · rw [heq]
      exact ⟨h.asked, rfl⟩
    · rw [heq]
      exact ⟨h.asked.trans (prefix_append _ _), rfl⟩
    · rw [heq]
      exact ⟨h.asked, rfl⟩
  refine ⟨⟨hkept, htimed, hclock, hlog.1⟩, .inr ⟨?_, ha.deadline, by simp⟩⟩
  rw [rank, rank, hlog.2, hstage]

def tickTime : Call → Option ℤ
  | .tick _ _ now => some now
  | _ => none

lemma Asking.call (h : Asking asked w) (hleft : ¬Settled asked w) (c : Call)
    (hclock : Clock (c.run w).log) :
    Settled asked (c.run w) ∨ Asking asked (c.run w) ∧ Nearer asked w (c.run w) (tickTime c) := by
  have hkept := h.kept.call c
  have htimed := h.timed.call h.kept c
  have hconnected := (h.left hleft).2.1
  cases c with
  | tick receiving sending now =>
    exact h.turn hleft (tick_turn h.kept.next receiving sending now) hclock
  | key keysym modifiers => exact .inr (h.more hkept htimed (key_asked w keysym modifiers))
  | toggle outcome now =>
    refine .inr (h.more hkept htimed ?_)
    rw [Call.run, World.toggle]
    split_ifs
    · exact ⟨rfl, rfl, id, .inl rfl⟩
    · exact request_asked w

def callTime : Call → Option ℤ
  | .toggle _ now | .tick _ _ now => some now
  | .key _ _ => none

/-- A desktop whose clock is right and which looks at the connection again and again. -/
structure Fair (later : ℕ → Call) : Prop where
  forward : ∀ n m c c', n ≤ m → callTime (later n) = some c → callTime (later m) = some c' →
    0 ≤ c ∧ c ≤ c'
  late : ∀ n bound, ∃ m ≥ n, ∃ now, tickTime (later m) = some now ∧ bound ≤ now

lemma times_call (hkept : Kept w) (c : Call) :
    (c.run w).log.filterMap time = w.log.filterMap time ∨
      ∃ now, callTime c = some now ∧
        (c.run w).log.filterMap time = now :: w.log.filterMap time := by
  cases c with
  | key keysym modifiers => exact .inl (key_asked w keysym modifiers).times
  | tick receiving sending now =>
    refine .inr ⟨now, rfl, ?_⟩
    have hturn := tick_turn hkept.next receiving sending now
    rw [Call.run]
    generalize w.tick receiving sending now = w' at hturn
    cases hturn <;> rfl
  | toggle outcome now =>
    rw [Call.run, World.toggle]
    split_ifs with hfailed hconnected
    · exact .inl rfl
    · exact .inl (request_asked w).times
    unfold Client.connect
    rw [if_neg hconnected]
    cases outcome with
    | absent => exact .inl rfl
    | refused => exact .inl rfl
    | ok => exact .inr ⟨now, rfl, (request_asked _).times⟩

lemma exists_run (later : ℕ → Call) (n : ℕ) :
    ∃ calls, states Call.run .idle later n = run .idle calls := by
  induction n with
  | zero => exact ⟨[], rfl⟩
  | succ n ih =>
    obtain ⟨calls, heq⟩ := ih
    refine ⟨calls ++ [later n], ?_⟩
    rw [states, heq]
    change _ = List.foldl Call.run .idle (calls ++ [later n])
    rw [foldl_append]
    rfl

lemma kept_states (later : ℕ → Call) (n : ℕ) : Kept (states Call.run .idle later n) := by
  obtain ⟨calls, heq⟩ := exists_run later n
  rw [heq]
  exact kept_run calls

lemma Fair.clock {later : ℕ → Call} (h : Fair later) (n : ℕ) :
    Clock (states Call.run .idle later n).log := by
  suffices hboth : Clock (states Call.run .idle later n).log ∧
      ∀ c ∈ (states Call.run .idle later n).log.filterMap time,
        ∃ m < n, callTime (later m) = some c from hboth.1
  induction n with
  | zero => exact ⟨⟨Pairwise.nil, fun _ hc => absurd hc not_mem_nil⟩,
      fun _ hc => absurd hc not_mem_nil⟩
  | succ n ih =>
    obtain ⟨⟨hpairs, hzero⟩, hfrom⟩ := ih
    rw [states, Clock]
    rcases times_call (kept_states later n) (later n) with heq | ⟨now, htime, heq⟩
    · rw [heq]
      exact ⟨⟨hpairs, hzero⟩, fun c hc => (hfrom c hc).imp fun m hm => ⟨by omega, hm.2⟩⟩
    · rw [heq]
      refine ⟨⟨List.pairwise_cons.mpr ⟨fun c hc => ?_, hpairs⟩, fun c hc => ?_⟩, fun c hc => ?_⟩
      · obtain ⟨m, hm, hc⟩ := hfrom c hc
        exact (h.forward m n c now hm.le hc htime).2
      · rcases List.mem_cons.mp hc with rfl | hc
        · exact (h.forward n n c c le_rfl htime htime).1
        · exact hzero c hc
      · rcases List.mem_cons.mp hc with rfl | hc
        · exact ⟨n, Nat.lt_succ_self n, htime⟩
        · exact (hfrom c hc).imp fun m hm => ⟨by omega, hm.2⟩

lemma Asking.until {later : ℕ → Call} (hfair : Fair later) {n : ℕ}
    (h : Asking asked (states Call.run .idle later n)) {m : ℕ} (hm : n ≤ m) :
    (∃ k ≥ n, Settled asked (states Call.run .idle later k)) ∨
      (∃ k ≥ n, Asking asked (states Call.run .idle later k) ∧
        rank asked (states Call.run .idle later k) < rank asked (states Call.run .idle later n)) ∨
      Asking asked (states Call.run .idle later m) ∧
        rank asked (states Call.run .idle later m) = rank asked (states Call.run .idle later n) ∧
        (states Call.run .idle later m).input.deadline =
          (states Call.run .idle later n).input.deadline := by
  induction m, hm using Nat.le_induction with
  | base => exact .inr (.inr ⟨h, rfl, rfl⟩)
  | succ m hm ih =>
    rcases ih with hsettled | hfalls | ⟨hm', hrank, hdeadline⟩
    · exact .inl hsettled
    · exact .inr (.inl hfalls)
    by_cases hleft : Settled asked (states Call.run .idle later m)
    · exact .inl ⟨m, hm, hleft⟩
    rcases hm'.call hleft (later m) (hfair.clock (m + 1)) with hsettled |
      ⟨hnext, hlt | ⟨heq, hsame, -⟩⟩
    · exact .inl ⟨m + 1, by omega, hsettled⟩
    · exact .inr (.inl ⟨m + 1, by omega, hnext, hrank ▸ hlt⟩)
    · exact .inr (.inr ⟨hnext, heq.trans hrank, hsame.trans hdeadline⟩)

/-- **What was asked for is answered**, or the connection fails. -/
theorem answers_come {later : ℕ → Call} (hfair : Fair later) (n : ℕ) :
    ∃ k ≥ n, Settled (requests (states Call.run .idle later n).log)
      (states Call.run .idle later k) := by
  have hstart : Asking (requests (states Call.run .idle later n).log)
      (states Call.run .idle later n) := by
    refine ⟨kept_states later n, ?_, hfair.clock n, prefix_rfl⟩
    obtain ⟨calls, hcalls⟩ := exists_run later n
    rw [hcalls]
    exact timed_run calls
  generalize requests (states Call.run .idle later n).log = asked at hstart ⊢
  refine reaches (s := states Call.run .idle later) (Q := Asking asked) (G := Settled asked)
    (rank asked) (fun n hn => ?_) hstart
  -- The first tick behind the deadline there is now.
  obtain ⟨m, hm, now, htick, hlate⟩ := hfair.late n (states Call.run .idle later n).input.deadline
  rcases hn.until hfair hm with hsettled | hfalls | ⟨hthere, hrank, hdeadline⟩
  · exact .inl hsettled
  · exact .inr hfalls
  by_cases hleft : Settled asked (states Call.run .idle later m)
  · exact .inl ⟨m, hm, hleft⟩
  rcases hthere.call hleft (later m) (hfair.clock (m + 1)) with hsettled |
    ⟨hnext, hlt | ⟨-, -, hearly⟩⟩
  · exact .inl ⟨m + 1, by omega, hsettled⟩
  · exact .inr ⟨m + 1, by omega, hnext, hrank ▸ hlt⟩
  have hbefore := hearly now htick
  rw [hdeadline] at hbefore
  exact absurd hbefore (not_lt.mpr hlate)

/-- **The queue of keys.** Whatever is asked for and whatever comes over the wire: until the
connection fails, every request is answered once, in order and as it was asked; a text is delivered
once, by the tick that received it; a key becomes a choice or another page only for the page that
the last answer showed; a request is sent once at most; a request that could be sent waits for less
than five seconds after the first attempt; and everything is answered in the end, unless the
connection fails. -/
theorem keys_in_order (calls : List Call) :
    (∀ newer t older, (run .idle calls).log = newer ++ .ticked t :: older →
        AllowedTick t older ∧ Prompt t older) ∧
      requests (run .idle calls).log = answered (run .idle calls).log ++
        outstanding (run .idle calls).input ++ (run .idle calls).input.queue.contents ∧
      ∀ later, Fair later → ∀ n, ∃ k ≥ n, Settled (requests (states Call.run .idle later n).log)
        (states Call.run .idle later k) := by
  refine ⟨fun newer t older hlog => ?_, (kept_run calls).order, fun later hfair n =>
    answers_come hfair n⟩
  have hallowed := (kept_run calls).always
  have htime := (timed_run calls).always
  rw [hlog] at hallowed htime
  exact ⟨hallowed.apply, htime.apply⟩

/-- A connection is made, and then only time goes by. -/
def silent (n : ℕ) : Call := if n = 0 then .toggle .ok 0 else .tick .again .again n

lemma fair_silent : Fair silent := by
  have htime : ∀ n c, callTime (silent n) = some c → c = n := by
    intro n c hc
    unfold silent at hc
    split_ifs at hc with hzero
    · cases hc
      rw [hzero]
      rfl
    · cases hc
      rfl
  refine ⟨fun n m c c' hle hc hc' => ?_, fun n bound => ?_⟩
  · rw [htime n c hc, htime m c' hc']
    omega
  refine ⟨n + bound.toNat + 1, by omega, ((n + bound.toNat + 1 : ℕ) : ℤ), ?_, ?_⟩
  · rw [silent, if_neg (by omega)]
    rfl
  have := Int.self_le_toNat bound
  push_cast
  omega

/-- The change of the mode that `silent` begins with. -/
theorem keys_in_order_run : ∃ k ≥ 1, Settled (requests (states Call.run .idle silent 1).log)
    (states Call.run .idle silent k) :=
  (keys_in_order []).2.2 silent fair_silent 1

/-! ### From when five seconds are counted -/

/-- Five seconds from the tick that sent the request before, and with it put this one at the
head. -/
def PromptFromHead (log : List Event) : Prop :=
  ∀ t middle t' older sent request rest, log = .ticked t :: middle ++ .ticked t' :: older →
    t'.sent.isSome = true →
    requests (.ticked t' :: older) = answered (.ticked t' :: older) ++ sent :: request :: rest →
    (∀ s, .ticked s ∈ .ticked t :: middle → s.sent = none ∧ s.result ≠ -1) →
    (answered log).length ≤ (answered (.ticked t' :: older)).length + 1 →
    t.now ≤ t'.now + 5000

def modeReply : Bytes :=
  put32 wireMagic ++ put16 protocolVersion ++ put16 0x8002 ++ put32 1 ++ put32 40 ++ put32 0 ++
    put32 5 ++ put32 0 ++ put32 0 ++ put32 0 ++ put32 0

/-- A key that waits four seconds for the reply to the mode, and then for the socket. -/
def patientKey : List Call :=
  [.toggle .ok 0, .key 0x61 0, .tick .again .whole 0, .tick (.packet modeReply false) .again 4000,
    .tick .again .again 4000, .tick .again .again 8999]

/-- **The five seconds begin with the first attempt**: the head waits for the reply to the request
before it first. -/
theorem keys_in_order_fails : ¬∀ calls, Clock (run .idle calls).log →
    PromptFromHead (run .idle calls).log := by
  intro h
  let mode : Request := ⟨opMode, 0, 0, modeChinese⟩
  let key : Request := ⟨opKey, 0x61, 0, 0⟩
  let reply : Response := ⟨1, mode, 5, 0, 0, [], [], [], 0⟩
  let first : Tick := ⟨0, none, true, some (mode, mode), 0, none⟩
  let last : Tick := ⟨8999, none, true, none, 0, none⟩
  let middle : List Event := [.ticked ⟨4000, none, true, none, 0, none⟩,
    .ticked ⟨4000, some reply, false, none, 1, some reply⟩]
  let older : List Event := [.accepted key, .accepted mode, .connected 0]
  have hlog : (run .idle patientKey).log = .ticked last :: middle ++ .ticked first :: older := by
    decide +kernel
  have hclock : Clock (run .idle patientKey).log := by
    rw [hlog]
    constructor <;> decide
  have hunsent : ∀ s, .ticked s ∈ .ticked last :: middle → s.sent = none ∧ s.result ≠ -1 := by
    intro s hs
    simp only [middle, mem_cons, Event.ticked.injEq, not_mem_nil, or_false] at hs
    rcases hs with rfl | rfl | rfl <;> decide
  have hlate := h patientKey hclock last middle first older mode key [] hlog rfl (by decide)
    hunsent (by rw [hlog]; decide)
  exact absurd hlate (by decide)

end C1auncher.Ui.InputMethodAnswers
