import C1auncher.Ui.ImeWire

/-!
What a run of the input method's queue comes to: every request is answered once and in order, a
text is delivered once, and a key is only translated for the page that is shown.
-/

namespace C1auncher.Ui.InputMethodRuns

open Rings Traces Ui.ImeWire Ui.InputMethod List

/-- A tick that returned -1. -/
def isFailure : Event → Bool
  | .ticked t => t.result == -1
  | _ => false

/-- A tick that returned -1 or an answer. -/
def isEnd : Event → Bool
  | .ticked t => t.result != 0
  | _ => false

/-- The requests that were accepted since the last failure. -/
def requests : List Event → List Request
  | [] => []
  | .accepted request :: log => requests log ++ [request]
  | .ticked t :: log => if t.result = -1 then [] else requests log
  | _ :: log => requests log

/-- The answers since the last failure. -/
def answers : List Event → List Response
  | [] => []
  | .ticked t :: log => if t.result = -1 then [] else answers log ++ t.response.toList
  | _ :: log => answers log

def answered (log : List Event) : List Request := (answers log).map (·.request)

/-- A page as it was shown last; whether the last key was consumed is not part of it. -/
structure Sees (view shown : Response) : Prop where
  count : view.candidateCount = shown.candidateCount
  highlighted : view.highlightedCandidate = shown.highlightedCandidate
  candidates : view.candidates = shown.candidates
  preedit : view.preedit = shown.preedit
  flags : view.flags &&& ~~~flagConsumed = shown.flags &&& ~~~flagConsumed

/-- What a key becomes for a page: another page, or a candidate that is on it. -/
def Translated (page : Response) (original wire : Request) : Prop :=
  original.operation = opKey ∧ Response.has page flagComposing = true ∧
    (wire = ⟨opPage, 0, 0, if original.keysym = keyPageDown then pageNext else pagePrevious⟩ ∨
      wire = ⟨opSelect, 0, 0, indexOf page original.keysym⟩ ∧
        indexOf page original.keysym < page.candidateCount)

/-- What a tick may do after what has happened before it. -/
structure AllowedTick (t : Tick) (past : List Event) : Prop where
  ordered : ∀ response, t.response = some response →
    t.result = 1 ∧ ∃ rest, requests past = answered past ++ response.request :: rest
  given : t.result = 1 → t.response.isSome = true
  delivered : ∀ reply, t.received = some reply →
    ∃ response, t.response = some response ∧ response.commit = reply.commit
  once : t.received = none → ∀ response, t.response = some response → response.commit = []
  sent : ∀ original wire, t.sent = some (original, wire) →
    (∃ rest, requests past = answered past ++ original :: rest) ∧ (wire ≠ original →
      ∃ page, (answers past).getLast? = some page ∧ Translated page original wire)
  fresh : t.sent.isSome = true → ∀ t', .ticked t' ∈ since isEnd past → t'.sent = none
  refused : ∀ request, .refused request ∈ since isFailure past → t.result = -1

def Allowed : Event → List Event → Prop
  | .ticked t, past => AllowedTick t past
  | _, _ => True

/-- The request that was sent and not answered. -/
def outstanding (input : Input) : List Request :=
  if input.client.pendingSequence = 0 then [] else [input.originalRequest]

/-- Between two calls. -/
structure Kept (w : World) : Prop where
  always : Always Allowed w.log
  order : requests w.log =
    answered w.log ++ outstanding w.input ++ w.input.queue.contents
  idle : w.input.client.connected = false →
    w.input.client.pendingSequence = 0 ∧ w.input.queue.count = 0
  next : w.input.client.nextSequence ≠ 0
  seen : Response.has w.input.view flagReady = true →
    ∃ page, (answers w.log).getLast? = some page ∧ Sees w.input.view page
  flying : w.input.client.pendingSequence = 0 →
    ∀ t, .ticked t ∈ since isEnd w.log → t.sent = none
  overfull : ∀ request, .refused request ∈ since isFailure w.log →
    w.input.failed = true ∧ w.input.client.connected = true

variable {w : World}

/-! ### Pages -/

lemma has_of_mask {a b : Response} (h : a.flags &&& ~~~flagConsumed = b.flags &&& ~~~flagConsumed)
    {flag : UInt32} (hflag : ~~~flagConsumed &&& flag = flag) :
    Response.has a flag = Response.has b flag := by
  unfold Response.has
  rw [← hflag, ← UInt32.and_assoc, ← UInt32.and_assoc, h]

lemma Sees.translated {view shown : Response} (h : Sees view shown) {original wire : Request}
    (ht : Translated view original wire) : Translated shown original wire := by
  have hindex : indexOf view original.keysym = indexOf shown original.keysym := by
    unfold indexOf
    rw [h.highlighted]
  obtain ⟨hkey, hcomposing, hwire⟩ := ht
  rw [has_of_mask h.flags (by decide)] at hcomposing
  rw [hindex, h.count] at hwire
  exact ⟨hkey, hcomposing, hwire⟩

lemma mask_or (flags : UInt32) :
    flags &&& ~~~flagConsumed =
      ((flags &&& ~~~flagConsumed) ||| flagConsumed) &&& ~~~flagConsumed := by
  rw [← UInt32.toBitVec_inj]
  ext i hi
  simp only [UInt32.toBitVec_and, UInt32.toBitVec_or, UInt32.toBitVec_not, BitVec.getElem_and,
    BitVec.getElem_or, BitVec.getElem_not]
  cases flags.toBitVec[i] <;> cases flagConsumed.toBitVec[i] <;> rfl

/-- What an answer says that does not go over the wire. -/
structure Here (request : Request) (view response : Response) : Prop where
  request : response.request = request
  commit : response.commit = []
  sees : Sees view response

lemma answerHere_eq (view : Response) (request : Request) (consumed : Bool) :
    ∃ response, answerHere view request consumed = .answer view response ∧
      Here request view response := by
  refine ⟨_, rfl, rfl, rfl, rfl, rfl, rfl, rfl, ?_⟩
  cases consumed
  · simp [UInt32.and_assoc]
  · exact mask_or view.flags

/-- **The head of the queue** is answered with the page that is shown, or goes over the wire as it
is or translated for that page. -/
lemma resolveKey_cases (view : Response) (request : Request) :
    (∃ view' response, resolveKey view request = .answer view' response ∧
        Here request view' response) ∨
      ∃ wire, resolveKey view request = .request wire ∧ (wire = request ∨
        Response.has view flagReady = true ∧ Translated view request wire) := by
  generalize hresolved : resolveKey view request = resolved
  unfold resolveKey at hresolved
  dsimp only at hresolved
  split at hresolved
  · exact .inr ⟨request, hresolved.symm, .inl rfl⟩
  next hkind =>
  simp only [ne_eq, decide_not, Bool.or_eq_true, Bool.not_eq_true', not_or, Bool.not_eq_false,
    decide_eq_false_iff_not, not_not] at hkind
  obtain ⟨⟨⟨hkey, hready⟩, -⟩, -⟩ := hkind
  have hhere : ∀ view' consumed, answerHere view' request consumed = resolved →
      ∃ view' response, resolved = .answer view' response ∧ Here request view' response := by
    intro view' consumed heq
    obtain ⟨response, hanswer, hhere⟩ := answerHere_eq view' request consumed
    exact ⟨view', response, heq ▸ hanswer, hhere⟩
  split at hresolved
  · exact .inr ⟨request, hresolved.symm, .inl rfl⟩
  split at hresolved
  · exact .inl (hhere _ _ hresolved)
  split at hresolved
  · split at hresolved
    · next hcomposing =>
      exact .inr ⟨_, hresolved.symm, .inr ⟨hready, hkey, hcomposing, .inl rfl⟩⟩
    · exact .inl (hhere _ _ hresolved)
  split at hresolved
  · next hchoice =>
    split at hresolved
    · next hlt =>
      exact .inr ⟨_, hresolved.symm, .inr ⟨hready, hkey, (Bool.and_eq_true_iff.mp hchoice).1,
        .inr ⟨rfl, hlt⟩⟩⟩
    · exact .inl (hhere _ _ hresolved)
  · exact .inr ⟨request, hresolved.symm, .inl rfl⟩

/-! ### The wire -/

variable {client : Client} {now : ℤ} {tried : Bool} {sent : Option (Request × Request)} {t : Tick}

lemma receive_cases (h : client.connected = true) (receiving : Receiving) :
    client.receive receiving = (client, 0, none) ∨
      (∃ client', client.receive receiving = (client', -1, none)) ∨
      client.pendingSequence ≠ 0 ∧ ∃ response, client.receive receiving =
        ({ client with pendingSequence := 0, pendingRequest := .zero }, 1, some response) := by
  unfold Client.receive
  rw [if_neg (by rw [h]; decide)]
  cases receiving with
  | again => exact .inl rfl
  | failed => exact .inr (.inl ⟨_, rfl⟩)
  | ended => exact .inr (.inl ⟨_, rfl⟩)
  | packet bytes cut =>
    dsimp only
    rcases hdecode : client.decode bytes cut with _ | response
    · exact .inr (.inl ⟨_, rfl⟩)
    refine .inr (.inr ⟨fun hpending => ?_, response, rfl⟩)
    have hexpects : client.expects bytes cut = false := by
      simp [Client.expects, hpending]
    rw [Client.decode, hexpects] at hdecode
    cases hdecode

lemma send_cases (h : client.connected = true)
    (hpending : client.pendingSequence = 0) (request : Request) (sending : Sending) :
    client.send request sending = (client, 0) ∨
      (∃ client', client.send request sending = (client', -1)) ∨
      ∃ client', client.send request sending = (client', 1) ∧ client'.connected = true ∧
        client'.pendingSequence = client.nextSequence ∧ client'.nextSequence ≠ 0 := by
  unfold Client.send
  rw [if_neg (by rw [h]; decide), if_neg (not_not.mpr hpending)]
  by_cases hvalid : validRequest request = true
  · rw [if_neg (by rw [hvalid]; decide)]
    cases sending with
    | again => exact .inl rfl
    | failed => exact .inr (.inl ⟨_, rfl⟩)
    | part => exact .inr (.inl ⟨_, rfl⟩)
    | whole =>
      refine .inr (.inr ⟨_, rfl, h, rfl, ?_⟩)
      dsimp only
      split_ifs with hzero
      · decide
      · exact hzero
  · rw [if_pos (by rw [Bool.not_eq_true] at hvalid; rw [hvalid]; rfl)]
    exact .inr (.inl ⟨_, rfl⟩)

/-! ### What a tick does -/

/-- A connection over which nothing has failed. -/
structure Ready (w : World) : Prop where
  connected : w.input.client.connected = true
  fine : w.input.failed = false

def Early (w : World) (now : ℤ) : Prop := ¬(0 ≤ w.input.deadline ∧ w.input.deadline ≤ now)

/-- There is a request to be sent, and nothing is outstanding. -/
structure Waiting (input : Input) : Prop where
  pending : input.client.pendingSequence = 0
  count : input.queue.count ≠ 0

/-- What a tick comes to. -/
inductive Turn (w : World) (now : ℤ) : World → Prop
  | off (hoff : w.input.client.connected = false) :
      Turn w now (w.tell (.ticked ⟨now, none, false, none, 0, none⟩))
  | fail (tried : Bool) : Turn w now (w.fail now tried)
  | reply (hready : Ready w) (hpending : w.input.client.pendingSequence ≠ 0) (response : Response) :
      Turn w now (w.reply { w.input.client with pendingSequence := 0, pendingRequest := .zero }
        response now)
  | rest (hready : Ready w) (hearly : Early w now) (hnone : ¬Waiting w.input) :
      Turn w now (w.rest now false none)
  | here (hready : Ready w) (hearly : Early w now) (hwaiting : Waiting w.input)
      (view response : Response) (hhere : Here w.input.queue.front view response) :
      Turn w now ({ w with input := { w.input with view := view, queue := w.input.queue.pop } }.tell
        (.ticked ⟨now, none, false, none, 1, some response⟩))
  | putOff (hready : Ready w) (hearly : Early w now) (hwaiting : Waiting w.input) :
      Turn w now ({ w with input := { w.input with
        deadline := if w.input.deadline < 0 then now + 5000 else w.input.deadline } }.tell
          (.ticked ⟨now, none, true, none, 0, none⟩))
  | send (hready : Ready w) (hearly : Early w now) (hwaiting : Waiting w.input) (client : Client)
      (wire : Request) (hconnected : client.connected = true)
      (hpending : client.pendingSequence = w.input.client.nextSequence)
      (hnext : client.nextSequence ≠ 0)
      (hwire : wire = w.input.queue.front ∨ Response.has w.input.view flagReady = true ∧
        Translated w.input.view w.input.queue.front wire) :
      Turn w now ({ w with input := { w.input with
        client := client
        originalRequest := w.input.queue.front
        queue := w.input.queue.pop
        deadline := now + 5000 } }.tell
          (.ticked ⟨now, none, true, some (w.input.queue.front, wire), 0, none⟩))

lemma rest_eq (h : w.input.client.pendingSequence ≠ 0 ∨ w.input.queue.count ≠ 0) :
    w.rest now tried sent = w.tell (.ticked ⟨now, none, tried, sent, 0, none⟩) := by
  unfold World.rest
  dsimp only
  rw [if_neg]
  · simp only [Bool.and_eq_true, beq_iff_eq, not_and]
    rintro ⟨-, hcount⟩ hpending
    exact h.elim (· hpending) (· hcount)

lemma turn_serve (hnext : w.input.client.nextSequence ≠ 0) (hready : Ready w)
    (hearly : Early w now) (hwaiting : Waiting w.input) (sending : Sending) :
    Turn w now (w.serve sending now) := by
  unfold World.serve
  dsimp only
  rcases resolveKey_cases w.input.view w.input.queue.front with ⟨view, response, heq, hhere⟩ |
    ⟨wire, heq, hwire⟩
  · rw [heq]
    exact .here hready hearly hwaiting view response hhere
  rw [heq]
  dsimp only
  unfold World.submit
  rcases send_cases hready.connected hwaiting.pending wire sending with hsend | ⟨client, hsend⟩ |
    ⟨client, hsend, hconnected, hpending, hnext'⟩
  · rw [hsend]
    change Turn w now (World.rest _ now true none)
    rw [rest_eq]
    · exact .putOff hready hearly hwaiting
    · exact .inr hwaiting.count
  · rw [hsend]
    exact .fail true
  · rw [hsend]
    change Turn w now (World.rest _ now true (some (w.input.queue.front, wire)))
    rw [rest_eq]
    · exact .send hready hearly hwaiting client wire hconnected hpending hnext' hwire
    · exact .inl (by rw [hpending]; exact hnext)

lemma tick_turn (hnext : w.input.client.nextSequence ≠ 0) (receiving : Receiving)
    (sending : Sending) (now : ℤ) :
    Turn w now (w.tick receiving sending now) := by
  unfold World.tick
  dsimp only
  by_cases hconnected : w.input.client.connected = true
  · rw [if_neg (by rw [hconnected]; decide)]
    by_cases hfailed : w.input.failed = true
    · rw [if_pos hfailed]
      exact .fail false
    rw [if_neg hfailed]
    have hready : Ready w := ⟨hconnected, by rwa [Bool.not_eq_true] at hfailed⟩
    rcases receive_cases hconnected receiving with hreceive | ⟨client, hreceive⟩ |
      ⟨hpending, response, hreceive⟩
    · rw [hreceive]
      split_ifs with hlate hserve
      · exact .fail false
      · exact turn_serve hnext hready hlate ⟨hserve.1, hserve.2⟩ sending
      · exact .rest hready hlate fun hwaiting => hserve ⟨hwaiting.pending, hwaiting.count⟩
    · rw [hreceive]
      exact .fail false
    · rw [hreceive]
      exact .reply hready hpending response
  · rw [Bool.not_eq_true] at hconnected
    rw [if_pos (by rw [hconnected]; rfl)]
    exact .off hconnected

/-! ### Ticks -/

lemma next_init : Client.init.nextSequence ≠ 0 := by decide

lemma outstanding_of_zero {input : Input} (h : input.client.pendingSequence = 0) :
    outstanding input = [] :=
  if_pos h

lemma requests_ticked (h : t.result ≠ -1) (log : List Event) :
    requests (.ticked t :: log) = requests log :=
  if_neg h

lemma answers_ticked (h : t.result ≠ -1) (log : List Event) :
    answers (.ticked t :: log) = answers log ++ t.response.toList :=
  if_neg h

lemma isFailure_ticked (h : t.result ≠ -1) : isFailure (.ticked t) = false :=
  beq_eq_false_iff_ne.mpr h

lemma Kept.fail (h : Kept w) (now : ℤ) (tried : Bool) : Kept (w.fail now tried) := by
  have hallowed : AllowedTick ⟨now, none, tried, none, -1, none⟩ w.log :=
    ⟨nofun, by simp, nofun, fun _ => nofun, nofun, nofun, fun _ _ => rfl⟩
  have hzero : Response.has .zero flagReady = false := rfl
  exact ⟨⟨hallowed, h.always⟩, rfl, fun _ => ⟨rfl, rfl⟩, next_init,
    fun hready => absurd hready (hzero ▸ Bool.false_ne_true),
    fun _ _ ht => absurd ht not_mem_nil, fun _ ht => absurd ht not_mem_nil⟩

lemma Kept.not_refused (h : Kept w)
    (hfine : w.input.failed = false ∨ w.input.client.connected = false) (request : Request) :
    .refused request ∉ since isFailure w.log := fun hmem => by
  obtain ⟨hfailed, hconnected⟩ := h.overfull request hmem
  rw [hfailed, hconnected] at hfine
  rcases hfine with hfine | hfine <;> cases hfine

lemma Kept.nothing (h : Kept w)
    (hfine : w.input.failed = false ∨ w.input.client.connected = false)
    (hallowed : AllowedTick ⟨now, none, tried, sent, 0, none⟩ w.log)
    (hsent : w.input.client.pendingSequence = 0 → sent = none) :
    Kept (w.tell (.ticked ⟨now, none, tried, sent, 0, none⟩)) := by
  generalize ht : Tick.mk now none tried sent 0 none = t at hallowed
  have hresult : t.result ≠ -1 := by rw [← ht]; simp
  have hend : isEnd (.ticked t) = false := by rw [← ht]; rfl
  have hanswers : answers (.ticked t :: w.log) = answers w.log := by
    rw [answers_ticked hresult, ← ht]
    exact append_nil _
  refine ⟨⟨hallowed, h.always⟩, ?_, h.idle, h.next, ?_, fun hpending t' ht' => ?_,
    fun request hmem => ?_⟩
  · rw [World.tell, requests_ticked hresult, answered, hanswers]
    exact h.order
  · rw [World.tell, hanswers]
    exact h.seen
  · rcases (mem_since_cons hend).mp ht' with heq | ht'
    · cases heq
      rw [← ht]
      exact hsent hpending
    · exact h.flying hpending t' ht'
  · rw [World.tell, mem_since_of_ne (isFailure_ticked hresult) (by simp)] at hmem
    exact absurd hmem (h.not_refused hfine request)

lemma Kept.allowed (h : Kept w)
    (hfine : w.input.failed = false ∨ w.input.client.connected = false) (now : ℤ) (tried : Bool) :
    AllowedTick ⟨now, none, tried, none, 0, none⟩ w.log :=
  ⟨nofun, by simp, nofun, fun _ => nofun, nofun, nofun,
    fun request hmem => absurd hmem (h.not_refused hfine request)⟩

lemma Kept.rest (h : Kept w) (hfailed : w.input.failed = false)
    (hallowed : AllowedTick ⟨now, none, tried, sent, 0, none⟩ w.log)
    (hsent : w.input.client.pendingSequence = 0 → sent = none) : Kept (w.rest now tried sent) := by
  have hnothing := h.nothing (.inl hfailed) hallowed hsent
  have hrefused : ∀ request, .refused request ∉
      since isFailure (w.tell (.ticked ⟨now, none, tried, sent, 0, none⟩)).log :=
    hnothing.not_refused (.inl hfailed)
  unfold World.rest
  dsimp only
  split_ifs with hdrained
  · simp only [Bool.and_eq_true, beq_iff_eq] at hdrained
    obtain ⟨⟨-, hcount⟩, hpending⟩ := hdrained
    have horder := hnothing.order
    have hnone : outstanding (w.tell (.ticked ⟨now, none, tried, sent, 0, none⟩)).input = [] :=
      outstanding_of_zero hpending
    rw [hnone] at horder
    exact ⟨hnothing.always, horder, fun _ => ⟨rfl, hcount⟩, next_init,
      hnothing.seen, fun _ => hnothing.flying hpending,
      fun request hmem => absurd hmem (hrefused request)⟩
  · exact hnothing

lemma Kept.answer (h : Kept w) (hfailed : w.input.failed = false)
    {input : Input} {response : Response} (hone : t.result = 1)
    (hresponse : t.response = some response)
    (hclient : input.client.connected = true ∧ input.client.pendingSequence = 0 ∧
      input.client.nextSequence ≠ 0)
    (horder : requests w.log = answered w.log ++ response.request :: input.queue.contents)
    (hcommit : response.commit = (t.received.map (·.commit)).getD [])
    (hsent : t.sent = none) (hsees : Sees input.view response) :
    Kept ⟨input, .ticked t :: w.log⟩ := by
  have hresult : t.result ≠ -1 := by rw [hone]; simp
  have hallowed : AllowedTick t w.log := by
    refine ⟨fun r hr => ?_, fun _ => by rw [hresponse]; rfl, fun reply hreply => ?_,
      fun hnone r hr => ?_, fun _ _ hs => ?_, fun hs => ?_, fun request hmem => ?_⟩
    · rw [hresponse] at hr
      cases hr
      exact ⟨hone, _, horder⟩
    · refine ⟨response, hresponse, ?_⟩
      rw [hcommit, hreply]
      rfl
    · rw [hresponse] at hr
      cases hr
      rw [hcommit, hnone]
      rfl
    · rw [hsent] at hs
      cases hs
    · rw [hsent] at hs
      cases hs
    · exact absurd hmem (h.not_refused (.inl hfailed) request)
  have hanswers : answers (.ticked t :: w.log) = answers w.log ++ [response] := by
    rw [answers_ticked hresult, hresponse]
    rfl
  refine ⟨⟨hallowed, h.always⟩, ?_, fun hidle => ?_, hclient.2.2, fun _ => ⟨response, ?_, hsees⟩,
    fun _ t' ht' => ?_, fun request hmem => ?_⟩
  · rw [requests_ticked hresult, answered, hanswers, map_append,
      outstanding_of_zero hclient.2.1, horder, append_nil, append_assoc]
    rfl
  · rw [hclient.1] at hidle
    cases hidle
  · rw [hanswers, getLast?_concat]
  · have hend : isEnd (.ticked t) = true := by
      change (t.result != 0) = true
      rw [hone]
      rfl
    rw [since_of_starts hend] at ht'
    cases ht'
  · rw [mem_since_of_ne (isFailure_ticked hresult) (by simp)] at hmem
    exact absurd hmem (h.not_refused (.inl hfailed) request)

lemma Kept.send (h : Kept w) (hready : Ready w) (hwaiting : Waiting w.input)
    {wire : Request} (hconnected : client.connected = true)
    (hpending : client.pendingSequence = w.input.client.nextSequence)
    (hnext : client.nextSequence ≠ 0)
    (hwire : wire = w.input.queue.front ∨ Response.has w.input.view flagReady = true ∧
      Translated w.input.view w.input.queue.front wire) (now : ℤ) :
    Kept ({ w with input := { w.input with
      client := client
      originalRequest := w.input.queue.front
      queue := w.input.queue.pop
      deadline := now + 5000 } }.tell
        (.ticked ⟨now, none, true, some (w.input.queue.front, wire), 0, none⟩)) := by
  have hrefused := h.not_refused (.inl hready.fine)
  have horder := h.order
  rw [outstanding_of_zero hwaiting.pending, append_nil, Ring.contents_pop _ hwaiting.count]
    at horder
  have hflying : client.pendingSequence ≠ 0 := by
    rw [hpending]
    exact h.next
  have hkept : Kept { w with input := { w.input with
      client := client
      originalRequest := w.input.queue.front
      queue := w.input.queue.pop
      deadline := now + 5000 } } := by
    refine ⟨h.always, ?_, fun hidle => ?_, hnext, h.seen, fun hzero => absurd hzero hflying,
      fun request hmem => absurd hmem (hrefused request)⟩
    · rw [outstanding, if_neg hflying, append_assoc]
      exact horder
    · rw [hconnected] at hidle
      cases hidle
  have hallowed :
      AllowedTick ⟨now, none, true, some (w.input.queue.front, wire), 0, none⟩ w.log := by
    refine ⟨nofun, by simp, nofun, fun _ => nofun, fun original wire' hs => ?_,
      fun _ => h.flying hwaiting.pending, fun request hmem => absurd hmem (hrefused request)⟩
    cases hs
    refine ⟨⟨_, horder⟩, fun hne => ?_⟩
    obtain ⟨hview, htranslated⟩ := hwire.resolve_left hne
    obtain ⟨page, hpage, hsees⟩ := h.seen hview
    exact ⟨page, hpage, hsees.translated htranslated⟩
  exact hkept.nothing (.inl hready.fine) hallowed fun hzero => absurd hzero hflying

lemma Kept.turn (h : Kept w) {w' : World} (hturn : Turn w now w') : Kept w' := by
  have horder := h.order
  cases hturn with
  | off hoff => exact h.nothing (.inr hoff) (h.allowed (.inr hoff) now false) fun _ => rfl
  | fail tried => exact h.fail now tried
  | reply hready hpending response =>
    rw [outstanding, if_neg hpending, append_assoc] at horder
    exact h.answer hready.fine rfl rfl ⟨hready.connected, rfl, h.next⟩ horder rfl rfl
      ⟨rfl, rfl, rfl, rfl, rfl⟩
  | rest hready hearly hnone =>
    exact h.rest hready.fine (h.allowed (.inl hready.fine) now false) fun _ => rfl
  | here hready hearly hwaiting view response hhere =>
    rw [outstanding_of_zero hwaiting.pending, append_nil, Ring.contents_pop _ hwaiting.count]
      at horder
    refine h.answer hready.fine rfl rfl ⟨hready.connected, hwaiting.pending, h.next⟩ ?_ hhere.commit
      rfl hhere.sees
    rw [hhere.request]
    exact horder
  | putOff hready hearly hwaiting =>
    have hkept : Kept { w with input := { w.input with
        deadline := if w.input.deadline < 0 then now + 5000 else w.input.deadline } } :=
      { h with }
    exact hkept.nothing (.inl hready.fine) (h.allowed (.inl hready.fine) now true) fun _ => rfl
  | send hready hearly hwaiting client wire hconnected hpending hnext hwire =>
    exact h.send hready hwaiting hconnected hpending hnext hwire now

/-! ### Keys and modes -/

lemma push_cases (input : Input) (request : Request) :
    (∃ queue, input.push request = ({ input with queue := queue }, true) ∧
        queue.contents = input.queue.contents ++ [request]) ∨
      input.push request = ({ input with failed := true }, false) := by
  unfold Input.push
  split_ifs with hroom
  · exact .inl ⟨_, rfl, Ring.contents_push _ _ hroom⟩
  · exact .inr rfl

lemma Kept.accept (h : Kept w) (hconnected : w.input.client.connected = true)
    {queue : Ring Request queueSize} {request : Request} {enabled failed : Bool}
    (hqueue : queue.contents = w.input.queue.contents ++ [request])
    (hfailed : ∀ request, .refused request ∈ since isFailure w.log → failed = true) :
    Kept ⟨{ w.input with queue := queue, enabled := enabled, failed := failed },
      .accepted request :: w.log⟩ := by
  refine ⟨⟨trivial, h.always⟩, ?_, fun hidle => ?_, h.next, h.seen, fun hpending t ht => ?_,
    fun refused hmem => ?_⟩
  · change requests w.log ++ [request] = answered w.log ++ outstanding w.input ++ queue.contents
    rw [h.order, hqueue, append_assoc]
  · rw [hconnected] at hidle
    cases hidle
  · exact h.flying hpending t ((mem_since_of_ne rfl (by simp)).mp ht)
  · have hold := (mem_since_of_ne rfl (by simp)).mp hmem
    exact ⟨hfailed refused hold, hconnected⟩

lemma Kept.overflow (h : Kept w) : Kept { w with input := { w.input with failed := true } } :=
  { h with overfull := fun request hmem => ⟨rfl, (h.overfull request hmem).2⟩ }

lemma Kept.key (h : Kept w) (keysym modifiers : UInt32) : Kept (w.key keysym modifiers).1 := by
  unfold World.key
  dsimp only
  by_cases hnobody : (!w.input.client.connected || (!w.input.enabled &&
      (w.input.queue.count == 0 && w.input.client.pendingSequence == 0))) = true
  · rw [if_pos hnobody]
    exact h
  rw [if_neg hnobody]
  have hconnected : w.input.client.connected = true := by
    simp only [Bool.or_eq_true, not_or, Bool.not_eq_true, Bool.not_eq_false'] at hnobody
    exact hnobody.1
  split_ifs
  · exact h
  rcases push_cases w.input ⟨opKey, keysym, modifiers, 0⟩ with ⟨queue, hpush, hqueue⟩ | hpush
  · rw [hpush]
    exact h.accept hconnected hqueue fun request hmem => (h.overfull request hmem).1
  rw [hpush]
  have hfull := h.overflow
  refine ⟨⟨trivial, h.always⟩, h.order, h.idle, h.next, h.seen, fun hpending t ht => ?_,
    fun _ _ => ⟨rfl, hconnected⟩⟩
  exact h.flying hpending t ((mem_since_of_ne rfl (by simp)).mp ht)

lemma Kept.request (h : Kept w) (hconnected : w.input.client.connected = true)
    (hrefused : ∀ request, .refused request ∉ since isFailure w.log) : Kept w.request.1 := by
  unfold World.request
  dsimp only
  generalize Request.mk _ _ _ _ = request
  rcases push_cases w.input request with ⟨queue, hpush, hqueue⟩ | hpush
  · rw [hpush]
    exact h.accept hconnected hqueue fun request hmem => absurd hmem (hrefused request)
  · rw [hpush]
    exact h.overflow

lemma Kept.toggle (h : Kept w) (outcome : Connect) (now : ℤ) : Kept (w.toggle outcome now).1 := by
  unfold World.toggle
  split_ifs with hfailed hconnected
  · exact h
  · rw [hconnected, Bool.and_true, Bool.not_eq_true] at hfailed
    exact h.request hconnected (h.not_refused (.inl hfailed))
  rw [Bool.not_eq_true] at hconnected
  have hrefused := h.not_refused (.inr hconnected)
  have hidle := h.idle hconnected
  unfold Client.connect
  rw [if_neg (by rw [hconnected]; decide)]
  have hclosed : ∀ client : Client, client.pendingSequence = 0 → client.nextSequence ≠ 0 →
      Kept { w with input := { w.input with client := client, failed := true } } := by
    intro client hpending hnext
    refine ⟨h.always, ?_, fun _ => ⟨hpending, hidle.2⟩, hnext, h.seen, fun _ => h.flying hidle.1,
      fun request hmem => absurd hmem (hrefused request)⟩
    have horder := h.order
    rw [outstanding_of_zero hidle.1] at horder
    rw [outstanding_of_zero hpending]
    exact horder
  cases outcome with
  | absent => exact hclosed _ hidle.1 h.next
  | refused => exact hclosed _ rfl next_init
  | ok =>
    have hopen : Kept ({ w with input := { w.input with
        client := ⟨true, 1, 0, w.input.client.pendingRequest⟩
        deadline := now + 5000 } }.tell (.connected now)) := by
      refine ⟨⟨trivial, h.always⟩, ?_, nofun, next_init, h.seen,
        fun _ t ht => h.flying hidle.1 t ((mem_since_of_ne rfl (by simp)).mp ht),
        fun request hmem => ?_⟩
      · have horder := h.order
        rw [outstanding_of_zero hidle.1] at horder
        exact horder
      · exact absurd ((mem_since_of_ne rfl (by simp)).mp hmem) (hrefused request)
    refine hopen.request rfl fun request hmem => ?_
    exact hrefused request ((mem_since_of_ne rfl (by simp)).mp hmem)

lemma Kept.call (h : Kept w) (c : Call) : Kept (c.run w) := by
  cases c with
  | toggle outcome now => exact h.toggle outcome now
  | key keysym modifiers => exact h.key keysym modifiers
  | tick receiving sending now => exact h.turn (tick_turn h.next receiving sending now)

lemma kept_idle : Kept .idle :=
  ⟨trivial, rfl, fun _ => ⟨rfl, rfl⟩, next_init,
    fun hready => absurd hready Bool.false_ne_true, fun _ _ ht => absurd ht not_mem_nil,
    fun _ hmem => absurd hmem not_mem_nil⟩

/-- **Every run** keeps the requests in order. -/
theorem kept_run (calls : List Call) : Kept (run .idle calls) := by
  have hrun : ∀ w, Kept w → Kept (run w calls) := by
    induction calls with
    | nil => exact fun _ h => h
    | cons c calls ih => exact fun w h => ih (c.run w) (h.call c)
  exact hrun .idle kept_idle

end C1auncher.Ui.InputMethodRuns
