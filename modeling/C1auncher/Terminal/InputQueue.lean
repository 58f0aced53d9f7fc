import C1auncher.SlidingWindow
import C1auncher.Utf8Bytes

/-!
The input of a terminal session: the queue in front of the pseudoterminal, and the request that
closes an idle session.
-/

namespace C1auncher.Terminal.InputQueue

open SlidingWindow Utf8Bytes List

/-- `sizeof(session->pending)` -/
def pendingSize : ℕ := 512

/-- `c1_terminal_state` -/
inductive State
  | stopped
  | running
  | exited
  | failed
  deriving DecidableEq

/-- `c1_status`, as far as it is returned here. -/
inductive Status
  | ok
  | invalidArgument
  | unavailable
  | ioError
  deriving DecidableEq

/-- `c1_terminal_session`; of a descriptor and a process it only matters whether there is one. -/
structure Session where
  masterOpen : Bool
  childAlive : Bool
  shellKnown : Bool
  controlOpen : Bool
  directExec : Bool
  inputSeen : Bool
  idleClosePending : Bool
  idleCloseAccepted : Bool
  state : State
  exitCode : ℕ
  pending : Window UInt8 pendingSize
  suspended : Bool

/-- What `waitpid` reports of the child. -/
inductive Exit
  | alive
  | exited (code : ℕ)
  | signaled (signal : ℕ)
  | other

/-- What `recv` finds in the control socket. -/
inductive Reply
  | nothing
  | byte (b : UInt8)
  | closed

/-- What a call of `write` does; it takes no more than it is given. -/
inductive Written
  | took (k : ℕ)
  | interrupted
  | again
  | ioError
  | failed

/-- The surroundings of one call: the child, as it is looked at once and once more, the
supervisor's reply, what the writes do and whether a request can be sent. -/
structure Env where
  exit : Exit
  later : Exit
  reply : Reply
  writes : List Written
  sent : Bool

def closeMaster (s : Session) : Session :=
  { s with
    masterOpen := false
    controlOpen := false
    pending := s.pending.clear
    idleClosePending := false
    idleCloseAccepted := false }

def reapChild (s : Session) (exit : Exit) : Session :=
  if !s.childAlive then s
  else
    match exit with
    | .alive => s
    | .exited code =>
      { closeMaster { s with childAlive := false } with exitCode := code, state := .exited }
    | .signaled signal =>
      { closeMaster { s with childAlive := false } with exitCode := 128 + signal, state := .exited }
    | .other =>
      { closeMaster { s with childAlive := false } with exitCode := 128, state := .failed }

/-- `C1_TERMINAL_IDLE_ACCEPTED` -/
def idleAccepted : UInt8 := 89

/-- `C1_TERMINAL_IDLE_DENIED` -/
def idleDenied : UInt8 := 78

def idleCloseReply (s : Session) (reply : Reply) : Session :=
  if !s.idleClosePending || s.idleCloseAccepted then s
  else
    match reply with
    | .nothing => s
    | .byte b =>
      if b = idleAccepted then { s with idleCloseAccepted := true }
      else { s with idleClosePending := false, inputSeen := s.inputSeen || b != idleDenied }
    | .closed => { s with idleClosePending := false, inputSeen := true }

/-- `c1_terminal_close_idle` -/
def closeIdle (s : Session) (env : Env) : Bool × Session :=
  let s := reapChild s env.exit
  if !s.childAlive then
    (!s.masterOpen && !s.controlOpen && (s.state = .stopped || s.state = .exited), s)
  else if s.state ≠ .running ∨ !s.masterOpen ∨ !s.shellKnown ∨ !s.controlOpen ∨ s.directExec ∨
      s.suspended ∨ s.pending.length ≠ 0 then (false, s)
  else if s.idleClosePending then (false, idleCloseReply s env.reply)
  else (false, { s with idleClosePending := env.sent })

def handOver (s : Session) (k : ℕ) : Session :=
  { s with pending := s.pending.advance (min k s.pending.length) (Nat.min_le_right _ _) }

/-- The loop of `c1_terminal_flush`; also what was handed over. A call of `write` after the
outcomes that are given can take nothing. -/
def flushLoop (later : Exit) : List Written → Session → Status × Session × Bytes
  | [], s => (.ok, s, [])
  | outcome :: outcomes, s =>
    if s.pending.length = 0 then (.ok, s, [])
    else
      match outcome with
      | .took k =>
        let chunk := s.pending.contents.take (k + 1)
        let (status, s, more) := flushLoop later outcomes (handOver s (k + 1))
        (status, s, chunk ++ more)
      | .interrupted => flushLoop later outcomes s
      | .again => (.ok, s, [])
      | .ioError =>
        let s := reapChild s later
        if s.state = .running ∧ s.childAlive then (.ok, s, []) else (.ioError, s, [])
      | .failed => (.ioError, reapChild s later, [])

/-- `c1_terminal_flush` -/
def flush (s : Session) (env : Env) : Status × Session × Bytes :=
  if s.pending.length = 0 then (.ok, s, [])
  else
    let s := idleCloseReply s env.reply
    if s.idleClosePending then (.unavailable, s, [])
    else flushLoop env.later env.writes { s with inputSeen := true }

/-- The room that `c1_terminal_write` makes for some bytes. -/
def makeRoom (s : Session) (count : ℕ) : Session :=
  if 0 < s.pending.offset ∧ pendingSize < s.pending.offset + s.pending.length + count then
    { s with pending := s.pending.compact }
  else s

/-- The rest of `c1_terminal_write`, of bytes that there may be room for. -/
def writePending (s : Session) (bytes : Bytes) (env : Env) : Status × Session × Bytes :=
  if h : s.pending.offset + s.pending.length + bytes.length ≤ pendingSize then
    flush { s with inputSeen := true, pending := s.pending.append bytes h } env
  else (.unavailable, s, [])

/-- `c1_terminal_write` -/
def write (s : Session) (bytes : Bytes) (env : Env) : Status × Session × Bytes :=
  if bytes = [] then (.invalidArgument, s, [])
  else
    let s := reapChild s env.exit
    if s.state ≠ .running ∨ !s.masterOpen then (.invalidArgument, s, [])
    else
      let s := idleCloseReply s env.reply
      if s.idleClosePending then (.unavailable, s, [])
      else writePending (makeRoom s bytes.length) bytes env

/-! ### Runs -/

inductive Call
  | write (bytes : Bytes)
  | flush
  | closeIdle

/-- A session, the bytes that the pseudoterminal was handed and those of the accepted writes. -/
structure World where
  session : Session
  handed : Bytes
  accepted : Bytes

/-- A write is accepted when its bytes are in the queue, also if they cannot be handed over. -/
def Status.accepts : Status → Bool
  | .ok | .ioError => true
  | .invalidArgument | .unavailable => false

def step (w : World) : Call × Env → World
  | (.write bytes, env) =>
    let (status, s, chunk) := InputQueue.write w.session bytes env
    ⟨s, w.handed ++ chunk, if status.accepts then w.accepted ++ bytes else w.accepted⟩
  | (.flush, env) =>
    let (_, s, chunk) := InputQueue.flush w.session env
    ⟨s, w.handed ++ chunk, w.accepted⟩
  | (.closeIdle, env) => ⟨(InputQueue.closeIdle w.session env).2, w.handed, w.accepted⟩

def run (w : World) (calls : List (Call × Env)) : World := calls.foldl step w

/-! ### One call -/

/-- What holds between the calls. -/
structure Valid (s : Session) : Prop where
  alive : s.state = .running → s.childAlive = true ∧ s.masterOpen = true
  ended : s.state ≠ .running → s.pending.length = 0
  idle : s.idleClosePending = true → s.pending.length = 0
  granted : s.idleCloseAccepted = true → s.idleClosePending = true

/-- A session whose child was reaped. -/
structure Ended (s : Session) : Prop where
  state : s.state ≠ .running
  empty : s.pending.length = 0
  idle : s.idleClosePending = false
  granted : s.idleCloseAccepted = false

variable {s : Session} {w : World}

lemma Ended.valid (h : Ended s) : Valid s :=
  ⟨fun hrun => absurd hrun h.state, fun _ => h.empty, fun hi => absurd hi (by simp [h.idle]),
    fun hg => absurd hg (by simp [h.granted])⟩

lemma reapChild_cases (s : Session) (exit : Exit) :
    reapChild s exit = s ∨ Ended (reapChild s exit) := by
  unfold reapChild
  split_ifs
  · exact .inl rfl
  cases exit with
  | alive => exact .inl rfl
  | exited code => exact .inr ⟨by simp, rfl, rfl, rfl⟩
  | signaled signal => exact .inr ⟨by simp, rfl, rfl, rfl⟩
  | other => exact .inr ⟨by simp, rfl, rfl, rfl⟩

/-- A reply that ends a request: anything but silence and consent. -/
def Reply.ends : Reply → Prop
  | .nothing => False
  | .byte b => b ≠ idleAccepted
  | .closed => True

lemma idleCloseReply_spec (s : Session) (reply : Reply) :
    (idleCloseReply s reply).pending = s.pending ∧ (idleCloseReply s reply).state = s.state ∧
      (idleCloseReply s reply).childAlive = s.childAlive ∧
      (idleCloseReply s reply).masterOpen = s.masterOpen ∧
      ((idleCloseReply s reply).idleClosePending = true → s.idleClosePending = true) ∧
      ((idleCloseReply s reply).idleClosePending = false → s.idleClosePending = true →
        s.idleCloseAccepted = false ∧ reply.ends) ∧
      ((idleCloseReply s reply).idleCloseAccepted = true → s.idleCloseAccepted = true ∨
        (idleCloseReply s reply).idleClosePending = true) := by
  unfold idleCloseReply
  by_cases hskip : (!s.idleClosePending || s.idleCloseAccepted) = true
  · rw [if_pos hskip]
    refine ⟨rfl, rfl, rfl, rfl, id, fun hfalse htrue => ?_, .inl⟩
    rw [hfalse] at htrue
    cases htrue
  rw [if_neg hskip]
  simp only [Bool.or_eq_true, Bool.not_eq_true', not_or, Bool.not_eq_false, Bool.not_eq_true]
    at hskip
  obtain ⟨hpending, haccepted⟩ := hskip
  cases reply with
  | nothing =>
    exact ⟨rfl, rfl, rfl, rfl, id, fun hfalse _ => absurd hfalse (by simp [hpending]), .inl⟩
  | byte b =>
    simp only
    split_ifs with hb
    · exact ⟨rfl, rfl, rfl, rfl, id, fun hfalse _ => absurd hfalse (by simp [hpending]),
        fun _ => .inr hpending⟩
    · exact ⟨rfl, rfl, rfl, rfl, fun h => absurd h (by simp), fun _ _ => ⟨haccepted, hb⟩,
        fun h => absurd h (by simp [haccepted])⟩
  | closed =>
    exact ⟨rfl, rfl, rfl, rfl, fun h => absurd h (by simp), fun _ _ => ⟨haccepted, trivial⟩,
      fun h => absurd h (by simp [haccepted])⟩

lemma Valid.idleCloseReply (h : Valid s) (reply : Reply) :
    Valid (idleCloseReply s reply) := by
  obtain ⟨hpending, hstate, hchild, hmaster, hidle, hends, hgranted⟩ := idleCloseReply_spec s reply
  refine ⟨?_, ?_, fun hi => ?_, fun hg => ?_⟩
  · rw [hstate, hchild, hmaster]
    exact h.alive
  · rw [hstate, hpending]
    exact h.ended
  · rw [hpending]
    exact h.idle (hidle hi)
  rcases hgranted hg with hg | hg
  · by_contra hno
    rw [Bool.not_eq_true] at hno
    rw [(hends hno (h.granted hg)).1] at hg
    cases hg
  · exact hg

/-- What a flush does to a session: the front of the queue is handed over, and the rest is still
there unless the session has ended. -/
structure Flushed (s : Session) (r : Status × Session × Bytes) : Prop where
  valid : Valid r.2.1
  chunk : r.2.2 <+: s.pending.contents
  rest : r.2.1.state = .running → s.pending.contents = r.2.2 ++ r.2.1.pending.contents
  running : r.2.1.state = .running → s.state = .running
  idle : r.2.1.idleClosePending = true → s.idleClosePending = true

lemma Flushed.refl (h : Valid s) (status : Status) : Flushed s (status, s, []) :=
  ⟨h, nil_prefix, fun _ => rfl, id, id⟩

lemma Flushed.reap (h : Valid s) (status : Status) (exit : Exit) :
    Flushed s (status, InputQueue.reapChild s exit, []) := by
  rcases reapChild_cases s exit with heq | hended
  · rw [heq]
    exact .refl h status
  · exact ⟨hended.valid, nil_prefix, fun hrun => absurd hrun hended.state,
      fun hrun => absurd hrun hended.state, fun hi => absurd hi (by simp [hended.idle])⟩

lemma handOver_contents (s : Session) (k : ℕ) :
    s.pending.contents = s.pending.contents.take k ++ (handOver s k).pending.contents := by
  have hsplit := s.pending.contents_advance (Nat.min_le_right k s.pending.length)
  have htake : s.pending.contents.take (min k s.pending.length) = s.pending.contents.take k := by
    rw [← s.pending.length_contents, ← take_eq_take_min]
  rw [htake] at hsplit
  exact hsplit

lemma Valid.handOver (h : Valid s) (k : ℕ) : Valid (handOver s k) := by
  have hlen : (InputQueue.handOver s k).pending.length =
      s.pending.length - min k s.pending.length :=
    rfl
  refine ⟨h.alive, fun hstate => ?_, fun hi => ?_, h.granted⟩
  · rw [hlen, h.ended hstate]
    omega
  · rw [hlen, h.idle hi]
    omega

lemma flushLoop_flushed {later : Exit} : ∀ {outcomes : List Written} {s : Session}, Valid s →
    Flushed s (flushLoop later outcomes s) ∧ (flushLoop later outcomes s).1.accepts
  | [], s, h => ⟨.refl h .ok, rfl⟩
  | outcome :: outcomes, s, h => by
    by_cases hempty : s.pending.length = 0
    · rw [flushLoop.eq_def]
      simp only [if_pos hempty]
      exact ⟨.refl h .ok, rfl⟩
    rw [flushLoop.eq_def]
    simp only [if_neg hempty]
    cases outcome with
    | took k =>
      have hloop : Flushed (handOver s (k + 1)) (flushLoop later outcomes (handOver s (k + 1))) ∧
          (flushLoop later outcomes (handOver s (k + 1))).1.accepts :=
        flushLoop_flushed (h.handOver (k + 1))
      obtain ⟨⟨hvalid, hchunk, hrest, hrunning, hidle⟩, hstatus⟩ := hloop
      have hsplit := handOver_contents s (k + 1)
      refine ⟨⟨hvalid, ?_, fun hrun => ?_, hrunning, hidle⟩, hstatus⟩
      · calc s.pending.contents.take (k + 1) ++
          (flushLoop later outcomes (handOver s (k + 1))).2.2
            <+: s.pending.contents.take (k + 1) ++ (handOver s (k + 1)).pending.contents :=
              (prefix_append_right_inj _).mpr hchunk
          _ = s.pending.contents := hsplit.symm
      · calc s.pending.contents
            = s.pending.contents.take (k + 1) ++ (handOver s (k + 1)).pending.contents := hsplit
          _ = _ := by rw [hrest hrun, append_assoc]
    | interrupted => exact flushLoop_flushed h
    | again => exact ⟨.refl h .ok, rfl⟩
    | ioError =>
      simp only
      split_ifs
      · exact ⟨.reap h .ok later, rfl⟩
      · exact ⟨.reap h .ioError later, rfl⟩
    | failed => exact ⟨.reap h .ioError later, rfl⟩

lemma flush_flushed (h : Valid s) (env : Env) : Flushed s (flush s env) := by
  unfold flush
  split_ifs with hempty
  · exact .refl h .ok
  obtain ⟨hpending, hstate, -, -, hidle, -, -⟩ := idleCloseReply_spec s env.reply
  have hreply := h.idleCloseReply env.reply
  simp only
  split_ifs with hout
  · exact ⟨hreply, nil_prefix, fun _ => by rw [hpending]; rfl,
      fun hrun => hstate ▸ hrun, hidle⟩
  have hseen : Valid { idleCloseReply s env.reply with inputSeen := true } :=
    { hreply with }
  obtain ⟨hvalid, hchunk, hrest, hrunning, hidle'⟩ : Flushed
      { idleCloseReply s env.reply with inputSeen := true }
      (flushLoop env.later env.writes { idleCloseReply s env.reply with inputSeen := true }) :=
    (flushLoop_flushed hseen).1
  rw [show ({ idleCloseReply s env.reply with inputSeen := true } : Session).pending =
    s.pending from hpending] at hchunk hrest
  exact ⟨hvalid, hchunk, hrest, fun hrun => hstate ▸ hrunning hrun, fun hi => hidle (hidle' hi)⟩

lemma flush_accepts (h : Valid s) (hidle : s.idleClosePending = false) (env : Env) :
    (flush s env).1.accepts := by
  have hreply : idleCloseReply s env.reply = s := by
    rw [idleCloseReply.eq_def, if_pos (by simp [hidle])]
  unfold flush
  split_ifs with hempty
  · rfl
  simp only [hreply]
  rw [if_neg (by simp [hidle])]
  exact (flushLoop_flushed (s := { s with inputSeen := true })
    { h with }).2

lemma makeRoom_spec (s : Session) (count : ℕ) :
    (makeRoom s count).pending.contents = s.pending.contents ∧
      (makeRoom s count).pending.length = s.pending.length ∧
      (makeRoom s count).state = s.state ∧ (makeRoom s count).childAlive = s.childAlive ∧
      (makeRoom s count).masterOpen = s.masterOpen ∧
      (makeRoom s count).idleClosePending = s.idleClosePending ∧
      (makeRoom s count).idleCloseAccepted = s.idleCloseAccepted := by
  unfold makeRoom
  split_ifs
  · exact ⟨s.pending.contents_compact, rfl, rfl, rfl, rfl, rfl, rfl⟩
  · exact ⟨rfl, rfl, rfl, rfl, rfl, rfl, rfl⟩

lemma Valid.makeRoom (h : Valid s) (count : ℕ) : Valid (makeRoom s count) := by
  obtain ⟨-, hlength, hstate, hchild, hmaster, hidle, hgranted⟩ := makeRoom_spec s count
  refine ⟨?_, ?_, ?_, ?_⟩
  · rw [hstate, hchild, hmaster]
    exact h.alive
  · rw [hstate, hlength]
    exact h.ended
  · rw [hidle, hlength]
    exact h.idle
  · rw [hgranted, hidle]
    exact h.granted

/-- **Bytes behind those of the queue**, if there is room. -/
lemma writePending_spec (h : Valid s) (hrun : s.state = .running)
    (hidle : s.idleClosePending = false) (bytes : Bytes) (env : Env) :
    ((writePending s bytes env).1.accepts = false ∧ (writePending s bytes env).2 = (s, [])) ∨
      ((writePending s bytes env).1.accepts = true ∧ Valid (writePending s bytes env).2.1 ∧
        (writePending s bytes env).2.2 <+: s.pending.contents ++ bytes ∧
        ((writePending s bytes env).2.1.state = .running → s.pending.contents ++ bytes =
          (writePending s bytes env).2.2 ++ (writePending s bytes env).2.1.pending.contents) ∧
        (writePending s bytes env).2.1.idleClosePending = false) := by
  unfold writePending
  split_ifs with hroom
  · have hqueued : Valid { s with inputSeen := true, pending := s.pending.append bytes hroom } :=
      ⟨h.alive, fun hne => absurd hrun hne, fun hi => absurd hi (by simp [hidle]), h.granted⟩
    obtain ⟨hvalid, hchunk, hrest, -, hidle'⟩ := flush_flushed hqueued env
    rw [show
      ({ s with inputSeen := true, pending := s.pending.append bytes hroom } : Session).pending
      = s.pending.append bytes hroom from rfl, s.pending.contents_append hroom] at hchunk hrest
    refine .inr ⟨flush_accepts hqueued hidle env, hvalid, hchunk, hrest, ?_⟩
    by_contra hi
    rw [Bool.not_eq_false] at hi
    exact absurd (hidle' hi) (by simp [hidle])
  · exact .inl ⟨rfl, rfl⟩

/-- What a write does: it is refused and the queue stays, unless the session has ended, or its
bytes are behind those of the queue. -/
inductive Wrote (s : Session) (bytes : Bytes) (env : Env) (r : Status × Session × Bytes) : Prop
  | refused (hstatus : r.1.accepts = false) (hvalid : Valid r.2.1) (hchunk : r.2.2 = [])
      (hrest : r.2.1.state = .running →
        s.state = .running ∧ r.2.1.pending.contents = s.pending.contents)
  | accepted (hstatus : r.1.accepts = true) (hvalid : Valid r.2.1)
      (hrunning : s.state = .running)
      (hchunk : r.2.2 <+: s.pending.contents ++ bytes)
      (hrest : r.2.1.state = .running →
        s.pending.contents ++ bytes = r.2.2 ++ r.2.1.pending.contents)
      (hidle : r.2.1.idleClosePending = false)
      (hbefore : s.idleClosePending = true → s.idleCloseAccepted = false ∧ env.reply.ends)

lemma write_wrote (h : Valid s) (bytes : Bytes) (env : Env) :
    Wrote s bytes env (write s bytes env) := by
  unfold InputQueue.write
  split_ifs with hnil
  · exact .refused rfl h rfl fun hrun => ⟨hrun, rfl⟩
  simp only
  rcases reapChild_cases s env.exit with hreap | hended
  · rw [hreap]
    split_ifs with hstopped hout
    · exact .refused rfl h rfl fun hrun => ⟨hrun, rfl⟩
    · obtain ⟨hpending, hstate, -⟩ := idleCloseReply_spec s env.reply
      exact .refused rfl (h.idleCloseReply env.reply) rfl
        fun hrun => ⟨hstate ▸ hrun, by rw [hpending]⟩
    -- no request stands in the way
    rw [not_or, not_not] at hstopped
    rw [Bool.not_eq_true] at hout
    obtain ⟨hpending, hstate, -, -, hidle, hends, -⟩ := idleCloseReply_spec s env.reply
    obtain ⟨hcontents, -, hmade, -, -, hidle', -⟩ :=
      makeRoom_spec (idleCloseReply s env.reply) bytes.length
    have hvalid := (h.idleCloseReply env.reply).makeRoom bytes.length
    rw [hpending] at hcontents
    rw [hout] at hidle'
    rcases writePending_spec hvalid (by rw [hmade, hstate]; exact hstopped.1) hidle' bytes
      env with
      ⟨hstatus, hsame⟩ | ⟨hstatus, hvalid', hchunk, hrest, hafter⟩
    · rw [Prod.ext_iff] at hsame
      exact .refused hstatus (hsame.1 ▸ hvalid) hsame.2
        fun _ => ⟨hstopped.1, by rw [hsame.1, hcontents]⟩
    · rw [hcontents] at hchunk hrest
      exact .accepted hstatus hvalid' hstopped.1 hchunk hrest hafter (hends hout)
  · rw [if_pos (.inl hended.state)]
    exact .refused rfl hended.valid rfl fun hrun => absurd hrun hended.state

/-! ### Any number of calls -/

/-- What holds of a session and of what it was given and gave. -/
structure Inv (w : World) : Prop where
  valid : Valid w.session
  handed : w.handed <+: w.accepted
  queued : w.session.state = .running → w.accepted = w.handed ++ w.session.pending.contents

lemma Inv.next (h : Inv w) {chunk : Bytes} (more : Bytes)
    (hrun : w.session.state = .running) (hvalid : Valid s)
    (hchunk : chunk <+: w.session.pending.contents ++ more)
    (hrest : s.state = .running →
      w.session.pending.contents ++ more = chunk ++ s.pending.contents) :
    Inv ⟨s, w.handed ++ chunk, w.accepted ++ more⟩ := by
  have hqueued := h.queued hrun
  refine ⟨hvalid, ?_, fun hrunning => ?_⟩
  · show w.handed ++ chunk <+: w.accepted ++ more
    rw [hqueued, append_assoc]
    exact (prefix_append_right_inj _).mpr hchunk
  · show w.accepted ++ more = w.handed ++ chunk ++ s.pending.contents
    rw [hqueued, append_assoc, hrest hrunning, append_assoc]

lemma Inv.same (h : Inv w) (hvalid : Valid s)
    (hrest : s.state = .running → w.session.state = .running ∧
      s.pending.contents = w.session.pending.contents) : Inv ⟨s, w.handed, w.accepted⟩ := by
  refine ⟨hvalid, h.handed, fun hrun => ?_⟩
  obtain ⟨hrunning, hcontents⟩ := hrest hrun
  show w.accepted = w.handed ++ s.pending.contents
  rw [hcontents]
  exact h.queued hrunning

lemma closeIdle_spec (h : Valid s) (env : Env) : Valid (closeIdle s env).2 ∧
    ((closeIdle s env).2.state = .running → s.state = .running ∧
      (closeIdle s env).2.pending.contents = s.pending.contents) := by
  unfold closeIdle
  simp only
  rcases reapChild_cases s env.exit with hreap | hended
  · rw [hreap]
    split_ifs with hdead hbusy hout
    · exact ⟨h, fun hrun => ⟨hrun, rfl⟩⟩
    · exact ⟨h, fun hrun => ⟨hrun, rfl⟩⟩
    · obtain ⟨hpending, hstate, -⟩ := idleCloseReply_spec s env.reply
      exact ⟨h.idleCloseReply env.reply, fun hrun => ⟨hstate ▸ hrun, by rw [hpending]⟩⟩
    simp only [not_or, not_not] at hbusy
    obtain ⟨-, -, -, -, -, -, hempty⟩ := hbusy
    refine ⟨⟨h.alive, h.ended, fun _ => hempty, fun hg => ?_⟩, fun hrun => ⟨hrun, rfl⟩⟩
    exact absurd (h.granted hg) hout
  · have hvalid := hended.valid
    have hstate := hended.state
    by_cases hdead : (!(reapChild s env.exit).childAlive) = true
    · rw [if_pos hdead]
      exact ⟨hvalid, fun hrun => absurd hrun hstate⟩
    · rw [if_neg hdead, if_pos (.inl hstate)]
      exact ⟨hvalid, fun hrun => absurd hrun hstate⟩

lemma inv_step (h : Inv w) (c : Call × Env) : Inv (step w c) := by
  obtain ⟨call, env⟩ := c
  cases call with
  | write bytes =>
    unfold step
    rcases write_wrote h.valid bytes env with ⟨hstatus, hvalid, hchunk, hrest⟩ |
      ⟨hstatus, hvalid, hrunning, hchunk, hrest, -, -⟩
    · have hsame := h.same hvalid hrest
      simpa [hstatus, hchunk] using hsame
    · have hnext := h.next _ hrunning hvalid hchunk hrest
      simpa [hstatus] using hnext
  | flush =>
    obtain ⟨hvalid, hchunk, hrest, hrunning, -⟩ := flush_flushed h.valid env
    unfold step
    by_cases hrun : w.session.state = .running
    · have hnext := h.next [] hrun hvalid (by simpa using hchunk)
        (fun hr => by simpa using hrest hr)
      simpa using hnext
    have hnil : w.session.pending.contents = [] :=
      Window.contents_eq_nil.mpr (h.valid.ended hrun)
    rw [hnil, prefix_nil] at hchunk
    have hsame := h.same hvalid fun hr => absurd (hrunning hr) hrun
    simpa [hchunk] using hsame
  | closeIdle =>
    obtain ⟨hvalid, hrest⟩ := closeIdle_spec h.valid env
    exact h.same hvalid hrest

lemma inv_run (h : Inv w) (calls : List (Call × Env)) : Inv (run w calls) := by
  induction calls generalizing w with
  | nil => exact h
  | cons c calls ih => exact ih (inv_step h c)

structure Started (s : Session) : Prop where
  state : s.state = .running
  child : s.childAlive = true
  master : s.masterOpen = true
  empty : s.pending.length = 0
  idle : s.idleClosePending = false
  granted : s.idleCloseAccepted = false

lemma Started.inv (h : Started s) : Inv ⟨s, [], []⟩ := by
  refine ⟨⟨fun _ => ⟨h.child, h.master⟩, fun hne => absurd h.state hne, fun _ => h.empty,
    fun hg => absurd hg (by simp [h.granted])⟩, prefix_rfl, fun _ => ?_⟩
  show [] = [] ++ s.pending.contents
  rw [Window.contents_eq_nil.mpr h.empty, append_nil]

/-- The surroundings in which a write takes some bytes and then no more. -/
def takes (k : ℕ) : Env := ⟨.alive, .alive, .nothing, [.took k], true⟩

end C1auncher.Terminal.InputQueue
