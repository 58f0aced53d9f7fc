import C1auncher.Package.Download

/-!
What a download keeps: the output is as long as the offset at every attempt, and what is
delivered is put together from responses without a gap.
-/

namespace C1auncher.Package.DownloadRanges

open CString Package.Download List

/-! ### The output -/

def AtEnd (f : Output) : Prop := f.position = f.content.length

variable {f : Output} {received offset : ℕ} {content : Text} {ended : Ended} {transfer : Transfer}
  {call : Call}

lemma eq_of_atEnd (h : AtEnd f) : f = ⟨f.content, f.content.length⟩ := by
  obtain ⟨content, position⟩ := f
  exact congrArg (Output.mk content) h

lemma write_atEnd (h : AtEnd f) (bytes : Text) :
    f.write bytes = ⟨f.content ++ bytes, (f.content ++ bytes).length⟩ := by
  unfold AtEnd at h
  simp [Output.write, h, drop_eq_nil_of_le]

lemma rewind_output {size : ℕ} (h : size ≤ f.content.length) :
    (f.truncate size).seek size = ⟨f.content.take size, size⟩ := by
  simp [Output.truncate, Output.seek, Nat.sub_eq_zero_of_le h]

/-! ### A transfer -/

/-- The bytes that are written. -/
def taken (limit : ℕ) : List Event → ℕ → Text
  | [], _ => []
  | .cancelled :: _, _ => []
  | .broken _ :: _, _ => []
  | .read bytes short :: events, received =>
    if bytes.length > limit - received then []
    else match short with
      | none => bytes ++ taken limit events (received + bytes.length)
      | some (count, _) => bytes.take count

lemma length_taken (limit : ℕ) (events : List Event) (h : received ≤ limit) :
    received + (taken limit events received).length ≤ limit := by
  induction events generalizing received with
  | nil => simpa [taken] using h
  | cons event events ih =>
    cases event with
    | cancelled => simpa [taken] using h
    | broken errno => simpa [taken] using h
    | read bytes short =>
      rcases short with _ | ⟨count, errno⟩
      · rw [taken]
        split_ifs with hbig
        · simpa using h
        have hrest := ih (show received + bytes.length ≤ limit by omega)
        rw [length_append]
        omega
      · rw [taken]
        split_ifs with hbig
        · simpa using h
        · rw [length_take]
          omega

lemma copyEvents_spec (limit : ℕ) (events : List Event) (received : ℕ)
    (h : AtEnd f) :
    (copyEvents limit events received f).2 =
      (received + (taken limit events received).length,
        ⟨f.content ++ taken limit events received,
          (f.content ++ taken limit events received).length⟩) := by
  induction events generalizing received f with
  | nil => obtain ⟨content, position⟩ := f; simp_all [copyEvents, taken, AtEnd]
  | cons event events ih =>
    obtain ⟨content, position⟩ := f
    obtain rfl : position = content.length := h
    cases event with
    | cancelled => simp [copyEvents, taken]
    | broken errno => simp [copyEvents, taken]
    | read bytes short =>
      have hwrite := write_atEnd (f := ⟨content, content.length⟩) rfl
      rcases short with _ | ⟨count, errno⟩
      · rw [copyEvents, taken]
        split_ifs with hbig
        · simp
        · rw [hwrite bytes, ih (f := ⟨content ++ bytes, (content ++ bytes).length⟩) _ rfl,
            append_assoc, Nat.add_assoc, ← length_append]
      · rw [copyEvents, taken]
        split_ifs with hbig
        · simp
        · rw [hwrite]

/-- A transfer that came to its end: every byte that arrived was written. -/
def Complete (child : Child) : Prop :=
  child.launch = none ∧ child.exitCode = 0 ∧
    ∃ reads : List Text, child.events = reads.map fun bytes => .read bytes none

lemma complete_of_result {child : Child} {limit : ℕ}
    (h : (runBounded child limit f).result = 0) : Complete child := by
  have hcopy : ∀ events received g, (copyEvents limit events received g).1 = none →
      ∃ reads : List Text, events = reads.map fun bytes => .read bytes none := by
    intro events
    induction events with
    | nil => exact fun _ _ _ => ⟨[], rfl⟩
    | cons event events ih =>
      intro received g hnone
      cases event with
      | cancelled => simp [copyEvents] at hnone
      | broken errno => simp [copyEvents] at hnone
      | read bytes short =>
        rcases short with _ | ⟨count, errno⟩
        · rw [copyEvents] at hnone
          split_ifs at hnone
          obtain ⟨reads, rfl⟩ := ih _ _ hnone
          exact ⟨bytes :: reads, rfl⟩
        · rw [copyEvents] at hnone
          split_ifs at hnone
  unfold runBounded at h
  rcases hl : child.launch with _ | errno
  · rw [hl] at h
    rcases hc : copyEvents limit child.events 0 f with ⟨_ | errno, received, g⟩
    · simp only [hc] at h
      split_ifs at h with hexit
      · exact ⟨hl, hexit, hcopy _ _ _ (by rw [hc])⟩
      · simp at h
    · simp [hc] at h
  · simp [hl] at h

def body (limit offset : ℕ) (turn : Turn) : Text :=
  if turn.child.launch.isSome then [] else taken (limit - offset) turn.child.events 0

lemma length_body {limit : ℕ} (turn : Turn) (h : offset ≤ limit) :
    offset + (body limit offset turn).length ≤ limit := by
  unfold body
  split_ifs
  · simpa using h
  · have := length_taken (limit - offset) turn.child.events (Nat.zero_le (limit - offset))
    omega

lemma runBounded_spec (turn : Turn) (limit : ℕ) {s : Progress} (h : AtEnd s.output) :
    (runBounded turn.child (limit - s.offset) s.output).received =
        (body limit s.offset turn).length ∧
      (runBounded turn.child (limit - s.offset) s.output).output =
        ⟨s.output.content ++ body limit s.offset turn,
          (s.output.content ++ body limit s.offset turn).length⟩ := by
  unfold runBounded body
  rcases hl : turn.child.launch with _ | errno
  · have hspec := copyEvents_spec (limit - s.offset) turn.child.events 0 h
    rw [if_neg (by simp)]
    rcases hc : copyEvents (limit - s.offset) turn.child.events 0 s.output with
      ⟨_ | errno, received, g⟩
    · rw [hc] at hspec
      obtain ⟨rfl, rfl⟩ := Prod.mk.inj hspec
      simp only
      split_ifs <;> simp
    · rw [hc] at hspec
      obtain ⟨rfl, rfl⟩ := Prod.mk.inj hspec
      simp
  · rw [if_pos (by simp)]
    simpa using eq_of_atEnd h

/-! ### Ranges -/

/-- A range of a text with a total length starts at the offset, and what was received fits in. -/
def Declares (offset received total : ℕ) (value : Text) : Prop :=
  ∃ first last length : UInt64, scanContentRange value = some (first, last, length) ∧
    first.toNat = offset ∧ first ≤ last ∧ last < length ∧ length.toNat = total ∧
      received ≤ last.toNat - first.toNat + 1

lemma acceptRange_declares {value : Text} {limit total : ℕ}
    (h : acceptRange value offset received limit = some total) :
    total ≤ limit ∧ Declares offset received total value := by
  unfold acceptRange at h
  obtain ⟨⟨first, last, length⟩, hscan, h⟩ := Option.bind_eq_some_iff.mp h
  obtain ⟨⟨⟩, hguard, h⟩ := Option.bind_eq_some_iff.mp h
  obtain ⟨hfirst, hle, hlt, hlimit, hreceived⟩ : first.toNat = offset ∧ first ≤ last ∧
      last < length ∧ length.toNat ≤ limit ∧ received ≤ last.toNat - first.toNat + 1 := by
    by_contra hnot
    simp [guard, if_neg hnot, failure] at hguard
  obtain rfl : length.toNat = total := Option.some.inj h
  exact ⟨hlimit, first, last, length, hscan, hfirst, hle, hlt, rfl, hreceived⟩

lemma responseRange_declares {headers : Option Text} {limit total : ℕ}
    (h : responseRange headers offset received limit = some total) :
    total ≤ limit ∧ ∃ value, Declares offset received total value := by
  have hfold : ∀ (lines : List Text) (found : Ranges),
      (∀ total, found.total = some total →
        ∃ value, acceptRange value offset received limit = some total) →
      ∀ total, (lines.foldl (readHeader offset received limit) found).total = some total →
        ∃ value, acceptRange value offset received limit = some total := by
    intro lines
    induction lines with
    | nil => exact fun _ h => h
    | cons line lines ih =>
      intro found hfound
      refine ih _ fun total htotal => ?_
      unfold readHeader at htotal
      split_ifs at htotal
      · rcases ha : acceptRange (skipBlanks (line.drop 14)) offset received limit with _ | n
        · rw [ha] at htotal
          exact hfound total htotal
        · rw [ha] at htotal
          exact ⟨_, ha.trans htotal⟩
      · exact hfound total htotal
      · exact hfound total htotal
      · exact hfound total htotal
  unfold responseRange at h
  obtain ⟨data, -, h⟩ := Option.bind_eq_some_iff.mp h
  obtain ⟨⟨⟩, -, h⟩ := Option.bind_eq_some_iff.mp h
  obtain ⟨value, hvalue⟩ := hfold _ ⟨0, none, false⟩ (fun _ h => by cases h) total h
  obtain ⟨hlimit, hdeclares⟩ := acceptRange_declares hvalue
  exact ⟨hlimit, value, hdeclares⟩

/-! ### Attempts -/

/-- The output is as long as the offset, and the next write goes there. -/
structure Aligned (limit : ℕ) (s : Progress) : Prop where
  length : s.output.content.length = s.offset
  position : s.output.position = s.offset
  le : s.offset ≤ limit

lemma Aligned.atEnd {limit : ℕ} {s : Progress} (h : Aligned limit s) : AtEnd s.output :=
  h.position.trans h.length.symm

/-- What attempts before a number can have put together: the body of a response to a request for
the whole, cut short or not, and behind it the bodies of responses each of which declares a range
that starts where the bytes before it end. -/
inductive Assembled (limit : ℕ) (turns : ℕ → Turn) : ℕ → Text → Prop
  | empty (attempt : ℕ) : Assembled limit turns attempt []
  | opened {i attempt : ℕ} (hi : i < attempt) (hstatus : (turns i).status = 200) :
      Assembled limit turns attempt (body limit 0 (turns i))
  | resumed {i attempt total : ℕ} {content : Text} (h : Assembled limit turns i content)
      (hi : i < attempt) (hne : content ≠ []) (hstatus : (turns i).status = 206)
      (hrange : responseRange (turns i).headers content.length
        (body limit content.length (turns i)).length limit = some total) :
      Assembled limit turns attempt (content ++ body limit content.length (turns i))

/-- What is delivered: the complete body of one response, or what was put together up to the
total that the last response declares. -/
inductive Delivered (limit : ℕ) (turns : ℕ → Turn) : Text → Prop
  | complete {i : ℕ} (hi : i < 4) (hstatus : (turns i).status = 200)
      (hcomplete : Complete (turns i).child) : Delivered limit turns (body limit 0 (turns i))
  | resumed {i : ℕ} {content : Text} (hi : i < 4) (h : Assembled limit turns i content)
      (hne : content ≠ []) (hstatus : (turns i).status = 206) (hcomplete : Complete (turns i).child)
      (hrange : responseRange (turns i).headers content.length
        (body limit content.length (turns i)).length limit =
          some (content ++ body limit content.length (turns i)).length) :
      Delivered limit turns (content ++ body limit content.length (turns i))

variable {limit attempt : ℕ} {metadata : Bool} {turns : ℕ → Turn} {s s' : Progress}

lemma Assembled.mono {later : ℕ} (h : Assembled limit turns attempt content)
    (hle : attempt ≤ later) : Assembled limit turns later content := by
  cases h with
  | empty => exact .empty later
  | opened hi hstatus => exact .opened (by omega) hstatus
  | resumed h hi hne hstatus hrange => exact .resumed h (by omega) hne hstatus hrange

lemma Assembled.length_le (h : Assembled limit turns attempt content) :
    content.length ≤ limit := by
  induction h with
  | empty => exact Nat.zero_le _
  | @opened i _ _ _ =>
    have := length_body (turns i) (Nat.zero_le limit)
    omega
  | @resumed i _ _ _ _ _ _ _ _ ih =>
    rw [length_append]
    exact length_body (turns i) ih

lemma Delivered.length_le (h : Delivered limit turns content) :
    content.length ≤ limit := by
  cases h with
  | @complete i _ _ _ =>
    have := length_body (turns i) (Nat.zero_le limit)
    omega
  | @resumed i _ _ h _ _ _ _ =>
    rw [length_append]
    exact length_body (turns i) h.length_le

structure Sound (limit : ℕ) (turns : ℕ → Turn) (attempt : ℕ) (s : Progress) : Prop where
  aligned : Aligned limit s
  assembled : Assembled limit turns attempt s.output.content
  requests : s.requests.length ≤ attempt

structure Closed (limit : ℕ) (turns : ℕ → Turn) (ended : Ended) : Prop where
  delivered : ended.result = 0 → Delivered limit turns ended.progress.output.content
  requests : ended.progress.requests.length ≤ 4

def Goes (limit : ℕ) (turns : ℕ → Turn) (attempt : ℕ) : Ended ⊕ Progress → Prop
  | .inl ended => Closed limit turns ended
  | .inr s => Sound limit turns attempt s

lemma closed_of_result (h : ended.result ≠ 0)
    (hr : ended.progress.requests.length ≤ 4) : Closed limit turns ended :=
  ⟨fun h0 => absurd h0 h, hr⟩

lemma rewind_goes {turn : Turn} {size : ℕ} {next : Progress → Ended ⊕ Progress}
    (hsize : size ≤ s.output.content.length) (hr : s.requests.length ≤ 4)
    (hnext : Goes limit turns attempt
      (next { s with output := ⟨s.output.content.take size, size⟩ })) :
    Goes limit turns attempt (rewind turn size s next) := by
  unfold rewind
  rcases turn.truncate with _ | errno
  · rcases turn.seek with _ | errno
    · rw [← rewind_output hsize] at hnext
      exact hnext
    · exact closed_of_result (by simp [ioFailed]) hr
  · exact closed_of_result (by simp [ioFailed]) hr

/-- The progress once the bytes of an attempt are written: they are behind the offset. -/
structure Written (limit : ℕ) (turns : ℕ → Turn) (attempt : ℕ) (transfer : Transfer)
    (s : Progress) : Prop where
  le : s.offset ≤ limit
  output : ∃ content, content.length = s.offset ∧ Assembled limit turns attempt content ∧
    s.output.content = content ++ body limit s.offset (turns attempt) ∧
      s.output.position = s.output.content.length
  received : transfer.received = (body limit s.offset (turns attempt)).length
  requests : s.requests.length ≤ attempt + 1
  complete : transfer.result = 0 → Complete (turns attempt).child

lemma Written.le_length (h : Written limit turns attempt transfer s) :
    s.offset ≤ s.output.content.length := by
  obtain ⟨content, hlen, -, hout, -⟩ := h.output
  rw [hout, length_append]
  omega

lemma sound_restart {s : Progress} {later : ℕ} (hr : s.requests.length ≤ later)
    (hoffset : s.offset = 0) :
    Sound limit turns later { s with output := ⟨s.output.content.take 0, 0⟩ } := by
  refine ⟨⟨?_, hoffset.symm, by simp [hoffset]⟩, ?_, hr⟩
  · simp [hoffset]
  · simpa using Assembled.empty later

lemma judge_goes (hi : attempt < 4)
    (h : Written limit turns attempt transfer s) :
    Goes limit turns (attempt + 1)
      (judge limit metadata attempt (turns attempt) transfer s) := by
  obtain ⟨content, hlen, hassembled, hout, hposition⟩ := h.output
  have hr : s.requests.length ≤ 4 := by have := h.requests; omega
  by_cases htransient : transientStatus (turns attempt).status ∨
      ((turns attempt).status = 0 ∧ transfer.result ≠ 0 ∧ transientExit transfer.exitCode)
  · rw [judge, if_pos htransient]
    refine rewind_goes h.le_length hr ?_
    have htake : s.output.content.take s.offset = content := by
      rw [hout, ← hlen, take_left]
    rw [htake]
    split_ifs
    · exact closed_of_result (by simp) hr
    · exact closed_of_result (by simp) hr
    · exact ⟨⟨hlen, rfl, h.le⟩, hassembled.mono (by omega), h.requests⟩
  rw [judge, if_neg htransient]
  dsimp only
  -- the total, where the request was one for a range
  have htotal : ∀ total, (if s.offset = 0 then none else responseRange (turns attempt).headers
      s.offset transfer.received limit) = total → (s.offset = 0 ∧ total = none) ∨
        (s.offset ≠ 0 ∧ responseRange (turns attempt).headers content.length
          (body limit content.length (turns attempt)).length limit = total) := by
    intro total ht
    by_cases h0 : s.offset = 0
    · rw [if_pos h0] at ht
      exact .inl ⟨h0, ht.symm⟩
    · rw [if_neg h0, h.received, ← hlen] at ht
      exact .inr ⟨h0, ht⟩
  generalize (if s.offset = 0 then none else responseRange (turns attempt).headers s.offset
    transfer.received limit) = total at htotal ⊢
  specialize htotal total rfl
  by_cases hbad : (s.offset = 0 ∧ (turns attempt).status ≠ 200) ∨
      (s.offset ≠ 0 ∧ ((turns attempt).status ≠ 206 ∨ total = none))
  · rw [if_pos hbad]
    exact closed_of_result (by simp) hr
  rw [if_neg hbad]
  have hlength : s.output.content.length = s.offset + transfer.received := by
    rw [hout, length_append, hlen, h.received]
  have hkept : (s.offset = 0 ∧ (turns attempt).status = 200 ∧
        s.output.content = body limit 0 (turns attempt)) ∨
      (content ≠ [] ∧ (turns attempt).status = 206 ∧ total ≠ none ∧
        responseRange (turns attempt).headers content.length
          (body limit content.length (turns attempt)).length limit = total ∧
        s.output.content = content ++ body limit content.length (turns attempt)) := by
    rcases htotal with ⟨h0, -⟩ | ⟨h0, hrange⟩
    · have hnil : content = [] := List.length_eq_zero_iff.mp (hlen.trans h0)
      refine .inl ⟨h0, by tauto, ?_⟩
      rw [hout, hnil, h0, nil_append]
    · refine .inr ⟨fun hnil => h0 (by rw [← hlen, hnil]; rfl), by tauto, by tauto, hrange, ?_⟩
      rw [hout, hlen]
  split_ifs with hdone hover hmeta
  · rcases (turns attempt).sync with _ | errno
    · refine ⟨fun _ => ?_, hr⟩
      have hcomplete := h.complete hdone.1
      rcases hkept with ⟨-, hstatus, heq⟩ | ⟨hne, hstatus, -, hrange, heq⟩
      · simp only [heq]
        exact .complete hi hstatus hcomplete
      have hlast : some (s.offset + transfer.received) = total :=
        hdone.2.resolve_left (by simp [hstatus])
      simp only [heq]
      refine .resumed hi hassembled hne hstatus hcomplete ?_
      rw [hrange, ← hlast, ← hlength, heq]
    · exact closed_of_result (by simp [ioFailed]) hr
  · exact closed_of_result (by simp) hr
  · exact rewind_goes (Nat.zero_le _) hr (sound_restart h.requests rfl)
  · refine ⟨⟨hlength, hposition.trans hlength, ?_⟩, ?_, h.requests⟩
    · have := length_body (turns attempt) h.le
      rw [h.received]
      exact this
    rcases hkept with ⟨-, hstatus, heq⟩ | ⟨hne, hstatus, hsome, hrange, heq⟩
    · simp only [heq]
      exact .opened (Nat.lt_succ_self _) hstatus
    obtain ⟨n, hn⟩ := Option.ne_none_iff_exists'.mp hsome
    simp only [heq]
    exact .resumed hassembled (Nat.lt_succ_self _) hne hstatus (hrange.trans hn)

lemma written_goes (hi : attempt < 4)
    (h : Written limit turns attempt transfer s) :
    Goes limit turns (attempt + 1)
      (if ¬(turns attempt).remember then
        .inl ⟨-3, some .again, { s with error := .cooldownNotSaved }⟩
      else if transfer.result = -2 ∧ transfer.errno ≠ some .fileTooBig then
        .inl ⟨-2, transfer.errno, s⟩
      else if s.offset ≠ 0 ∧ ((turns attempt).status = 200 ∨ (turns attempt).status = 416) then
        rewind (turns attempt) 0 { s with offset := 0 } fun s =>
          .inr { s with error := .notResumable }
      else if transfer.result = -2 then .inl ⟨-2, transfer.errno, s⟩
      else judge limit metadata attempt (turns attempt) transfer s) := by
  have hr : s.requests.length ≤ 4 := by have := h.requests; omega
  split_ifs with hremember hbroken hrestart hbig
  · exact closed_of_result (by simp) hr
  · refine rewind_goes (Nat.zero_le _) hr ?_
    exact sound_restart (s := { s with offset := 0, error := .notResumable }) h.requests rfl
  · exact closed_of_result (by simp) hr
  · exact judge_goes hi h
  · exact closed_of_result (by simp) hr

/-- **One attempt** keeps what holds when an attempt starts. -/
theorem tryOnce_goes (metadata : Bool) (hi : attempt < 4) (h : Sound limit turns attempt s) :
    Goes limit turns (attempt + 1) (tryOnce limit metadata attempt (turns attempt) s) := by
  have hr : s.requests.length ≤ 4 := by have := h.requests; omega
  unfold tryOnce
  rcases (turns attempt).wait with _ | errno
  swap
  · exact closed_of_result (by dsimp only; split_ifs <;> simp) hr
  dsimp only
  by_cases hcancelled : (turns attempt).cancelled
  · rw [if_pos hcancelled]
    exact closed_of_result (by simp) hr
  rw [if_neg hcancelled]
  rcases (turns attempt).headersOpen with _ | errno
  swap
  · exact closed_of_result (by simp [ioFailed]) hr
  dsimp only
  by_cases hbegin : ¬(turns attempt).beginRequest
  · rw [if_pos hbegin]
    exact closed_of_result (by simp) hr
  rw [if_neg hbegin]
  obtain ⟨hreceived, houtput⟩ := runBounded_spec (turns attempt) limit h.aligned.atEnd
  refine written_goes hi ⟨h.aligned.le, ⟨s.output.content, h.aligned.length, h.assembled, ?_, ?_⟩,
    hreceived, ?_, complete_of_result⟩
  · rw [houtput]
  · rw [houtput]
  dsimp only
  split_ifs
  · simpa using h.requests
  · exact h.requests.trans (Nat.le_succ _)

/-! ### The loop -/

/-- **The loop** ends as it should from every attempt on. -/
theorem attempts_closed (left : ℕ) (hleft : left + attempt = 4)
    (h : Sound limit turns attempt s) :
    Closed limit turns (attempts limit metadata turns left attempt s) := by
  induction left generalizing attempt s with
  | zero =>
    have := h.requests
    exact closed_of_result (by simp [attempts]) (by rw [attempts]; dsimp only; omega)
  | succ left ih =>
    have hgoes := tryOnce_goes metadata (by omega) h
    rw [attempts]
    rcases ht : tryOnce limit metadata attempt (turns attempt) s with ended | next
    · rw [ht] at hgoes
      exact hgoes
    · rw [ht] at hgoes
      exact ih (by omega) hgoes

/-- The attempts a call starts, each with the variables of the loop there. -/
inductive Starts (limit : ℕ) (metadata : Bool) (call : Call) (file : Option Text) :
    ℕ → Progress → Prop
  | first (hfits : call.pathFits) (hcooldown : call.openCooldown = none)
      (hopen : call.openOutput = none) (hcheck : call.check = none)
      (htruncate : call.truncate = none) (hheaders : call.headers = none) :
      Starts limit metadata call file 0
        ⟨0, (Output.mk (file.getD []) 0).truncate 0, [], .empty⟩
  | next {attempt : ℕ} {s s' : Progress} (h : Starts limit metadata call file attempt s)
      (hlt : attempt + 1 < 4)
      (hgo : tryOnce limit metadata attempt (call.turns attempt) s = .inr s') :
      Starts limit metadata call file (attempt + 1) s'

lemma sound_first (turns : ℕ → Turn) (content : Text) :
    Sound limit turns 0 ⟨0, (Output.mk content 0).truncate 0, [], .empty⟩ := by
  refine ⟨⟨?_, rfl, Nat.zero_le _⟩, ?_, Nat.le_refl _⟩
  · simp [Output.truncate]
  · simpa [Output.truncate] using Assembled.empty 0

lemma Starts.sound {file : Option Text}
    (h : Starts limit metadata call file attempt s) :
    attempt < 4 ∧ Sound limit call.turns attempt s := by
  induction h with
  | first => exact ⟨by omega, sound_first call.turns _⟩
  | next _ hlt hgo ih =>
    have hgoes := tryOnce_goes metadata ih.1 ih.2
    rw [hgo] at hgoes
    exact ⟨hlt, hgoes⟩

lemma download_closed (limit : ℕ) (metadata : Bool) (call : Call) (content : Text) :
    Closed limit call.turns (download limit metadata call content) := by
  unfold download
  rcases call.check with _ | errno
  swap
  · exact closed_of_result (by simp [ioFailed]) (by simp [ioFailed])
  rcases call.truncate with _ | errno
  swap
  · exact closed_of_result (by simp [ioFailed]) (by simp [ioFailed])
  rcases call.headers with _ | errno
  swap
  · exact closed_of_result (by simp [ioFailed]) (by simp [ioFailed])
  exact attempts_closed 4 rfl (sound_first call.turns content)

lemma Aligned.copy_le (h : Aligned limit s) (events : List Event) :
    (copyEvents (limit - s.offset) events 0 s.output).2.2.content.length ≤ limit := by
  have hlen := length_taken (limit - s.offset) events (Nat.zero_le (limit - s.offset))
  have hle := h.le
  rw [copyEvents_spec _ events 0 h.atEnd, length_append, h.length]
  omega

/-! ### The call -/

def Opened (call : Call) : Prop :=
  call.pathFits ∧ call.openCooldown = none ∧ call.openOutput = none

lemma fetchEndpoint_opened (h : Opened call) (file : Option Text) :
    fetchEndpoint limit metadata call file =
      finish call (download limit metadata call (file.getD [])) := by
  obtain ⟨hfits, hcooldown, hopen⟩ := h
  simp [fetchEndpoint, hfits, hcooldown, hopen]

lemma fetchEndpoint_not_opened (limit : ℕ) (metadata : Bool) (h : ¬Opened call)
    (file : Option Text) :
    (fetchEndpoint limit metadata call file).result ≠ 0 ∧
      (fetchEndpoint limit metadata call file).file = file ∧
        (fetchEndpoint limit metadata call file).requests = [] := by
  unfold fetchEndpoint
  by_cases hfits : call.pathFits
  · rw [if_neg (not_not.mpr hfits)]
    rcases hcooldown : call.openCooldown with _ | errno
    · rcases hopen : call.openOutput with _ | errno
      · exact absurd ⟨hfits, hcooldown, hopen⟩ h
      · simp
    dsimp only
    refine ⟨?_, rfl, rfl⟩
    split_ifs <;> simp
  · rw [if_pos hfits]
    simp

lemma finish_requests (call : Call) (ended : Ended) :
    (finish call ended).requests = ended.progress.requests := by
  rcases hc : call.close with _ | errno
  · simp only [finish, hc]
  · simp only [finish, hc]
    split_ifs <;> rfl

lemma finish_success (h : (finish call ended).result = 0) :
    ended.result = 0 ∧ (finish call ended).file = some ended.progress.output.content := by
  rcases hc : call.close with _ | errno
  · simp only [finish, hc] at h ⊢
    exact ⟨h, by simp [h]⟩
  simp only [finish, hc] at h ⊢
  split_ifs at h with h0
  · simp at h
  · exact absurd h h0

lemma finish_failure (h : (finish call ended).result ≠ 0)
    (hunlink : call.unlink) : (finish call ended).file = none := by
  unfold finish at h ⊢
  exact if_pos ⟨h, hunlink⟩

/-- **A download** finds its output at the offset whenever an attempt starts, keeps no more than
the limit, sends at most four requests, succeeds only with the complete body of one response or
with the bodies of several, the first that of a request for the whole and each later one declared
to start where the bytes before it end, and otherwise removes what it has opened. -/
theorem resumable_download (limit : ℕ) (metadata : Bool) (call : Call) (file : Option Text) :
    (∀ attempt s, Starts limit metadata call file attempt s →
      attempt < 4 ∧ Aligned limit s ∧ ∀ events,
        (copyEvents (limit - s.offset) events 0 s.output).2.2.content.length ≤ limit) ∧
    ((fetchEndpoint limit metadata call file).result = 0 →
      ∃ content, (fetchEndpoint limit metadata call file).file = some content ∧
        content.length ≤ limit ∧ Delivered limit call.turns content) ∧
    (∀ headers offset received total, responseRange headers offset received limit = some total →
      total ≤ limit ∧ ∃ value, Declares offset received total value) ∧
    (fetchEndpoint limit metadata call file).requests.length ≤ 4 ∧
    ((fetchEndpoint limit metadata call file).result ≠ 0 → Opened call → call.unlink →
      (fetchEndpoint limit metadata call file).file = none) ∧
    (¬Opened call → (fetchEndpoint limit metadata call file).result ≠ 0 ∧
      (fetchEndpoint limit metadata call file).file = file) := by
  have hstarts : ∀ attempt s, Starts limit metadata call file attempt s →
      attempt < 4 ∧ Aligned limit s ∧ ∀ events,
        (copyEvents (limit - s.offset) events 0 s.output).2.2.content.length ≤ limit :=
    fun attempt s h => ⟨h.sound.1, h.sound.2.aligned, h.sound.2.aligned.copy_le⟩
  by_cases hopened : Opened call
  · have hclosed := download_closed limit metadata call (file.getD [])
    rw [fetchEndpoint_opened hopened]
    refine ⟨hstarts, fun h0 => ?_, fun _ _ _ _ => responseRange_declares, ?_,
      fun hne _ hunlink => finish_failure hne hunlink,
      fun hnot => absurd hopened hnot⟩
    · obtain ⟨hended, hfile⟩ := finish_success h0
      have hdelivered := hclosed.delivered hended
      exact ⟨_, hfile, hdelivered.length_le, hdelivered⟩
    · rw [finish_requests]
      exact hclosed.requests
  · obtain ⟨hne, hfile, hrequests⟩ := fetchEndpoint_not_opened limit metadata hopened file
    exact ⟨hstarts, fun h0 => absurd h0 hne, fun _ _ _ _ => responseRange_declares,
      by rw [hrequests]; exact Nat.zero_le 4,
      fun _ h => absurd h hopened, fun _ => ⟨hne, hfile⟩⟩

/-! ### Where the first range comes from -/

/-- Texts put together from ranges only, each declared to start where the bytes before it end. -/
inductive Ranged (limit : ℕ) (turns : ℕ → Turn) : Text → Prop
  | empty : Ranged limit turns []
  | next {i total : ℕ} {content : Text} (h : Ranged limit turns content)
      (hrange : responseRange (turns i).headers content.length
        (body limit content.length (turns i)).length limit = some total) :
      Ranged limit turns (content ++ body limit content.length (turns i))

/-- A response, where nothing but the transfer goes wrong. -/
def respond (status : ℤ) (headers bytes : String) (exitCode : ℤ) : Turn :=
  { wait := none, cancelled := false, headersOpen := none, beginRequest := true
    child := ⟨none, [.read bytes.toList none], exitCode⟩
    headers := some headers.toList, status := status, retryAfter := none, remember := true
    truncate := none, seek := none, sync := none }

/-- The whole is asked for and cut short; then the rest is asked for. -/
def cutShort (attempt : ℕ) : Turn :=
  if attempt = 0 then respond 200 "HTTP/1.1 200 OK\r\n\r\n" "ab" 18
  else respond 206 "HTTP/1.1 206 Partial Content\r\nContent-Range: bytes 2-3/4\r\n\r\n" "cd" 0

/-- A call where only the transfers can go wrong. -/
def calm (turns : ℕ → Turn) : Call :=
  { pathFits := true, openCooldown := none, openOutput := none, check := none, truncate := none
    headers := none, turns := turns, close := none, unlink := true }

lemma cutShort_delivers :
    fetchEndpoint 100 false (calm cutShort) none =
      ⟨0, none, .empty, some "abcd".toList, [2, 0]⟩ := by
  decide

lemma cutShort_ranged (h : Ranged 100 cutShort content) : content = [] := by
  induction h with
  | empty => rfl
  | @next i total content h hrange ih =>
    subst ih
    rcases i with _ | i
    · have : responseRange (cutShort 0).headers 0 2 100 = none := by decide
      exact absurd (this.symm.trans hrange) (by simp)
    · have : responseRange (cutShort 1).headers 0 2 100 = none := by decide
      exact absurd (this.symm.trans hrange) (by simp)

/-- A file can be delivered whose first bytes come from no range and no complete body, and a
call that fails before it has opened its output leaves what is there. -/
theorem resumable_download_fails :
    (¬∀ (limit : ℕ) (metadata : Bool) (call : Call) (file : Option Text),
      (fetchEndpoint limit metadata call file).result = 0 →
        ∃ content, (fetchEndpoint limit metadata call file).file = some content ∧
          ((∃ i, (call.turns i).status = 200 ∧ Complete (call.turns i).child ∧
            content = body limit 0 (call.turns i)) ∨ Ranged limit call.turns content)) ∧
    ¬∀ (limit : ℕ) (metadata : Bool) (call : Call) (file : Option Text),
      (fetchEndpoint limit metadata call file).result ≠ 0 →
        (fetchEndpoint limit metadata call file).file = none := by
  constructor
  · intro h
    obtain ⟨content, hfile, hcontent⟩ :=
      h 100 false (calm cutShort) none (by rw [cutShort_delivers])
    rw [cutShort_delivers] at hfile
    obtain rfl : "abcd".toList = content := Option.some.inj hfile
    rcases hcontent with ⟨i, hstatus, hcomplete, -⟩ | hranged
    · rcases i with _ | i
      · exact absurd hcomplete.2.1 (by decide)
      · exact absurd hstatus (by simp [calm, cutShort, respond])
    · exact absurd (cutShort_ranged hranged) (by decide)
  · intro h
    have := h 100 false { calm cutShort with openCooldown := some .again } (some ['x']) (by decide)
    exact absurd this (by decide)

end C1auncher.Package.DownloadRanges
