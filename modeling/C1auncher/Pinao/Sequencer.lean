import C1auncher.Pinao.Song

/-!
The sequencer: what keys and the clock do to a song, to the cursor and to the transport.

Times are nanoseconds since the zero time, durations are nanoseconds.
-/

namespace C1auncher.Pinao.Sequencer

open Pinao.Song

abbrev Time := ℤ

def second : ℤ := 1000000000

def keyFeedbackDuration : ℤ := 1200000000

def pageHoldDuration : ℤ := 700000000

structure KeyEvent where
  code : ℕ
  down : Bool
  reset : Bool
  deriving DecidableEq

inductive Kind
  | offAll
  | off
  | on
  | hold
  | drum
  | loopOff
  | volume
  deriving DecidableEq

structure SoundCommand where
  /-- Loop slots that continue without being triggered again. -/
  keep : ℕ := 0
  kind : Kind
  id : ℤ := 0
  midi : ℤ := 0
  tone : ℤ := 0
  drum : ℤ := 0
  volume : ℤ := 0
  deriving DecidableEq

/-- What a key asks of the main loop. -/
inductive Action
  | nothing
  | exit
  | export
  | save
  deriving DecidableEq

structure Spark where
  key : ℤ
  time : Time
  drum : Bool
  deriving DecidableEq

structure HeldCapture where
  hit : Hit
  position : ℤ
  valid : Bool
  deriving DecidableEq

def noHit : Hit := ⟨0, 0, 0, false⟩

/-- `heldCapture{}` -/
def noCapture : HeldCapture := ⟨noHit, 0, false⟩

/-! ### The transport -/

/-- Gives notes that go on the slots they have. -/
structure LoopTransport where
  notes : Fin 8 → Hit
  active : Fin 8 → Bool
  position : ℤ
  valid : Bool

/-- The slots of the notes that go on; `none` for the others. -/
def continued (p : LoopTransport) : List Hit → (Fin 8 → Bool) → List (Option (Fin 8))
  | [], _ => []
  | h :: hits, used =>
    let slot :=
      if h.tie ∧ h.drum = 0 then
        (List.finRange 8).find? fun j => p.active j && !used j && sameNote (p.notes j) h
      else none
    slot :: continued p hits (match slot with
      | some j => Function.update used j true
      | none => used)

/-- The first free slots for the rest. -/
def assigned : List (Option (Fin 8)) → (Fin 8 → Bool) → List (Option (Fin 8))
  | [], _ => []
  | some j :: slots, used => some j :: assigned slots used
  | none :: slots, used =>
    let slot := (List.finRange 8).find? fun j => !used j
    slot :: assigned slots (match slot with
      | some j => Function.update used j true
      | none => used)

def keepMask (slots : List (Option (Fin 8))) : ℕ :=
  slots.foldl (fun keep slot => match slot with
    | some j => keep ||| 1 <<< j.val
    | none => keep) 0

def loopCommand (keep : ℕ) (h : Hit) (slot : Fin 8) : SoundCommand :=
  if 0 < h.drum then
    { kind := .drum, id := 300 + slot.val, midi := h.midi.toInt, tone := h.tone
      drum := h.drum - 1 }
  else
    { kind := if keep.testBit slot.val then .hold else .on
      id := 300 + slot.val, midi := h.midi.toInt, tone := h.tone }

/-- `commands`, and the transport afterwards. -/
def LoopTransport.commands (p : LoopTransport) (hits : List Hit) (position : ℤ)
    (contiguous : Bool) : LoopTransport × List SoundCommand :=
  let kept :=
    if contiguous ∧ p.valid ∧ position = p.position + 1 then continued p hits fun _ => false
    else hits.map fun _ => none
  let keep := keepMask kept
  let slots := assigned kept fun j => kept.contains (some j)
  let placed := (hits.zip slots).filterMap fun (h, slot) => slot.map fun j => (h, j)
  (⟨fun j => ((placed.findRev? fun x => x.2 == j).map Prod.fst).getD (p.notes j),
      fun j => ((placed.findRev? fun x => x.2 == j).map fun x => x.1.drum == 0).getD false,
      position, true⟩,
    { kind := .loopOff, keep := keep } :: placed.map fun (h, j) => loopCommand keep h j)

/-! ### The model -/

structure Model where
  song : Song
  playing : Bool
  recording : Bool
  help : Bool
  dirty : Bool
  stepMode : Bool
  page : ℤ
  pageKey : ℕ
  pageKeyAt : Time
  pageKeyFired : Bool
  pageSavePending : Bool
  step : ℤ
  startStep : ℤ
  started : Time
  lastTick : ℤ
  held : ℕ → Option ℤ
  feedback : Fin 13 → Time
  sparks : List Spark
  notice : String
  noticeUntil : Time
  clearUntil : Time
  clearPage : ℤ
  changedAt : Time
  captures : Fin 128 → HeldCapture
  transport : LoopTransport

/-- A W S E D F T G Y H U J K -/
def noteKeys : List ℕ := [30, 17, 31, 18, 32, 33, 20, 34, 21, 35, 22, 36, 37]

def keyNote (code : ℕ) : Option ℕ := noteKeys.findIdx? (· == code)

def systemPowerKey (code : ℕ) : Bool := code == 143 || code == 116

def exitKey (e : KeyEvent) : Bool :=
  e.down && !e.reset && (e.code == 102 || e.code == 158 || e.code == 1)

def pageDirection (code : ℕ) : ℤ := if code = 23 then -1 else 1

/-- `%02d` -/
def twoDigits (n : ℤ) : String := (if 0 ≤ n ∧ n < 10 then "0" else "") ++ toString n

namespace Model

variable (m : Model)

def message (notice : String) (now : Time) : Model :=
  { m with notice := notice, noticeUntil := now + 2 * second }

def changed (now : Time) : Model :=
  { m with dirty := true, changedAt := now, clearUntil := 0, clearPage := -1 }

def stepDuration : ℤ := (60 * second).tdiv (m.song.bpm * 2)

def cancelTies : Model := { m with captures := fun _ => noCapture }

def cancelPageGesture : Model := { m with pageKey := 0, pageKeyAt := 0, pageKeyFired := false }

def invalidTransport : Model := { m with transport := { m.transport with valid := false } }

def position : ℤ := m.page * 16 + m.step

def startFrom (now : Time) (step : ℤ) : Model :=
  let m := m.cancelTies.invalidTransport
  let startStep := m.page * 16 + (step.tmod 16 + 16).tmod 16
  { m with
    playing := true, stepMode := false, started := now, lastTick := -1, startStep := startStep
    step := startStep.tmod 16 }

def start (now : Time) : Model := m.startFrom now 0

def stop : Model :=
  { m.cancelTies.invalidTransport with
    playing := false, recording := false, stepMode := false, step := -1 }

/-- `max(0, now.Sub(m.Started))` -/
def elapsed (now : Time) : ℤ := max 0 (now - m.started)

def clockTick (now : Time) : ℤ := (m.elapsed now).tdiv m.stepDuration

/-- The number of cells. -/
def total : ℤ := m.song.pageCount * 16

def positionAt (tick : ℤ) : ℤ := (m.startStep + tick.tmod m.total).tmod m.total

def clockPosition (now : Time) : ℤ := m.positionAt (m.clockTick now)

def syncPosition (now : Time) : Model :=
  { m with page := (m.clockPosition now).tdiv 16, step := (m.clockPosition now).tmod 16 }

/-! ### Held notes -/

/-- One turn of the loop over the captures, from the position of a cell to the one behind it. -/
def extendCapture (from_ : ℤ) (now : Time) (m : Model) (code : Fin 128) : Model :=
  let to_ := m.position
  let c := m.captures code
  let invalid : Model :=
    { m with captures := Function.update m.captures code { c with valid := false } }
  if (m.held code).isNone ∨ ¬c.valid ∨ c.position ≠ from_ then invalid
  else if noteIndex (hits (m.song.cell from_.toNat)) c.hit = none then invalid
  else
    let cell := m.song.cell to_.toNat
    match noteIndex (hits cell) c.hit with
    | some i =>
      -- an attack that was recorded by itself is kept
      let kept := { c with valid := ((hits cell).getD i noHit).tie, position := to_ }
      { m with captures := Function.update m.captures code kept }
    | none =>
      if voiceCount ≤ (hits cell).length then invalid.message "STEP FULL - TIE NOT ADDED" now
      else
        let song := m.song.setCell to_.toNat (some (hits cell ++ [{ c.hit with tie := true }]))
        let captures := Function.update m.captures code { c with position := to_ }
        { m with song := { song with format := 3 }, captures := captures }.changed now

def extendHeld (from_ : ℤ) (now : Time) : Model :=
  if ¬m.recording ∨ ¬m.stepMode ∨ m.position ≠ from_ + 1 then m.cancelTies
  else (List.finRange 128).foldl (extendCapture from_ now) m

/-! ### Navigation and tempo -/

def selectStep (delta : ℤ) (now : Time) : Model :=
  let manual := m.stepMode
  let from_ := m.position
  let m := if m.playing then m.syncPosition now else m
  let m := { m with step := if m.step < 0 then 0 else (m.step + delta + 16).tmod 16 }
  let m := { m with playing := false, stepMode := true }
  if manual then m.extendHeld from_ now else m.cancelTies

def setBPM (bpm : ℤ) (now : Time) : Model :=
  if bpm = m.song.bpm then m
  else
    let m' :=
      if m.playing then
        let oldDuration := m.stepDuration
        let elapsed := m.elapsed now
        let played := decide (m.clockTick now ≤ m.lastTick)
        let m := m.syncPosition now
        let step := m.step
        let m := { m with song := { m.song with bpm := bpm } }
        let phase := ((elapsed.tmod oldDuration) * m.stepDuration).tdiv oldDuration
        let previous := m.transport
        let preserve := decide (elapsed.tdiv oldDuration ≤ m.lastTick + 1)
        let m := m.startFrom (now - phase) step
        let m := if preserve then { m with transport := previous } else m
        if played then { m with lastTick := 0 } else m
      else { m with song := { m.song with bpm := bpm } }
    m'.changed now

/-! ### Recording -/

/-- What recording a hit does to the notes of a cell; `none` where nothing changes. -/
def recordNotes (h : Hit) : List Hit → Option (List Hit)
  | [] => some [h]
  | old :: notes =>
    if old = h then none
    else if sameNote old h then some (h :: notes)
    else (recordNotes h notes).map (old :: ·)

def recordPlace (now : Time) : ℤ × ℤ :=
  if m.stepMode then (m.page, m.step)
  else
    let tick := (m.elapsed now + m.stepDuration.tdiv 2).tdiv m.stepDuration
    ((m.positionAt tick).tdiv 16, (m.positionAt tick).tmod 16)

def record (h : Hit) (now : Time) : Model :=
  if ¬m.recording then m
  else
    let (page, step) := m.recordPlace now
    if step < 0 ∨ 16 ≤ step then m
    else
      let position := (page * 16 + step).toNat
      let notes := hits (m.song.cell position)
      match recordNotes h notes with
      | none => m
      | some notes' =>
        if notes'.length = notes.length + 1 ∧ 8 ≤ notes.length then m.message "STEP FULL" now
        else { m with song := m.song.setCell position (some notes') }.changed now

def addSpark (key : ℤ) (drum : Bool) (now : Time) : Model :=
  { m with
    sparks := (if 32 ≤ m.sparks.length then m.sparks.tail.take 31 else m.sparks) ++
      [⟨key, now, drum⟩] }

/-! ### Pages -/

def changePage (delta : ℤ) (now : Time) : Model :=
  let next := m.page + delta
  if next < 0 ∨ m.song.pageCount ≤ next then m.message "EDGE - HOLD I/O: INSERT PAGE" now
  else
    let m := { m with page := next, step := 0 }.extendHeld m.position now
    let m := { m with clearUntil := 0, pageSavePending := true }
    m.message ("PAGE " ++ twoDigits (m.page + 1) ++ "/" ++ twoDigits m.song.pageCount) now

/-- A blank page at an index; what is there and behind it moves up. -/
def insertBlank (s : Song) (index : ℕ) : Song :=
  if index = 0 then { s with pattern := blankPage, pages := s.pattern :: s.pages }
  else { s with pages := s.pages.insertIdx (index - 1) blankPage }

def insertPage (delta : ℤ) (now : Time) : Model :=
  if maxPages ≤ m.song.pageCount then m.message "PAGE LIMIT: 64" now
  else
    let index := if 0 < delta then m.page + 1 else m.page
    let from_ := m.position
    let song := insertBlank m.song index.toNat
    let song := { song with format := max 2 song.format }.repairTies
    let m := { m with song := song, page := index, step := 0 }
    let m := if 0 < delta then m.extendHeld from_ now else m.cancelTies
    let m := { m with playing := false, stepMode := true, clearUntil := 0 }.changed now
    let m := { m with pageSavePending := true }
    m.message ("NEW PAGE " ++ twoDigits (m.page + 1) ++ "/" ++ twoDigits m.song.pageCount) now

/-- What a page key does when it is let go, or when it was held. -/
inductive PageMove
  | change (delta : ℤ)
  | insert (delta : ℤ)
  deriving DecidableEq

def movePage (move : PageMove) (now : Time) : Model :=
  match move with
  | .change delta => m.changePage delta now
  | .insert delta => m.insertPage delta now

def releaseMove (now : Time) : Option PageMove :=
  if m.pageKeyFired then none
  else if pageHoldDuration ≤ now - m.pageKeyAt then some (.insert (pageDirection m.pageKey))
  else some (.change (pageDirection m.pageKey))

/-- While the pending key is held. -/
def holdMove (now : Time) : Option PageMove :=
  if m.pageKey ≠ 0 ∧ ¬m.pageKeyFired ∧ pageHoldDuration ≤ now - m.pageKeyAt then
    some (.insert (pageDirection m.pageKey))
  else none

def moveIfDue (due : Option PageMove) (now : Time) : Model :=
  match due with
  | some move => m.movePage move now
  | none => m

def pressPageKey (code : ℕ) (now : Time) : Model × List SoundCommand :=
  if m.pageKey ≠ 0 then
    (if m.pageKey ≠ code then { m with pageKeyFired := true } else m, [])
  else
    let m := { m with pageKey := code, pageKeyAt := now, pageKeyFired := false }
    let m := if m.playing then m.syncPosition now else m
    ({ m with
        playing := false, stepMode := true, step := if m.step < 0 then 0 else m.step
        clearUntil := 0 },
      [{ kind := .loopOff }])

def handlePageKey (e : KeyEvent) (now : Time) : Model × List SoundCommand :=
  if e.down then m.pressPageKey e.code now
  else if e.code ≠ m.pageKey then (m, [])
  else ((m.moveIfDue (m.releaseMove now) now).cancelPageGesture, [])

def checkPageHold (now : Time) : Model :=
  match m.holdMove now with
  | some move => { m with pageKeyFired := true }.movePage move now
  | none => m

/-! ### Keys -/

def toggleHelp : Model := { m.cancelTies.cancelPageGesture with help := !m.help }

def keyUp (code : ℕ) (now : Time) : Model × List SoundCommand :=
  match m.held code with
  | none => (m, [])
  | some _ =>
    ({ m with
        held := Function.update m.held code none
        captures := fun i => if i.val = code then { m.captures i with valid := false }
          else m.captures i
        feedback := match keyNote code with
          | some n => fun i => if i.val = n then now + keyFeedbackDuration else m.feedback i
          | none => m.feedback },
      [{ kind := .off, id := code }])

def playNote (code n : ℕ) (now : Time) : Model × List SoundCommand :=
  match m.held code with
  | some _ => (m, [])
  | none =>
    let midi := 12 * (m.song.octave + 1) + n
    let m := { m with
      held := Function.update m.held code (some midi)
      feedback := fun i => if i.val = n then now + keyFeedbackDuration else m.feedback i }
    let m := m.addSpark n false now
    let h : Hit := ⟨Int64.ofInt midi, m.song.tone, 0, false⟩
    let m := m.record h now
    let m :=
      if m.recording ∧ m.stepMode ∧ 0 ≤ m.step ∧
          (noteIndex (hits (m.song.cell m.position.toNat)) h).isSome then
        { m with captures := fun i => if i.val = code then ⟨h, m.position, true⟩ else m.captures i }
      else m
    (m, [{ kind := .on, id := code, midi := midi, tone := m.song.tone }])

/-- V B N M, or 1 2 3 4 -/
def drumKey (code : ℕ) : Option ℕ :=
  if 2 ≤ code ∧ code ≤ 5 then some (code - 2)
  else if 46 ≤ code ∧ code ≤ 49 then some (code - 46)
  else none

def playDrum (drum : ℕ) (now : Time) : Model × List SoundCommand :=
  ((m.addSpark drum true now).record ⟨0, 0, drum + 1, false⟩ now,
    [{ kind := .drum, id := 200 + drum, drum := drum }])

/-- The space bar -/
def playPause (now : Time) : Model × List SoundCommand :=
  if m.stepMode then (m.startFrom now m.step, [])
  else if m.playing ∧ m.recording then
    ({ m.syncPosition now with playing := false, stepMode := true }, [{ kind := .loopOff }])
  else if m.playing then ((m.syncPosition now).stop, [{ kind := .loopOff }])
  else (m.start now, [])

def toggleRecording (now : Time) : Model :=
  let m := { m with recording := !m.recording }.cancelTies
  let m :=
    if m.recording ∧ ¬m.playing then if m.stepMode then m.startFrom now m.step else m.start now
    else m
  if m.recording then m.message "AUTO REC - LEFT/RIGHT: STEP" now
  else m.message "RECORDING STOPPED" now

/-- Everything is deleted but the settings. -/
def clearProject (now : Time) : Model × List SoundCommand :=
  let song := { m.song with pattern := blankPage, pages := [], format := 1 }
  let m := { m with song := song, page := 0 }.stop
  let m := { m with clearUntil := 0, clearPage := -1 }.changed now
  ({ m with pageSavePending := true }.message "PROJECT CLEARED - 1 PAGE" now,
    [{ kind := .loopOff }])

/-- A first time the selected cell, then everything. -/
def delete (now : Time) : Model × List SoundCommand :=
  let m := m.cancelTies
  let m := if m.playing then m.syncPosition now else m
  let confirmed := decide (now < m.clearUntil) && m.clearPage == m.page
  if m.stepMode ∧ 0 ≤ m.step ∧ m.step < 16 then
    if confirmed then m.clearProject now
    else
      let position := m.position.toNat
      let m :=
        if hits (m.song.cell position) = [] then m.message "CELL ALREADY EMPTY" now
        else
          ({ m with song := (m.song.setCell position none).repairTies }.changed now).message
            "CELL CLEARED - DEL AGAIN: CLEAR ALL" now
      ({ m with clearPage := m.page, clearUntil := now + 2 * second }, [{ kind := .loopOff }])
  else if confirmed then m.clearProject now
  else
    ({ m with clearPage := m.page, clearUntil := now + 2 * second }.message
      "DEL AGAIN: CLEAR ALL TO 1 PAGE" now, [])

/-- The keys that are no notes. -/
def command (code : ℕ) (now : Time) : Model × List SoundCommand × Action :=
  match code with
  | 57 => ((m.playPause now).1, (m.playPause now).2, .nothing)
  | 19 => (m.toggleRecording now, [], .nothing)
  | 16 | 15 =>
    ({ m with song := { m.song with tone := (m.song.tone + 1).tmod 3 } }.changed now, [], .nothing)
  | 44 =>
    (if 3 < m.song.octave then
      { m with song := { m.song with octave := m.song.octave - 1 } }.changed now else m, [],
      .nothing)
  | 45 =>
    (if m.song.octave < 6 then
      { m with song := { m.song with octave := m.song.octave + 1 } }.changed now else m, [],
      .nothing)
  | 105 | 106 =>
    let m := m.selectStep (if code = 105 then -1 else 1) now
    (if ¬m.recording then m.message "STEP VIEW - R: START RECORDING" now else m,
      [{ kind := .loopOff }], .nothing)
  | 103 | 108 =>
    let bpm := if code = 103 then m.song.bpm + 5 else m.song.bpm - 5
    (m.setBPM (max 60 (min 180 bpm)) now, [], .nothing)
  | 114 | 115 =>
    let volume := if code = 115 then m.song.volume + 5 else m.song.volume - 5
    let volume := max 0 (min 100 volume)
    ({ m with song := { m.song with volume := volume } }.changed now,
      [{ kind := .volume, volume := volume }], .nothing)
  | 25 => (m, [], .export)
  | 28 | 352 => (m, [], .save)
  | 14 | 111 => ((m.delete now).1, (m.delete now).2, .nothing)
  | _ => (m, [], .nothing)

def keyDown (e : KeyEvent) (now : Time) : Model × List SoundCommand × Action :=
  if exitKey e then (m, [], .exit)
  else if e.code = 38 ∨ e.code = 53 then (m.toggleHelp, [], .nothing)
  else if m.help then (m, [], .nothing)
  else match keyNote e.code with
    | some n => ((m.playNote e.code n now).1, (m.playNote e.code n now).2, .nothing)
    | none =>
      match drumKey e.code with
      | some drum => ((m.playDrum drum now).1, (m.playDrum drum now).2, .nothing)
      | none => m.command e.code now

def handle (e : KeyEvent) (now : Time) : Model × List SoundCommand × Action :=
  if e.reset then
    ({ m.cancelTies.cancelPageGesture with
        held := fun _ => none, feedback := fun _ => 0, sparks := [] },
      [{ kind := .offAll }], .nothing)
  else if systemPowerKey e.code then (m.cancelPageGesture, [], .nothing)
  else if e.code = 23 ∨ e.code = 24 then
    if m.help then (m, [], .nothing)
    else ((m.handlePageKey e now).1, (m.handlePageKey e now).2, .nothing)
  else
    -- chords never create pages
    let m := if e.down ∧ m.pageKey ≠ 0 then { m with pageKeyFired := true } else m
    if e.down then m.keyDown e now
    else ((m.keyUp e.code now).1, (m.keyUp e.code now).2, .nothing)

/-! ### The clock -/

def sparkHit (now : Time) (m : Model) (h : Hit) : Model :=
  if 0 < h.drum then m.addSpark (h.drum - 1) true now
  else m.addSpark (h.midi.toInt.tmod 12) false now

def tick (now : Time) : Model × List SoundCommand :=
  let m := m.checkPageHold now
  let m := { m with sparks := m.sparks.filter fun s => decide (now - s.time < keyFeedbackDuration) }
  if ¬m.playing then (m, [])
  else
    let tick := m.clockTick now
    if tick ≤ m.lastTick then (m, [])
    else
      let contiguous := decide (tick = m.lastTick + 1)
      let m := { m with lastTick := tick }.syncPosition now
      let notes := hits (m.song.cell m.position.toNat)
      let (transport, commands) := m.transport.commands notes m.position contiguous
      (notes.foldl (sparkHit now) { m with transport := transport }, commands)

end Model

end C1auncher.Pinao.Sequencer
