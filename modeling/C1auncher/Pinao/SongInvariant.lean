import C1auncher.Pinao.Sequencer
import C1auncher.Pinao.SongSize

/-!
Whatever keys are pressed, the song stays one.
-/

namespace C1auncher.Pinao.SongInvariant

open Pinao.Song Pinao.Sequencer Pinao.Edits Pinao.SongSize List

/-- What holds between two calls, when a page key is pending. -/
structure Ready (key : ℕ) (fired : Bool) (m : Model) : Prop where
  song : Valid m.song
  page : 0 ≤ m.page ∧ m.page < m.song.pageCount
  step : -1 ≤ m.step ∧ m.step < 16
  stepMode : m.stepMode = true → 0 ≤ m.step
  startStep : 0 ≤ m.startStep
  captures : ∀ i, (m.captures i).valid = true → Playable (m.captures i).hit ∧
    (m.captures i).hit.drum = 0
  pageKey : m.pageKey = key ∧ m.pageKeyFired = fired
  pending : key ≠ 0 → m.help = false ∧ (key = 23 ∨ key = 24)

variable {key : ℕ} {fired : Bool} {m : Model} {now : Time}

/-! ### Positions -/

lemma total_pos (m : Model) : 0 < m.total := by
  unfold Model.total Song.pageCount
  omega

lemma positionAt_bounds (h : Ready key fired m) {tick : ℤ} (htick : 0 ≤ tick) :
    0 ≤ m.positionAt tick ∧ m.positionAt tick < m.total := by
  have htotal := total_pos m
  have hmod : 0 ≤ tick.tmod m.total := Int.tmod_nonneg _ htick
  have hstart := h.startStep
  refine ⟨Int.tmod_nonneg _ (by omega), ?_⟩
  exact Int.tmod_lt_of_pos _ htotal

lemma stepDuration_nonneg (h : Ready key fired m) : 0 ≤ m.stepDuration := by
  have hbpm := h.song.bpm
  exact Int.tdiv_nonneg (by decide) (by omega)

lemma elapsed_nonneg (m : Model) (now : Time) : 0 ≤ m.elapsed now := by
  unfold Model.elapsed
  omega

lemma clockTick_nonneg (h : Ready key fired m) (now : Time) : 0 ≤ m.clockTick now :=
  Int.tdiv_nonneg (elapsed_nonneg m now) (stepDuration_nonneg h)

lemma page_of_position {x : ℤ} (h : 0 ≤ x ∧ x < m.total) :
    (0 ≤ x.tdiv 16 ∧ x.tdiv 16 < m.song.pageCount) ∧ 0 ≤ x.tmod 16 ∧ x.tmod 16 < 16 := by
  unfold Model.total at h
  rw [Int.tdiv_eq_ediv_of_nonneg h.1, Int.tmod_eq_emod_of_nonneg h.1]
  omega

lemma Ready.sync (h : Ready key fired m) : Ready key fired (m.syncPosition now) := by
  have hposition := page_of_position (positionAt_bounds h (clockTick_nonneg h now))
  exact ⟨h.song, hposition.1, ⟨le_trans (by decide) hposition.2.1, hposition.2.2⟩,
    fun _ => hposition.2.1, h.startStep, h.captures, h.pageKey, h.pending⟩

lemma Ready.syncIf (h : Ready key fired m) (now : Time) :
    Ready key fired (if m.playing then m.syncPosition now else m) := by
  split_ifs
  · exact h.sync
  · exact h

/-! ### Small changes -/

lemma Ready.message (h :
    Ready key fired m) (notice : String) : Ready key fired (m.message notice now) :=
  { h with }

lemma Ready.changed (h : Ready key fired m) : Ready key fired (m.changed now) :=
  { h with }

lemma Ready.cancelTies (h : Ready key fired m) : Ready key fired m.cancelTies :=
  { h with captures := fun _ hv => (by cases hv) }

lemma Ready.cancelPageGesture (h : Ready key fired m) : Ready 0 false m.cancelPageGesture :=
  { h with pageKey := ⟨rfl, rfl⟩, pending := fun hk => absurd rfl hk }

lemma Ready.addSpark (h : Ready key fired m) (note : ℤ) (drum : Bool) :
    Ready key fired (m.addSpark note drum now) :=
  { h with }

lemma Ready.transported (h : Ready key fired m) (transport : LoopTransport) :
    Ready key fired { m with transport := transport } :=
  { h with }

lemma Ready.ticked (h :
    Ready key fired m) (tick : ℤ) : Ready key fired { m with lastTick := tick } :=
  { h with }

lemma Ready.startFrom (h :
    Ready key fired m) (step : ℤ) : Ready key fired (m.startFrom now step) := by
  have hpage := h.page
  have hstart : 0 ≤ m.page * 16 + (step.tmod 16 + 16).tmod 16 := by
    have := Int.tmod_lt_of_pos step (show (0 : ℤ) < 16 by decide)
    have := Int.lt_tmod_of_pos step (show (0 : ℤ) < 16 by decide)
    have := Int.tmod_nonneg 16 (show 0 ≤ step.tmod 16 + 16 by omega)
    omega
  have hstep := Int.tmod_lt_of_pos (m.page * 16 + (step.tmod 16 + 16).tmod 16)
    (show (0 : ℤ) < 16 by decide)
  have hstep' := Int.tmod_nonneg 16 hstart
  refine ⟨h.song, h.page, ⟨?_, hstep⟩, fun hs => (by cases hs), hstart,
    fun _ hv => (by cases hv), h.pageKey, h.pending⟩
  exact le_trans (by decide) hstep'

lemma Ready.stop (h : Ready key fired m) : Ready key fired m.stop :=
  ⟨h.song, h.page, ⟨Int.le_refl _, show (-1 : ℤ) < 16 by decide⟩, fun hs => (by cases hs),
    h.startStep, fun _ hv => (by cases hv), h.pageKey, h.pending⟩

variable {s : Song} {p i : ℕ}

lemma position_lt {page step : ℤ} (hpage : 0 ≤ page ∧ page < s.pageCount)
    (hstep : 0 ≤ step ∧ step < 16) : (page * 16 + step).toNat < total s := by
  unfold total
  omega

/-! ### Held notes -/

lemma valid_format (h : Valid s) : Valid { s with format := 3 } :=
  ⟨⟨⟨⟨show (1 : ℤ) ≤ 3 by decide, Int.le_refl _⟩, fun h1 : (3 : ℤ) = 1 => absurd h1 (by decide),
    h.count, h.bpm,
    h.octave, h.tone, h.volume⟩, h.size, h.playable, fun p hp x hx ht =>
      ⟨rfl, (h.tied p hp x hx ht).2⟩⟩, h.linked⟩

lemma format_setCell (s : Song) (p : ℕ) (c : Cell) (format : ℤ) :
    { s.setCell p c with format := format } = ({ s with format := format } : Song).setCell p c := by
  unfold Song.setCell Song.setPattern Song.patternAt
  dsimp only
  split_ifs <;> rfl

lemma valid_extend (h : Valid s) (hp : p + 1 < total s) {x : Hit}
    (hx : Playable x) (hdrum : x.drum = 0) (hsounds : Sounds (hits (s.cell p)) x)
    (hsize : (hits (s.cell (p + 1))).length < 8) :
    Valid { s.setCell (p + 1) (some (hits (s.cell (p + 1)) ++ [{ x with tie := true }])) with
      format := 3 } := by
  rw [format_setCell]
  have h3 := valid_format h
  refine valid_setCell h3 hp ?_ ?_ ?_ (keeps_append _ _)
  · simpa [hits] using hsize
  · intro y hy
    rcases mem_append.mp hy with hy | hy
    · exact h.playable _ hp y hy
    · rw [mem_singleton.mp hy]
      exact { hx with }
  · intro y hy ht
    rcases mem_append.mp hy with hy | hy
    · exact ⟨rfl, (h.tied _ hp y hy ht).2, h.linked _ hp y hy ht⟩
    · rw [mem_singleton.mp hy]
      exact ⟨rfl, hdrum, Nat.succ_ne_zero p, hsounds⟩

/-- What stays while held notes are extended. -/
structure Extending (key : ℕ) (fired : Bool) (m m' : Model) : Prop where
  ready : Ready key fired m'
  position : m'.position = m.position
  count : m'.song.pageCount = m.song.pageCount
  page : m'.page = m.page
  step : m'.step = m.step

lemma Ready.captured (h : Ready key fired m) (code : Fin 128) (c : HeldCapture)
    (hc : c.valid = true → Playable c.hit ∧ c.hit.drum = 0) :
    Ready key fired { m with captures := Function.update m.captures code c } := by
  refine { h with captures := fun i hv => ?_ }
  dsimp only at hv ⊢
  by_cases hi : i = code
  · rw [hi, Function.update_self] at hv ⊢
    exact hc hv
  · rw [Function.update_of_ne hi] at hv ⊢
    exact h.captures i hv

lemma extendCapture_spec {from_ : ℤ} (h : Ready key fired m) (hfrom : 0 ≤ from_)
    (hposition : m.position = from_ + 1) (hstep : 0 ≤ m.step) (now : Time) (code : Fin 128) :
    Extending key fired m (m.extendCapture from_ now code) := by
  have hto : m.position.toNat = from_.toNat + 1 := by omega
  have hlt : from_.toNat + 1 < total m.song := by
    rw [← hto]
    exact position_lt h.page ⟨hstep, h.step.2⟩
  have hinvalid := h.captured code ⟨(m.captures code).hit, (m.captures code).position, false⟩
    fun hv => (by cases hv)
  unfold Model.extendCapture
  dsimp only
  by_cases hout : (m.held code).isNone ∨ ¬(m.captures code).valid ∨
      (m.captures code).position ≠ from_
  · rw [if_pos hout]
    exact ⟨hinvalid, rfl, rfl, rfl, rfl⟩
  rw [if_neg hout]
  by_cases hgone : noteIndex (hits (m.song.cell from_.toNat)) (m.captures code).hit = none
  · rw [if_pos hgone]
    exact ⟨hinvalid, rfl, rfl, rfl, rfl⟩
  rw [if_neg hgone]
  have hvalid : (m.captures code).valid = true := by
    by_contra hv
    exact hout (.inr (.inl hv))
  have hhit := h.captures code hvalid
  cases hi : noteIndex (hits (m.song.cell m.position.toNat)) (m.captures code).hit with
  | some i => exact ⟨h.captured code _ fun _ => hhit, rfl, rfl, rfl, rfl⟩
  | none =>
    dsimp only
    split_ifs with hfull
    · exact ⟨hinvalid.message _, rfl, rfl, rfl, rfl⟩
    rw [hto] at hfull ⊢
    have hsong := valid_extend h.song hlt hhit.1 hhit.2 (sounds_iff.mpr hgone)
      (Nat.lt_of_not_le hfull)
    have hready := h.captured code
      ⟨(m.captures code).hit, m.position, (m.captures code).valid⟩ fun _ => hhit
    have hcount : ∀ c : Cell, ({ m.song.setCell (from_.toNat + 1) c with format := 3 } :
        Song).pageCount = m.song.pageCount := fun c => pageCount_setPattern m.song _ _
    refine ⟨Ready.changed { h with song := hsong, page := ?_, captures := hready.captures }, rfl,
      hcount _, rfl, rfl⟩
    rw [hcount]
    exact h.page

lemma extendCaptures_spec {from_ : ℤ} (hfrom : 0 ≤ from_) (codes : List (Fin 128)) :
    ∀ m : Model, Ready key fired m → m.position = from_ + 1 → 0 ≤ m.step →
      Extending key fired m (codes.foldl (Model.extendCapture from_ now) m) := by
  induction codes with
  | nil => exact fun m h _ _ => ⟨h, rfl, rfl, rfl, rfl⟩
  | cons code codes ih =>
    intro m h hposition hstep
    have hone := extendCapture_spec h hfrom hposition hstep now code
    have hrest := ih _ hone.ready (hone.position.trans hposition) (by rw [hone.step]; exact hstep)
    exact ⟨hrest.ready, hrest.position.trans hone.position, hrest.count.trans hone.count,
      hrest.page.trans hone.page, hrest.step.trans hone.step⟩

lemma extendHeld_spec (h : Ready key fired m) (hstep : 0 ≤ m.step) (from_ : ℤ) (now : Time)
    (hfrom : m.position = from_ + 1 → 0 ≤ from_) :
    Extending key fired m (m.extendHeld from_ now) := by
  unfold Model.extendHeld
  split_ifs with hcancel
  · exact ⟨h.cancelTies, rfl, rfl, rfl, rfl⟩
  have hposition : m.position = from_ + 1 := by
    by_contra hne
    exact hcancel (.inr (.inr hne))
  exact extendCaptures_spec (hfrom hposition) _ m h hposition hstep

/-! ### Settings and tempo -/

lemma Ready.resong (h : Ready key fired m) (hs : Valid s)
    (hcount : s.pageCount = m.song.pageCount) :
    Ready key fired { m with song := s } :=
  ⟨hs, by rw [hcount]; exact h.page, h.step, h.stepMode, h.startStep, h.captures, h.pageKey,
    h.pending⟩

lemma valid_settings (h : Valid s) {bpm octave tone volume : ℤ}
    (hbpm : 60 ≤ bpm ∧ bpm ≤ 180) (hoctave : 3 ≤ octave ∧ octave ≤ 6)
    (htone : 0 ≤ tone ∧ tone ≤ 2) (hvolume : 0 ≤ volume ∧ volume ≤ 100) :
    Valid { s with bpm := bpm, octave := octave, tone := tone, volume := volume } :=
  ⟨{ h with toSettings := ⟨h.format, h.single, h.count, hbpm, hoctave, htone, hvolume⟩ },
    h.linked⟩

lemma Ready.selectStep (h : Ready key fired m) (delta : ℤ) (hdelta : delta = 1 ∨ delta = -1) :
    Ready key fired (m.selectStep delta now) := by
  have hsync : ∀ m₁ : Model, Ready key fired m₁ → Ready key fired { m₁ with
      step := if m₁.step < 0 then 0 else (m₁.step + delta + 16).tmod 16
      playing := false, stepMode := true } := by
    intro m₁ h₁
    have hbounds : 0 ≤ (if m₁.step < 0 then 0 else (m₁.step + delta + 16).tmod 16) ∧
        (if m₁.step < 0 then 0 else (m₁.step + delta + 16).tmod 16) < 16 := by
      split_ifs
      · decide
      · exact ⟨Int.tmod_nonneg _ (by omega), Int.tmod_lt_of_pos _ (by decide)⟩
    exact { h₁ with step := ⟨le_trans (by decide) hbounds.1, hbounds.2⟩, stepMode := fun _ =>
      hbounds.1 }
  have hready := hsync _ (h.syncIf now)
  unfold Model.selectStep
  dsimp only
  by_cases hmanual : m.stepMode
  · rw [if_pos hmanual]
    refine (extendHeld_spec hready (hready.stepMode rfl) _ _ fun _ => ?_).ready
    have hstep := h.stepMode hmanual
    have hpage := h.page.1
    unfold Model.position
    omega
  · rw [if_neg hmanual]
    exact hready.cancelTies

lemma Ready.setBPM (h : Ready key fired m) {bpm : ℤ} (hbpm : 60 ≤ bpm ∧ bpm ≤ 180) :
    Ready key fired (m.setBPM bpm now) := by
  have hsong : ∀ m₁ : Model, Ready key fired m₁ →
      Ready key fired { m₁ with song := { m₁.song with bpm := bpm } } :=
    fun m₁ h₁ => h₁.resong
      (valid_settings h₁.song hbpm h₁.song.octave h₁.song.tone h₁.song.volume) rfl
  unfold Model.setBPM
  dsimp only
  split_ifs
  · exact h
  all_goals refine Ready.changed ?_
  · exact ((Ready.startFrom (hsong _ h.sync) _).transported _).ticked _
  · exact (Ready.startFrom (hsong _ h.sync) _).ticked _
  · exact (Ready.startFrom (hsong _ h.sync) _).transported _
  · exact Ready.startFrom (hsong _ h.sync) _
  · exact hsong _ h

/-! ### Recording -/

lemma recordNotes_spec {h : Hit} {notes notes' : List Hit}
    (hrec : Model.recordNotes h notes = some notes') :
    (notes'.length = notes.length ∨ notes'.length = notes.length + 1) ∧
      (∀ x ∈ notes', x = h ∨ x ∈ notes) ∧ Keeps notes notes' := by
  induction notes generalizing notes' with
  | nil =>
    cases hrec
    exact ⟨.inr rfl, fun x hx => .inl (mem_singleton.mp hx), fun _ ⟨_, hn, _⟩ => (by cases hn)⟩
  | cons old notes ih =>
    unfold Model.recordNotes at hrec
    split_ifs at hrec with hold hsame
    · cases hrec
      refine ⟨.inl rfl, fun x hx => ?_, ?_⟩
      · rcases mem_cons.mp hx with hx | hx
        · exact .inl hx
        · exact .inr (mem_cons_of_mem _ hx)
      rintro x ⟨n, hn, hnx⟩
      rcases mem_cons.mp hn with rfl | hn
      · refine ⟨h, mem_cons_self, ?_⟩
        rw [sameNote_iff] at hsame hnx ⊢
        exact ⟨hsame.2.1, hnx.2.1, hsame.2.2.1.symm.trans hnx.2.2.1,
          hsame.2.2.2.symm.trans hnx.2.2.2⟩
      · exact ⟨n, mem_cons_of_mem _ hn, hnx⟩
    · obtain ⟨rest, hrest, rfl⟩ := Option.map_eq_some_iff.mp hrec
      obtain ⟨hlen, hmem, hkeeps⟩ := ih hrest
      refine ⟨by simpa using hlen, fun x hx => ?_, ?_⟩
      · rcases mem_cons.mp hx with rfl | hx
        · exact .inr mem_cons_self
        · exact (hmem x hx).imp id (mem_cons_of_mem _)
      rintro x ⟨n, hn, hnx⟩
      rcases mem_cons.mp hn with rfl | hn
      · exact ⟨n, mem_cons_self, hnx⟩
      · obtain ⟨k, hk, hkx⟩ := hkeeps x ⟨n, hn, hnx⟩
        exact ⟨k, mem_cons_of_mem _ hk, hkx⟩

lemma recordPlace_page (h : Ready key fired m) (now : Time) :
    0 ≤ (m.recordPlace now).1 ∧ (m.recordPlace now).1 < m.song.pageCount := by
  unfold Model.recordPlace
  split_ifs
  · exact h.page
  have hduration := stepDuration_nonneg h
  have helapsed := elapsed_nonneg m now
  have hhalf : 0 ≤ m.stepDuration.tdiv 2 := Int.tdiv_nonneg hduration (by decide)
  exact (page_of_position (positionAt_bounds h
    (Int.tdiv_nonneg (add_nonneg helapsed hhalf) hduration))).1

lemma Ready.record (h : Ready key fired m) {x : Hit} (hx : Playable x) (hattack : x.tie = false) :
    Ready key fired (m.record x now) := by
  have hpage := recordPlace_page h now
  unfold Model.record
  by_cases hrecording : m.recording
  swap
  · rw [if_pos hrecording]
    exact h
  rw [if_neg (not_not_intro hrecording)]
  rcases hplace : m.recordPlace now with ⟨page, step⟩
  rw [hplace] at hpage
  dsimp only at hpage ⊢
  by_cases hstep : step < 0 ∨ 16 ≤ step
  · rw [if_pos hstep]
    exact h
  rw [if_neg hstep]
  have hlt := position_lt hpage (show 0 ≤ step ∧ step < 16 by omega)
  generalize (page * 16 + step).toNat = p at hlt ⊢
  rcases hrec : Model.recordNotes x (hits (m.song.cell p)) with _ | notes'
  · exact h
  dsimp only
  obtain ⟨hlen, hmem, hkeeps⟩ := recordNotes_spec hrec
  split_ifs with hfull
  · exact h.message _
  have hsize := h.song.size p hlt
  refine Ready.changed (h.resong (valid_setCell h.song hlt ?_ (fun y hy => ?_) (fun y hy ht => ?_)
    hkeeps) (pageCount_setPattern _ _ _))
  · show notes'.length ≤ 8
    omega
  · rcases hmem y hy with rfl | hy
    · exact hx
    · exact h.song.playable p hlt y hy
  rcases hmem y hy with rfl | hy
  · rw [hattack] at ht
    cases ht
  · exact ⟨(h.song.tied p hlt y hy ht).1, (h.song.tied p hlt y hy ht).2,
      h.song.linked p hlt y hy ht⟩

/-! ### Pages -/

lemma patternAt_insertBlank (s : Song) (hi : i ≤ s.pageCount) (j : ℕ) :
    (Model.insertBlank s i).patternAt j =
      if j < i then s.patternAt j else if j = i then blankPage else s.patternAt (j - 1) := by
  unfold Song.pageCount at hi
  unfold Model.insertBlank Song.patternAt
  rcases Nat.eq_zero_or_pos i with rfl | hpos
  · rcases j with _ | _ | j <;> simp
  rcases j with _ | j
  · simp [hpos.ne', hpos]
  simp only [hpos.ne', if_false, Nat.add_eq_zero_iff, one_ne_zero, and_false,
    Nat.add_sub_cancel, getD_eq_getElem?_getD]
  rw [getElem?_insertIdx]
  split_ifs <;> first | rfl | omega

lemma pageCount_insertBlank (s : Song) (hi : i ≤ s.pageCount) :
    (Model.insertBlank s i).pageCount = s.pageCount + 1 := by
  unfold Song.pageCount at hi
  unfold Model.insertBlank Song.pageCount
  split_ifs
  · simp only [length_cons]
    omega
  · simp only [length_insertIdx_of_le_length (show i - 1 ≤ s.pages.length by omega)]
    omega

lemma cell_insertBlank (s : Song) (hi : i ≤ s.pageCount)
    (hp : p < total (Model.insertBlank s i)) : (Model.insertBlank s i).cell p = none ∨
      ∃ q < total s, (Model.insertBlank s i).cell p = s.cell q := by
  unfold total at hp ⊢
  rw [pageCount_insertBlank s hi] at hp
  unfold Song.cell
  rw [patternAt_insertBlank s hi]
  split_ifs with hbefore hblank
  · exact .inr ⟨p, by omega, rfl⟩
  · exact .inl rfl
  have hpage : (p - 16) / 16 = p / 16 - 1 := by omega
  have hstep : (p - 16) % 16 = p % 16 := by omega
  refine .inr ⟨p - 16, by omega, ?_⟩
  rw [hpage]
  exact congrArg _ (Fin.ext hstep.symm)

lemma loose_insertBlank (h : Valid s) (hi : i ≤ s.pageCount)
    (hcount : s.pageCount < maxPages) :
    Loose { Model.insertBlank s i with format := max 2 (Model.insertBlank s i).format } := by
  have hformat : (Model.insertBlank s i).format = s.format := by
    unfold Model.insertBlank
    split_ifs <;> rfl
  have hframe : (Model.insertBlank s i).bpm = s.bpm ∧ (Model.insertBlank s i).octave = s.octave ∧
      (Model.insertBlank s i).tone = s.tone ∧ (Model.insertBlank s i).volume = s.volume := by
    unfold Model.insertBlank
    split_ifs <;> exact ⟨rfl, rfl, rfl, rfl⟩
  obtain ⟨hbpm, hoctave, htone, hvolume⟩ := hframe
  have hlow := h.format
  rw [hformat]
  have hset : Settings { Model.insertBlank s i with format := max 2 s.format } := by
    refine ⟨⟨?_, ?_⟩, fun hone => ?_, ?_, ?_, ?_, ?_, ?_⟩
    · show 1 ≤ max 2 s.format
      omega
    · show max 2 s.format ≤ 3
      omega
    · have hone : max 2 s.format = 1 := hone
      omega
    · show (Model.insertBlank s i).pageCount ≤ maxPages
      rw [pageCount_insertBlank s hi]
      exact hcount
    · exact hbpm ▸ h.bpm
    · exact hoctave ▸ h.octave
    · exact htone ▸ h.tone
    · exact hvolume ▸ h.volume
  refine ⟨hset, fun p hp => ?_, fun p hp x hx => ?_, fun p hp x hx ht => ?_⟩
  · show (hits ((Model.insertBlank s i).cell p)).length ≤ 8
    rcases cell_insertBlank s hi hp with hc | ⟨q, hq, hc⟩
    · rw [hc]
      exact Nat.zero_le 8
    · rw [hc]
      exact h.size q hq
  · have hx : x ∈ hits ((Model.insertBlank s i).cell p) := hx
    rcases cell_insertBlank s hi hp with hc | ⟨q, hq, hc⟩
    · rw [hc] at hx
      cases hx
    · rw [hc] at hx
      exact h.playable q hq x hx
  · have hx : x ∈ hits ((Model.insertBlank s i).cell p) := hx
    rcases cell_insertBlank s hi hp with hc | ⟨q, hq, hc⟩
    · rw [hc] at hx
      cases hx
    rw [hc] at hx
    obtain ⟨h3, hdrum⟩ := h.tied q hq x hx ht
    refine ⟨?_, hdrum⟩
    show max 2 s.format = 3
    omega

lemma Ready.paged (h : Ready key fired m) (page : ℤ)
    (hpage : 0 ≤ page ∧ page < m.song.pageCount) :
    Ready key fired { m with page := page, step := 0 } :=
  ⟨h.song, hpage, ⟨show (-1 : ℤ) ≤ 0 by decide, show (0 : ℤ) < 16 by decide⟩,
    fun _ => Int.le_refl 0, h.startStep, h.captures, h.pageKey, h.pending⟩

lemma Ready.unclear (h : Ready key fired m) : Ready key fired { m with clearUntil := 0 } :=
  { h with }

lemma Ready.paused (h : Ready key fired m) (hstep : 0 ≤ m.step) :
    Ready key fired { m with playing := false, stepMode := true } :=
  { h with stepMode := fun _ => hstep }

lemma Ready.confirm (h : Ready key fired m) (until_ : Time) (page : ℤ) :
    Ready key fired { m with clearPage := page, clearUntil := until_ } :=
  { h with }

lemma Ready.savePending (h :
    Ready key fired m) : Ready key fired { m with pageSavePending := true } :=
  { h with }

lemma Ready.changePage (h : Ready key fired m) (delta : ℤ) (hdelta : delta = 1 ∨ delta = -1) :
    Ready key fired (m.changePage delta now) := by
  have hpage := h.page
  have hstep := h.step
  unfold Model.changePage
  dsimp only
  by_cases hedge : m.page + delta < 0 ∨ (m.song.pageCount : ℤ) ≤ m.page + delta
  · rw [if_pos hedge]
    exact h.message _
  rw [if_neg hedge]
  have hnext := h.paged (m.page + delta) (by omega)
  have hextended : Ready key fired
      ({ m with page := m.page + delta, step := 0 }.extendHeld m.position now) := by
    refine (extendHeld_spec hnext (Int.le_refl 0) _ _ fun hposition => ?_).ready
    unfold Model.position at hposition ⊢
    dsimp only at hposition
    omega
  exact hextended.unclear.savePending.message _

lemma Ready.insertPage (h :
    Ready key fired m) (delta : ℤ) : Ready key fired (m.insertPage delta now) := by
  have hpage := h.page
  have hstep := h.step
  unfold Model.insertPage
  by_cases hlimit : maxPages ≤ m.song.pageCount
  · rw [if_pos hlimit]
    exact h.message _
  rw [if_neg hlimit]
  dsimp only
  generalize hindex : (if 0 < delta then m.page + 1 else m.page) = index
  have hrange : 0 ≤ index ∧ index ≤ m.song.pageCount := by
    rw [← hindex]
    split_ifs <;> omega
  have hi : index.toNat ≤ m.song.pageCount := by omega
  obtain ⟨hsong, hcount⟩ := valid_repairTies
    (loose_insertBlank h.song hi (Nat.lt_of_not_le hlimit))
  have hmore := pageCount_insertBlank m.song hi
  generalize hs : Song.repairTies { Model.insertBlank m.song index.toNat with
    format := max 2 (Model.insertBlank m.song index.toNat).format } = s at hsong hcount
  have hcount : s.pageCount = m.song.pageCount + 1 := hcount.trans hmore
  have hnew : Ready key fired { m with song := s, page := index, step := 0 } :=
    ⟨hsong, by dsimp only; omega, ⟨show (-1 : ℤ) ≤ 0 by decide, show (0 : ℤ) < 16 by decide⟩,
      fun _ => Int.le_refl 0, h.startStep, h.captures, h.pageKey, h.pending⟩
  generalize hm₁ : (if 0 < delta then
      { m with song := s, page := index, step := 0 }.extendHeld m.position now
    else { m with song := s, page := index, step := 0 }.cancelTies) = m₁
  have hextended : Ready key fired m₁ ∧ m₁.step = 0 := by
    rw [← hm₁]
    split_ifs with hdelta
    · rw [if_pos hdelta] at hindex
      have hextending := extendHeld_spec hnew (Int.le_refl 0) m.position now <| by
        intro hposition
        unfold Model.position at hposition ⊢
        dsimp only at hposition
        omega
      exact ⟨hextending.ready, hextending.step⟩
    · exact ⟨hnew.cancelTies, rfl⟩
  exact (hextended.1.paused hextended.2.ge).unclear.changed.savePending.message _

lemma Ready.movePage (h : Ready key fired m) {move : Model.PageMove}
    (hdelta : ∀ delta, move = .change delta → delta = 1 ∨ delta = -1) :
    Ready key fired (m.movePage move now) := by
  cases move with
  | change delta => exact h.changePage delta (hdelta delta rfl)
  | insert delta => exact h.insertPage delta

/-! ### Clearing -/

lemma valid_cleared (h : Valid s) :
    Valid { s with pattern := blankPage, pages := [], format := 1 } := by
  have hcell : ∀ p, hits (({ s with pattern := blankPage, pages := [], format := 1 } :
      Song).cell p) = [] := by
    intro p
    unfold Song.cell Song.patternAt
    split_ifs <;> rfl
  refine ⟨⟨⟨⟨Int.le_refl 1, show (1 : ℤ) ≤ 3 by decide⟩, fun _ => rfl, show 1 ≤ maxPages by decide,
    h.bpm, h.octave, h.tone, h.volume⟩, fun p _ => ?_, fun p _ x hx => ?_, fun p _ x hx => ?_⟩,
    fun p _ x hx => ?_⟩
  · rw [hcell]
    exact Nat.zero_le 8
  all_goals
    rw [hcell] at hx
    cases hx

lemma Ready.clearProject (h : Ready key fired m) : Ready key fired (m.clearProject now).1 := by
  have hcleared : Ready key fired { m with
      song := { m.song with pattern := blankPage, pages := [], format := 1 }, page := 0 } :=
    { h with song := valid_cleared h.song, page := ⟨Int.le_refl 0, show (0 : ℤ) < 1 by decide⟩ }
  exact (hcleared.stop.confirm 0 (-1)).changed.savePending.message _

lemma valid_clearCell (h : Valid s) (hp : p < total s) :
    Valid (s.setCell p none).repairTies ∧
      (s.setCell p none).repairTies.pageCount = s.pageCount := by
  obtain ⟨hvalid, hcount⟩ := valid_repairTies (loose_setCell h.toLoose hp (c := none)
    (Nat.zero_le 8) (fun x hx => (by cases hx)) fun x hx => (by cases hx))
  exact ⟨hvalid, hcount.trans (pageCount_setPattern s _ _)⟩

lemma Ready.delete (h : Ready key fired m) : Ready key fired (m.delete now).1 := by
  have hm := h.cancelTies.syncIf now
  unfold Model.delete
  dsimp only
  generalize (if m.cancelTies.playing = true then m.cancelTies.syncPosition now
    else m.cancelTies) = m₁ at hm ⊢
  by_cases hcell : m₁.stepMode ∧ 0 ≤ m₁.step ∧ m₁.step < 16
  · rw [if_pos hcell]
    split_ifs
    · exact hm.clearProject
    · exact (hm.message _).confirm _ _
    obtain ⟨hvalid, hcount⟩ := valid_clearCell hm.song
      (position_lt hm.page ⟨hcell.2.1, hcell.2.2⟩)
    exact ((hm.resong hvalid hcount).changed.message _).confirm _ _
  · rw [if_neg hcell]
    split_ifs
    · exact hm.clearProject
    · exact (hm.confirm _ _).message _

end C1auncher.Pinao.SongInvariant
