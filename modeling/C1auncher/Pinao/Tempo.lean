import C1auncher.Pinao.Clock

/-!
A change of the tempo goes on in the cell that sounds: no cell is played twice, none is left out
that a tick was in time for, and a tie that would have gone on still does.
-/

namespace C1auncher.Pinao.Tempo

open Pinao.Song Pinao.Sequencer Pinao.Edits List Model
open Pinao.SongInvariant Pinao.KeyInvariant Pinao.Clock

variable {m m' : Model} {now t : ℤ}

structure Playing (t : ℤ) (m : Model) : Prop where
  ready : ∃ key fired, Ready key fired m
  playing : m.playing = true
  running : Running t m

namespace Playing

lemma bpm (h : Playing t m) : 60 ≤ m.song.bpm ∧ m.song.bpm ≤ 180 := by
  obtain ⟨_, _, hready⟩ := h.ready
  exact hready.song.bpm

lemma later (h : Playing t m) (hle : t ≤ now) : Playing now m :=
  have hkept : Kept t m := fun _ => h.running
  ⟨h.ready, h.playing, hkept.later h.bpm hle h.playing⟩

lemma duration_pos (h : Playing t m) : 0 < m.stepDuration := stepDuration_pos h.bpm

lemma startStep_nonneg (h : Playing t m) : 0 ≤ m.startStep := by
  obtain ⟨_, _, hready⟩ := h.ready
  exact hready.startStep

lemma clockTick_nonneg (h : Playing t m) (now : ℤ) : 0 ≤ m.clockTick now := by
  obtain ⟨_, _, hready⟩ := h.ready
  exact SongInvariant.clockTick_nonneg hready now

end Playing

/-! ### Ticks -/

/-- What a tick leaves as it was, and what it plays up to. -/
structure Ticked (m m' : Model) (last : ℤ) (transport : LoopTransport) : Prop where
  playing : m'.playing = m.playing
  song : m'.song = m.song
  started : m'.started = m.started
  startStep : m'.startStep = m.startStep
  lastTick : m'.lastTick = last
  transport : m'.transport = transport

lemma sparkHits_eq (now : ℤ) (notes : List Hit) : ∀ m : Model,
    notes.foldl (Model.sparkHit now) m =
      { m with sparks := (notes.foldl (Model.sparkHit now) m).sparks } := by
  induction notes with
  | nil => exact fun m => rfl
  | cons h notes ih =>
    intro m
    have hone : sparkHit now m h = { m with sparks := (sparkHit now m h).sparks } := by
      unfold sparkHit
      split_ifs <;> rfl
    rw [foldl_cons, ih, hone]

def cellCommands (m : Model) (position : ℤ) (contiguous : Bool) :
    LoopTransport × List SoundCommand :=
  m.transport.commands (hits (m.song.cell position.toNat)) position contiguous

/-- The older sparks are gone. -/
def faded (m : Model) (now : ℤ) : Model :=
  { m with sparks := m.sparks.filter fun s => decide (now - s.time < keyFeedbackDuration) }

def selected (m : Model) (now : ℤ) : Model :=
  { faded m now with lastTick := m.clockTick now }.syncPosition now

lemma tick_eq (h : Playing t m) : m.tick now =
    if m.clockTick now ≤ m.lastTick then (faded m now, [])
    else ((hits (m.song.cell (selected m now).position.toNat)).foldl (Model.sparkHit now)
        { selected m now with
          transport := (cellCommands m (selected m now).position
            (decide (m.clockTick now = m.lastTick + 1))).1 },
      (cellCommands m (selected m now).position
        (decide (m.clockTick now = m.lastTick + 1))).2) := by
  unfold tick
  rw [checkPageHold_eq h.running.quiet]
  dsimp only
  rw [if_neg (by rw [h.playing]; decide)]
  rfl

lemma position_selected (m : Model) (now : ℤ) :
    (selected m now).position = m.clockPosition now := by
  change (m.clockPosition now).tdiv 16 * 16 + (m.clockPosition now).tmod 16 = m.clockPosition now
  rw [mul_comm]
  exact Int.mul_tdiv_add_tmod ..

lemma tick_none (h : Playing t m) (hlast : m.clockTick now ≤ m.lastTick) :
    (m.tick now).2 = [] ∧ Ticked m (m.tick now).1 m.lastTick m.transport := by
  rw [tick_eq h, if_pos hlast]
  exact ⟨rfl, rfl, rfl, rfl, rfl, rfl, rfl⟩

lemma tick_some (h : Playing t m) (hlast : m.lastTick < m.clockTick now) :
    (m.tick now).2 =
        (cellCommands m (m.clockPosition now) (decide (m.clockTick now = m.lastTick + 1))).2 ∧
      Ticked m (m.tick now).1 (m.clockTick now)
        (cellCommands m (m.clockPosition now) (decide (m.clockTick now = m.lastTick + 1))).1 := by
  rw [tick_eq h, if_neg (not_le.mpr hlast), position_selected, sparkHits_eq]
  exact ⟨rfl, rfl, rfl, rfl, rfl, rfl, rfl⟩

lemma Ticked.clock {last : ℤ} {transport : LoopTransport} (h : Ticked m m' last transport) :
    m'.stepDuration = m.stepDuration ∧ (∀ t, age m' t = age m t) ∧
      (∀ t, m'.clockTick t = m.clockTick t) ∧ ∀ n, m'.positionAt n = m.positionAt n := by
  have hduration : m'.stepDuration = m.stepDuration := by
    unfold stepDuration
    rw [h.song]
  refine ⟨hduration, fun t => ?_, fun t => ?_, fun n => ?_⟩
  · unfold age
    rw [h.started]
  · unfold clockTick elapsed
    rw [h.started, hduration]
  · unfold Model.positionAt Model.total
    rw [h.song, h.startStep]

lemma Playing.tick (h : Playing t m) (hle : t ≤ now) : Playing now (m.tick now).1 := by
  obtain ⟨key, fired, hready⟩ := h.ready
  obtain ⟨fired', hready', -⟩ := ready_tick hready now
  have hplaying : (m.tick now).1.playing = true := by
    rcases le_or_gt (m.clockTick now) m.lastTick with hlast | hlast
    · rw [(tick_none h hlast).2.playing, h.playing]
    · rw [(tick_some h hlast).2.playing, h.playing]
  exact ⟨⟨key, fired', hready'⟩, hplaying, kept_tick hready (fun _ => h.running) hle hplaying⟩

/-! ### Changes of the tempo -/

lemma Playing.changed (h : Playing t m) {bpm : ℤ} (hbpm : 60 ≤ bpm ∧ bpm ≤ 180)
    (hne : bpm ≠ m.song.bpm) (now : ℤ) : Changed m (m.setBPM bpm now) bpm now := by
  obtain ⟨_, _, hready⟩ := h.ready
  exact setBPM_changed hready h.playing hbpm hne now

lemma setBPM_same (m : Model) (now : ℤ) : m.setBPM m.song.bpm now = m := if_pos rfl

lemma Playing.setBPM (h : Playing t m) (hle : t ≤ now) {bpm : ℤ} (hbpm : 60 ≤ bpm ∧ bpm ≤ 180) :
    Playing now (m.setBPM bpm now) := by
  by_cases hne : bpm = m.song.bpm
  · rw [hne, setBPM_same]
    exact h.later hle
  obtain ⟨key, fired, hready⟩ := h.ready
  have hplaying := (h.changed hbpm hne now).playing
  exact ⟨⟨key, fired, hready.setBPM hbpm⟩, hplaying,
    kept_setBPM hready (fun _ => h.running) hle hbpm hplaying⟩

lemma positionAt_eq (h : 0 ≤ m.startStep) {n : ℤ} (hn : 0 ≤ n) :
    m.positionAt n = (m.startStep + n) % m.total := by
  have hmod := Int.emod_nonneg n (total_pos m).ne'
  unfold Model.positionAt
  rw [Int.tmod_eq_emod_of_nonneg hn, Int.tmod_eq_emod_of_nonneg (by omega), Int.add_emod_emod]

lemma positionAt_changed (h : Playing t m) {bpm : ℤ} (hbpm : 60 ≤ bpm ∧ bpm ≤ 180)
    (hne : bpm ≠ m.song.bpm) (now : ℤ) {n : ℤ} (hn : 0 ≤ n) :
    (m.setBPM bpm now).positionAt n = m.positionAt (m.clockTick now + n) := by
  have hchanged := h.changed hbpm hne now
  have htick := h.clockTick_nonneg now
  have hstart := h.startStep_nonneg
  have htotal : (m.setBPM bpm now).total = m.total := by
    unfold Model.total
    rw [hchanged.song]
    rfl
  have hfirst : (m.setBPM bpm now).startStep = (m.startStep + m.clockTick now) % m.total := by
    rw [hchanged.startStep]
    exact positionAt_eq hstart htick
  have hfirst_nonneg := Int.emod_nonneg (m.startStep + m.clockTick now) (total_pos m).ne'
  rw [positionAt_eq (by rw [hfirst]; exact hfirst_nonneg) hn, hfirst, htotal, Int.emod_add_emod,
    positionAt_eq hstart (by omega), add_assoc]

/-! ### One state -/

/-- What holds of a state in which it plays, whatever comes next. -/
structure Steady (t : ℤ) (m : Model) : Prop where
  /-- The cell that sounds stays. -/
  cell : ∀ bpm now : ℤ, 60 ≤ bpm ∧ bpm ≤ 180 → t ≤ now →
    (m.setBPM bpm now).playing = true ∧
      (m.setBPM bpm now).clockPosition now = m.clockPosition now
  /-- So does the part of it that has gone by, rounded down. -/
  fraction : ∀ bpm now : ℤ, 60 ≤ bpm ∧ bpm ≤ 180 → t ≤ now → bpm ≠ m.song.bpm →
    (m.setBPM bpm now).elapsed now =
        m.elapsed now % m.stepDuration * (m.setBPM bpm now).stepDuration / m.stepDuration ∧
      (m.setBPM bpm now).elapsed now < (m.setBPM bpm now).stepDuration
  /-- A tick plays nothing, or the cell of the clock. -/
  single : ∀ now : ℤ, t ≤ now → (m.tick now).2 = [] ∨
    (m.tick now).2 =
      (cellCommands m (m.clockPosition now) (decide (m.clockTick now = m.lastTick + 1))).2
  /-- The next cell, where none was missed, has the same commands as without the change. -/
  tie : ∀ bpm now t₁ t₂ : ℤ, 60 ≤ bpm ∧ bpm ≤ 180 → t ≤ now → t ≤ t₁ → now ≤ t₂ →
    m.clockTick now ≤ m.lastTick + 1 → m.clockTick t₁ = m.lastTick + 1 →
    (m.setBPM bpm now).clockTick t₂ = (m.setBPM bpm now).lastTick + 1 →
    ((m.setBPM bpm now).tick t₂).2 = (m.tick t₁).2

lemma stepDuration_changed {bpm : ℤ} (h : Changed m m' bpm now) : m'.stepDuration =
    ({ m with song := { m.song with bpm := bpm } } : Model).stepDuration := by
  unfold stepDuration
  rw [h.song]

lemma cellCommands_changed {bpm : ℤ} (h : Changed m m' bpm now)
    (hdue : m.clockTick now ≤ m.lastTick + 1) (position : ℤ) (contiguous : Bool) :
    cellCommands m' position contiguous = cellCommands m position contiguous := by
  unfold cellCommands
  rw [h.transport hdue, h.song]
  rfl

theorem Playing.steady (h : Playing t m) : Steady t m := by
  refine ⟨fun bpm now hbpm hle => ?_, fun bpm now hbpm hle hne => ?_, fun now hle => ?_,
    fun bpm now t₁ t₂ hbpm hle hle₁ hle₂ hdue h₁ h₂ => ?_⟩
  · refine ⟨(h.setBPM hle hbpm).playing, ?_⟩
    by_cases hne : bpm = m.song.bpm
    · rw [hne, setBPM_same]
    have htick := (h.changed hbpm hne now).clockTick h.bpm hbpm
    unfold clockPosition
    rw [htick, positionAt_changed h hbpm hne now le_rfl, add_zero]
  · have hchanged := h.changed hbpm hne now
    obtain ⟨hlow, hhigh⟩ : 0 ≤ phase m bpm now ∧ phase m bpm now < _ := phase_lt h.bpm hbpm
    have helapsed : (m.setBPM bpm now).elapsed now = phase m bpm now := by
      rw [elapsed_eq (by rw [hchanged.age]; exact hlow), hchanged.age]
    rw [helapsed, stepDuration_changed hchanged]
    exact ⟨rfl, hhigh⟩
  · rcases le_or_gt (m.clockTick now) m.lastTick with hlast | hlast
    · exact .inl (tick_none h hlast).1
    · exact .inr (tick_some h hlast).1
  · have hnew := h.setBPM hle hbpm
    rw [(tick_some h (by omega)).1, (tick_some hnew (by omega)).1, h₁, h₂]
    by_cases hne : bpm = m.song.bpm
    · rw [hne, setBPM_same] at h₂ ⊢
      rw [clockPosition, clockPosition, h₁, h₂]
    have hchanged := h.changed hbpm hne now
    have hnext : (m.setBPM bpm now).positionAt ((m.setBPM bpm now).lastTick + 1) =
        m.positionAt (m.lastTick + 1) := by
      have hlow := h.running.reached
      have hmono := clockTick_mono h.bpm hle
      rw [hchanged.lastTick]
      split_ifs with hplayed
      · rw [positionAt_changed h hbpm hne now (by decide)]
        congr 1
        omega
      rw [positionAt_changed h hbpm hne now (by decide)]
      congr 1
      omega
    rw [clockPosition, clockPosition, h₁, h₂, hnext, cellCommands_changed hchanged hdue]
    simp


/-! ### Runs -/

inductive Turn
  | setBPM (bpm now : ℤ)
  | tick (now : ℤ)
  deriving DecidableEq

namespace Turn

def run (m : Model) : Turn → Model
  | setBPM bpm now => m.setBPM bpm now
  | tick now => (m.tick now).1

def time : Turn → ℤ
  | setBPM _ now => now
  | tick now => now

def inRange : Turn → Prop
  | setBPM bpm _ => 60 ≤ bpm ∧ bpm ≤ 180
  | tick _ => True

/-- How many cells the clock of a state is ahead of the one it began with. -/
def base (base : ℤ) (m : Model) : Turn → ℤ
  | setBPM bpm now => if bpm = m.song.bpm then base else base + m.clockTick now
  | tick _ => base

/-- The cell that a turn plays: its number, counted on from the first clock, and where it is. -/
def plays (base : ℤ) (m : Model) : Turn → List (ℤ × ℤ)
  | setBPM _ _ => []
  | tick now =>
    if m.clockTick now ≤ m.lastTick then [] else [(base + m.clockTick now, m.clockPosition now)]

end Turn

def Timed : ℤ → List Turn → Prop
  | _, [] => True
  | t, x :: turns => t ≤ x.time ∧ x.inRange ∧ Timed x.time turns

def after (m : Model) (turns : List Turn) : Model := turns.foldl Turn.run m

def lastTurn (t : ℤ) (turns : List Turn) : ℤ := turns.foldl (fun _ x => x.time) t

def played : ℤ → Model → List Turn → List (ℤ × ℤ)
  | _, _, [] => []
  | base, m, x :: turns => x.plays base m ++ played (x.base base m) (x.run m) turns

lemma Playing.run (h : Playing t m) {x : Turn} (hle : t ≤ x.time) (hx : x.inRange) :
    Playing x.time (x.run m) := by
  cases x with
  | setBPM bpm now => exact h.setBPM hle hx
  | tick now => exact h.tick hle

lemma playing_after (turns : List Turn) : ∀ {t : ℤ} {m : Model}, Playing t m → Timed t turns →
    Playing (lastTurn t turns) (after m turns) := by
  induction turns with
  | nil => exact fun h _ => h
  | cons x turns ih => exact fun h ht => ih (h.run ht.1 ht.2.1) ht.2.2

/-- What a turn does to the count: nothing that was played is ahead of it, and it names the same
cells. -/
structure Counts (base base' : ℤ) (m m' : Model) (x : Turn) : Prop where
  last : base + m.lastTick ≤ base' + m'.lastTick
  plays : ∀ n ∈ x.plays base m, base + m.lastTick < n.1 ∧ n.1 = base' + m'.lastTick ∧
    n.2 = m.positionAt (n.1 - base)
  ahead : 0 ≤ base' - base
  names : ∀ n : ℤ, 0 ≤ n → m'.positionAt n = m.positionAt (base' - base + n)

lemma counts_run (h : Playing t m) {x : Turn} (hle : t ≤ x.time) (hx : x.inRange) (base : ℤ) :
    Counts base (x.base base m) m (x.run m) x := by
  cases x with
  | tick now =>
    have hbase : (Turn.tick now).base base m = base := rfl
    rw [hbase]
    rcases le_or_gt (m.clockTick now) m.lastTick with hlast | hlast
    · have hticked := (tick_none h hlast).2
      refine ⟨?_, ?_, by omega, fun n _ => ?_⟩
      · exact (congrArg (base + ·) hticked.lastTick).ge
      · simp [Turn.plays, hlast]
      · rw [sub_self, zero_add]
        exact hticked.clock.2.2.2 n
    · have hticked := (tick_some h hlast).2
      refine ⟨?_, ?_, by omega, fun n _ => ?_⟩
      · have : ((Turn.tick now).run m).lastTick = m.clockTick now := hticked.lastTick
        omega
      · intro n hn
        rw [Turn.plays, if_neg (not_le.mpr hlast), mem_singleton] at hn
        obtain rfl := hn
        refine ⟨by dsimp only; omega, congrArg (base + ·) hticked.lastTick.symm, ?_⟩
        dsimp only
        rw [add_sub_cancel_left]
        rfl
      · rw [sub_self, zero_add]
        exact hticked.clock.2.2.2 n
  | setBPM bpm now =>
    by_cases hne : bpm = m.song.bpm
    · have hrun : (Turn.setBPM bpm now).run m = m := by
        rw [Turn.run, hne, setBPM_same]
      have hbase : (Turn.setBPM bpm now).base base m = base := if_pos hne
      rw [hrun, hbase]
      exact ⟨le_rfl, nofun, by omega, fun n _ => by rw [sub_self, zero_add]⟩
    · have hchanged := h.changed hx hne now
      have hbase : (Turn.setBPM bpm now).base base m = base + m.clockTick now := if_neg hne
      have hmono := clockTick_mono h.bpm hle
      have hreached := h.running.reached
      have htick := h.clockTick_nonneg now
      have hlastTick : ((Turn.setBPM bpm now).run m).lastTick = _ := hchanged.lastTick
      rw [hbase]
      refine ⟨?_, nofun, by omega, fun n hn => ?_⟩
      · rw [hlastTick]
        dsimp only [Turn.time] at hmono
        split_ifs <;> omega
      · rw [add_sub_cancel_left]
        exact positionAt_changed h hx hne now hn

lemma played_spec (turns : List Turn) : ∀ {t base : ℤ} {m : Model}, Playing t m →
    Timed t turns → ((played base m turns).map Prod.fst).Pairwise (· < ·) ∧
      ∀ n ∈ played base m turns, base + m.lastTick < n.1 ∧ n.2 = m.positionAt (n.1 - base) := by
  induction turns with
  | nil => exact fun _ _ => ⟨.nil, nofun⟩
  | cons x turns ih =>
    intro t base m h ht
    have hcounts := counts_run h ht.1 ht.2.1 base
    obtain ⟨hup, hrest⟩ := @ih _ (x.base base m) _ (h.run ht.1 ht.2.1) ht.2.2
    have hlater : ∀ n ∈ played (x.base base m) (x.run m) turns,
        base + m.lastTick < n.1 ∧ n.2 = m.positionAt (n.1 - base) := by
      intro n hn
      obtain ⟨hlt, hcell⟩ := hrest n hn
      have hlow := (h.run ht.1 ht.2.1).running.low
      have hlast := hcounts.last
      refine ⟨by omega, ?_⟩
      rw [hcell, hcounts.names _ (by omega)]
      congr 1
      omega
    rw [played]
    refine ⟨?_, fun n hn => ?_⟩
    · rw [map_append, pairwise_append]
      refine ⟨?_, hup, ?_⟩
      · cases x with
        | setBPM bpm now => exact .nil
        | tick now =>
          rw [Turn.plays]
          split
          · exact .nil
          · exact pairwise_singleton ..
      · intro a ha b hb
        obtain ⟨n, hn, rfl⟩ := mem_map.mp ha
        obtain ⟨k, hk, rfl⟩ := mem_map.mp hb
        have hlt := (hrest k hk).1
        have hlast := (hcounts.plays n hn).2.1
        omega
    · rcases mem_append.mp hn with hn | hn
      · obtain ⟨hlt, -, hcell⟩ := hcounts.plays n hn
        exact ⟨hlt, hcell⟩
      · exact hlater n hn

lemma total_le (h : 0 ≤ m.startStep) {n k : ℤ} (hn : 0 ≤ n) (hlt : n < k)
    (hsame : m.positionAt n = m.positionAt k) : m.total ≤ k - n := by
  rw [positionAt_eq h hn, positionAt_eq h (by omega)] at hsame
  have hdvd : m.total ∣ m.startStep + k - (m.startStep + n) := Int.ModEq.dvd hsame
  have hdiff : m.startStep + k - (m.startStep + n) = k - n := by omega
  rw [hdiff] at hdvd
  exact Int.le_of_dvd (by omega) hdvd

/-! ### No cell is left out -/

/-- Every tick comes at most a step after the one before it, by every tempo in between; `last` is
the time of the newest tick and `step` the least step since. -/
def Prompt : ℤ → ℤ → Model → List Turn → Prop
  | _, _, _, [] => True
  | last, step, m, .setBPM bpm now :: turns =>
    Prompt last (min step (m.setBPM bpm now).stepDuration) (m.setBPM bpm now) turns
  | last, step, m, .tick now :: turns =>
    now - last ≤ step ∧ Prompt now m.stepDuration (m.tick now).1 turns

/-- What has gone by of the cells behind the last one that was played, in steps. -/
def progress (m : Model) (t : ℤ) : ℚ := (age m t : ℚ) / m.stepDuration - m.lastTick

/-- The clock is less than a cell ahead of the last tick, and has gone on no faster since then than
with the least step. -/
structure Timely (last step t : ℤ) (m : Model) : Prop where
  pos : 0 < step
  le : step ≤ m.stepDuration
  past : last ≤ t
  behind : progress m t < 1 + (t - last : ℚ) / step

lemma Timely.later {last step : ℤ} (h : Timely last step t m) (hle : t ≤ now) :
    Timely last step now m := by
  refine ⟨h.pos, h.le, h.past.trans hle, ?_⟩
  have hstep : (0 : ℚ) < step := by exact_mod_cast h.pos
  have hduration : (step : ℚ) ≤ m.stepDuration := by exact_mod_cast h.le
  have hpassed : (0 : ℚ) ≤ now - t := by
    have : (t : ℚ) ≤ now := by exact_mod_cast hle
    linarith
  have hage : (age m now : ℚ) = age m t + (now - t) := by
    unfold age
    push_cast
    ring
  have hfast : (now - t : ℚ) / m.stepDuration ≤ (now - t) / step := by gcongr
  have hbefore := h.behind
  unfold progress at hbefore ⊢
  rw [hage, add_div]
  have hsplit : (now - last : ℚ) / step = (t - last) / step + (now - t) / step := by ring
  rw [hsplit]
  linarith

lemma progress_changed (h : Playing t m) (hle : t ≤ now) {bpm : ℤ} (hbpm : 60 ≤ bpm ∧ bpm ≤ 180)
    (hne : bpm ≠ m.song.bpm) : progress (m.setBPM bpm now) now ≤ progress m now := by
  have hchanged := h.changed hbpm hne now
  have hlater := h.later hle
  have hold := h.duration_pos
  have hnew := (h.setBPM hle hbpm).duration_pos
  have hage := hlater.running.started
  have hreached := hlater.running.reached
  have htick := clockTick_eq hage
  have holdQ : (0 : ℚ) < m.stepDuration := by exact_mod_cast hold
  have hnewQ : (0 : ℚ) < (m.setBPM bpm now).stepDuration := by exact_mod_cast hnew
  -- the rest of the cell, in the two tempos
  have hrest : (age (m.setBPM bpm now) now : ℚ) / (m.setBPM bpm now).stepDuration ≤
      (age m now % m.stepDuration : ℤ) / m.stepDuration := by
    rw [hchanged.age, div_le_div_iff₀ hnewQ holdQ]
    unfold phase
    rw [elapsed_eq hage, ← stepDuration_changed hchanged]
    exact_mod_cast Int.ediv_mul_le _ hold.ne'
  have hsplit : (age m now : ℚ) / m.stepDuration =
      m.clockTick now + (age m now % m.stepDuration : ℤ) / m.stepDuration := by
    have hdivmod := Int.mul_ediv_add_emod (age m now) m.stepDuration
    rw [← htick] at hdivmod
    rw [eq_comm, ← sub_eq_zero]
    field_simp
    have : (m.stepDuration : ℚ) * m.clockTick now + (age m now % m.stepDuration : ℤ) =
        age m now := by exact_mod_cast hdivmod
    linarith
  unfold progress
  rw [hsplit, hchanged.lastTick]
  split_ifs with hplayed
  · have hcast : (m.clockTick now : ℚ) = m.lastTick := by
      exact_mod_cast le_antisymm hplayed hreached
    push_cast
    linarith
  have hcast : (m.lastTick : ℚ) + 1 ≤ m.clockTick now := by
    exact_mod_cast not_le.mp hplayed
  push_cast
  linarith

lemma Timely.setBPM {last step : ℤ} (h : Timely last step t m) (hp : Playing t m) (hle : t ≤ now)
    {bpm : ℤ} (hbpm : 60 ≤ bpm ∧ bpm ≤ 180) :
    Timely last (min step (m.setBPM bpm now).stepDuration) now (m.setBPM bpm now) := by
  have hlater := h.later hle
  have hnew := (hp.setBPM hle hbpm).duration_pos
  have hmin : 0 < min step (m.setBPM bpm now).stepDuration := lt_min h.pos hnew
  refine ⟨hmin, min_le_right .., hlater.past, ?_⟩
  have hprogress : progress (m.setBPM bpm now) now ≤ progress m now := by
    by_cases hne : bpm = m.song.bpm
    · rw [hne, setBPM_same]
    · exact progress_changed hp hle hbpm hne
  refine hprogress.trans_lt (hlater.behind.trans_le ?_)
  have hminQ : (0 : ℚ) < (min step (m.setBPM bpm now).stepDuration : ℤ) := by exact_mod_cast hmin
  have hleQ : ((min step (m.setBPM bpm now).stepDuration : ℤ) : ℚ) ≤ step := by
    exact_mod_cast min_le_left ..
  have hpassed : (0 : ℚ) ≤ now - last := by
    have : (last : ℚ) ≤ now := by exact_mod_cast hlater.past
    linarith
  gcongr

lemma Timely.due {last step : ℤ} (h : Timely last step now m) (hp : Playing now m)
    (hsoon : now - last ≤ step) : m.clockTick now ≤ m.lastTick + 1 := by
  have hold : (0 : ℚ) < m.stepDuration := by exact_mod_cast hp.duration_pos
  have hstep : (0 : ℚ) < step := by exact_mod_cast h.pos
  have hone : (now - last : ℚ) / step ≤ 1 := by
    rw [div_le_one hstep]
    exact_mod_cast hsoon
  have hprogress := h.behind
  unfold progress at hprogress
  have hlt : (age m now : ℚ) / m.stepDuration < m.lastTick + 2 := by linarith
  rw [div_lt_iff₀ hold] at hlt
  have hltZ : age m now < (m.lastTick + 2) * m.stepDuration := by exact_mod_cast hlt
  rw [clockTick_eq hp.running.started]
  have := Int.ediv_lt_of_lt_mul hp.duration_pos hltZ
  omega

lemma timely_tick (h : Playing t m) (hle : t ≤ now) :
    Timely now m.stepDuration now (m.tick now).1 := by
  have hp := h.later hle
  have hold : (0 : ℚ) < m.stepDuration := by exact_mod_cast h.duration_pos
  have hlast : (m.tick now).1.lastTick = m.clockTick now ∧
      (m.tick now).1.stepDuration = m.stepDuration ∧ age (m.tick now).1 now = age m now := by
    rcases le_or_gt (m.clockTick now) m.lastTick with hlast | hlast
    · have hticked := (tick_none h hlast).2
      exact ⟨hticked.lastTick.trans (le_antisymm hp.running.reached hlast), hticked.clock.1,
        hticked.clock.2.1 now⟩
    · have hticked := (tick_some h hlast).2
      exact ⟨hticked.lastTick, hticked.clock.1, hticked.clock.2.1 now⟩
  refine ⟨h.duration_pos, hlast.2.1.ge, le_rfl, ?_⟩
  unfold progress
  rw [hlast.1, hlast.2.1, hlast.2.2, sub_self, zero_div, add_zero, sub_lt_iff_lt_add,
    div_lt_iff₀ hold]
  have hlt := Int.lt_ediv_add_one_mul_self (age m now) h.duration_pos
  rw [← clockTick_eq hp.running.started] at hlt
  have hltQ : (age m now : ℚ) < (m.clockTick now + 1) * m.stepDuration := by exact_mod_cast hlt
  linarith

lemma played_late (turns : List Turn) : ∀ {t last step base : ℤ} {m : Model}, Timed t turns →
    step < t - last → Prompt last step m turns → played base m turns = [] := by
  induction turns with
  | nil => exact fun _ _ _ => rfl
  | cons x turns ih =>
    intro t last step base m ht hlate hprompt
    have hle := ht.1
    cases x with
    | tick now =>
      have hsoon : now - last ≤ step := hprompt.1
      dsimp only [Turn.time] at hle
      omega
    | setBPM bpm now =>
      dsimp only [Turn.time] at hle
      rw [played, Turn.plays, nil_append]
      refine ih ht.2.2 ?_ hprompt
      have := min_le_left step (m.setBPM bpm now).stepDuration
      dsimp only [Turn.time]
      omega

def Consecutive (first : ℤ) (numbers : List ℤ) : Prop :=
  ∃ n, numbers = (List.range n).map fun i : ℕ => first + i

lemma Consecutive.cons {first : ℤ} {numbers : List ℤ} (h : Consecutive (first + 1) numbers) :
    Consecutive first (first :: numbers) := by
  obtain ⟨n, rfl⟩ := h
  refine ⟨n + 1, ?_⟩
  rw [range_succ_eq_map, map_cons, map_map]
  refine congrArg₂ List.cons (by simp) (map_congr_left fun i _ => ?_)
  simp only [Function.comp_apply, Nat.succ_eq_add_one]
  push_cast
  omega

lemma consecutive_tick (h : Playing t m) (hdue : m.clockTick now ≤ m.lastTick + 1) {base : ℤ}
    {turns : List Turn} (hrest : Consecutive (base + (m.tick now).1.lastTick + 1)
      ((played base (m.tick now).1 turns).map Prod.fst)) :
    Consecutive (base + m.lastTick + 1) ((played base m (.tick now :: turns)).map Prod.fst) := by
  rw [played, map_append]
  rcases le_or_gt (m.clockTick now) m.lastTick with hlast | hlast
  · have hsame : (m.tick now).1.lastTick = m.lastTick := (tick_none h hlast).2.lastTick
    rw [hsame] at hrest
    rw [Turn.plays, if_pos hlast, map_nil, nil_append]
    exact hrest
  have hnext : (m.tick now).1.lastTick = m.lastTick + 1 :=
    (tick_some h hlast).2.lastTick.trans (by omega)
  rw [hnext, ← add_assoc] at hrest
  have hfirst : base + m.clockTick now = base + m.lastTick + 1 := by omega
  rw [Turn.plays, if_neg (not_le.mpr hlast), map_singleton, singleton_append, hfirst]
  exact hrest.cons

lemma played_consecutive (turns : List Turn) : ∀ {t last step base : ℤ} {m : Model},
    Playing t m → Timely last step t m → Timed t turns → Prompt last step m turns →
      Consecutive (base + m.lastTick + 1) ((played base m turns).map Prod.fst) := by
  induction turns with
  | nil => exact fun _ _ _ _ => ⟨0, rfl⟩
  | cons x turns ih =>
    intro t last step base m h htimely ht hprompt
    cases x with
    | tick now =>
      have hle : t ≤ now := ht.1
      exact consecutive_tick h ((htimely.later hle).due (h.later hle) hprompt.1)
        (ih (h.tick hle) (timely_tick h hle) ht.2.2 hprompt.2)
    | setBPM bpm now =>
      have hle : t ≤ now := ht.1
      have hafter := htimely.setBPM h hle ht.2.1
      have hrest := @ih _ _ _ ((Turn.setBPM bpm now).base base m) _ (h.setBPM hle ht.2.1) hafter
        ht.2.2 hprompt
      rw [played, Turn.plays, nil_append]
      by_cases hne : bpm = m.song.bpm
      · have hsame : m.setBPM bpm now = m := by rw [hne, setBPM_same]
        have hbase : (Turn.setBPM bpm now).base base m = base := if_pos hne
        rw [Turn.run, hsame, hbase]
        rwa [hsame, hbase] at hrest
      have hchanged := h.changed ht.2.1 hne now
      have hbase : (Turn.setBPM bpm now).base base m = base + m.clockTick now := if_neg hne
      have hreached := (h.later hle).running.reached
      rw [hbase] at hrest ⊢
      by_cases hdue : m.clockTick now ≤ m.lastTick + 1
      · have hfirst : base + m.clockTick now + (m.setBPM bpm now).lastTick + 1 =
            base + m.lastTick + 1 := by
          rw [hchanged.lastTick]
          split_ifs <;> omega
        rwa [hfirst] at hrest
      · -- a cell was missed: the next tick would come too late
        have hlate : min step (m.setBPM bpm now).stepDuration < now - last := by
          by_contra hnot
          have hsoon : now - last ≤ step := (not_lt.mp hnot).trans (min_le_left ..)
          exact hdue ((htimely.later hle).due (h.later hle) hsoon)
        exact ⟨0, congrArg (map Prod.fst) (played_late turns ht.2.2 hlate hprompt)⟩

/-! ### Every run -/

/-- What holds of the cells that a run plays. -/
structure Plays (t : ℤ) (m : Model) (turns : List Turn) : Prop where
  /-- In every state of the run. -/
  steady : Steady (lastTurn t turns) (after m turns)
  names : ∀ n ∈ played 0 m turns, n.2 = m.positionAt n.1
  once : ((played 0 m turns).map Prod.fst).Pairwise (· < ·)
  new : ∀ n ∈ played 0 m turns, m.lastTick < n.1
  /-- The same cell again: the loop has come round. -/
  round : ∀ n ∈ played 0 m turns, ∀ k ∈ played 0 m turns, n.1 < k.1 → n.2 = k.2 →
    m.total ≤ k.1 - n.1
  /-- From a tick on that found no cell missed, with every tick in time. -/
  complete : m.clockTick t ≤ m.lastTick + 1 →
    ∀ rest, turns = .tick t :: rest → Prompt t m.stepDuration m turns →
      Consecutive (m.lastTick + 1) ((played 0 m turns).map Prod.fst)

theorem Playing.plays (h : Playing t m) {turns : List Turn} (ht : Timed t turns) :
    Plays t m turns := by
  obtain ⟨hup, hspec⟩ := @played_spec turns t 0 m h ht
  have hlow := h.running.low
  have hnames : ∀ n ∈ played 0 m turns, n.2 = m.positionAt n.1 := fun n hn => by
    rw [(hspec n hn).2, sub_zero]
  have hnew : ∀ n ∈ played 0 m turns, m.lastTick < n.1 := fun n hn => by
    have := (hspec n hn).1
    omega
  refine ⟨(playing_after turns h ht).steady, hnames, hup, hnew, ?_, ?_⟩
  · intro n hn k hk hlt hsame
    rw [hnames n hn, hnames k hk] at hsame
    exact total_le h.startStep_nonneg (by have := hnew n hn; omega) hlt hsame
  rintro hdue rest rfl hprompt
  have hall : Consecutive (0 + m.lastTick + 1) ((played 0 m (.tick t :: rest)).map Prod.fst) :=
    consecutive_tick h hdue (played_consecutive rest (h.tick le_rfl) (timely_tick h le_rfl)
      ht.2.2 hprompt.2)
  rwa [zero_add] at hall

end C1auncher.Pinao.Tempo
