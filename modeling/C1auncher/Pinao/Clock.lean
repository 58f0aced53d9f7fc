import C1auncher.Pinao.KeyInvariant

/-!
The clock of the sequencer under all keys: while it plays, the last cell that was played is one that
the clock has reached, and no page key is about to do something.
-/

namespace C1auncher.Pinao.Clock

open Pinao.Song Pinao.Sequencer Pinao.Edits Model
open Pinao.SongInvariant Pinao.KeyInvariant

variable {m m' m'' : Model} {now t : ℤ} {key : ℕ} {fired : Bool}

/-! ### What leaves the clock alone -/

/-- The clock is as before or stopped, and no page key is newly about to do something. -/
structure Calm (m m' : Model) : Prop where
  playing : m'.playing = true → m.playing = true ∧ m'.started = m.started ∧
    m'.lastTick = m.lastTick ∧ m'.song.bpm = m.song.bpm
  gesture : m'.playing = true → m'.pageKey ≠ 0 → m'.pageKeyFired = false →
    m.pageKey ≠ 0 ∧ m.pageKeyFired = false

namespace Calm

lemma of_stopped (h : m'.playing = false) : Calm m m' :=
  ⟨fun hp => (by rw [h] at hp; cases hp), fun hp => (by rw [h] at hp; cases hp)⟩

lemma of_eq (hplaying : m'.playing = m.playing) (hstarted : m'.started = m.started)
    (hlast : m'.lastTick = m.lastTick) (hbpm : m'.song.bpm = m.song.bpm)
    (hkey : m'.pageKey = m.pageKey) (hfired : m'.pageKeyFired = m.pageKeyFired) : Calm m m' :=
  ⟨fun h => ⟨hplaying ▸ h, hstarted, hlast, hbpm⟩, fun _ h h' => ⟨hkey ▸ h, hfired ▸ h'⟩⟩

lemma refl (m : Model) : Calm m m := of_eq rfl rfl rfl rfl rfl rfl

lemma trans (h : Calm m m') (h' : Calm m' m'') : Calm m m'' := by
  constructor
  · intro hp
    obtain ⟨hp', hstarted, hlast, hbpm⟩ := h'.playing hp
    obtain ⟨hp'', hstarted', hlast', hbpm'⟩ := h.playing hp'
    exact ⟨hp'', hstarted.trans hstarted', hlast.trans hlast', hbpm.trans hbpm'⟩
  · intro hp hkey hfired
    obtain ⟨hkey', hfired'⟩ := h'.gesture hp hkey hfired
    exact h.gesture (h'.playing hp).1 hkey' hfired'

end Calm

lemma calm_message (m : Model) (notice : String) (now : Time) : Calm m (m.message notice now) :=
  .of_eq rfl rfl rfl rfl rfl rfl

lemma calm_cancelTies (m : Model) : Calm m m.cancelTies := .of_eq rfl rfl rfl rfl rfl rfl

lemma calm_addSpark (m : Model) (k : ℤ) (drum : Bool) (now : Time) :
    Calm m (m.addSpark k drum now) :=
  .of_eq rfl rfl rfl rfl rfl rfl

lemma calm_extendCapture (from_ : ℤ) (now : Time) (m : Model) (code : Fin 128) :
    Calm m (m.extendCapture from_ now code) := by
  unfold extendCapture
  dsimp only
  split
  · exact .of_eq rfl rfl rfl rfl rfl rfl
  split
  · exact .of_eq rfl rfl rfl rfl rfl rfl
  split
  · exact .of_eq rfl rfl rfl rfl rfl rfl
  split
  · exact .of_eq rfl rfl rfl rfl rfl rfl
  · exact .of_eq rfl rfl rfl (frame_setCell _ _ _).2.1 rfl rfl

lemma calm_foldl {α : Type} {f : Model → α → Model} (hf : ∀ m a, Calm m (f m a)) (as : List α) :
    ∀ m, Calm m (as.foldl f m) := by
  induction as with
  | nil => exact .refl
  | cons a as ih => exact fun m => (hf m a).trans (ih _)

lemma calm_extendHeld (m : Model) (from_ : ℤ) (now : Time) : Calm m (m.extendHeld from_ now) := by
  unfold extendHeld
  split_ifs
  · exact calm_cancelTies m
  · exact calm_foldl (calm_extendCapture from_ now) _ m

lemma calm_changePage (m : Model) (delta : ℤ) (now : Time) : Calm m (m.changePage delta now) := by
  unfold changePage
  dsimp only
  split_ifs
  · exact calm_message ..
  have hturned : Calm m { m with page := m.page + delta, step := 0 } :=
    .of_eq rfl rfl rfl rfl rfl rfl
  have hheld := hturned.trans (calm_extendHeld _ m.position now)
  exact hheld.trans (.of_eq rfl rfl rfl rfl rfl rfl)

lemma calm_insertPage (m : Model) (delta : ℤ) (now : Time) : Calm m (m.insertPage delta now) := by
  unfold insertPage
  split_ifs
  · exact calm_message ..
  · exact .of_stopped rfl
  · exact .of_stopped rfl

lemma calm_movePage (m : Model) (move : Model.PageMove) (now : Time) :
    Calm m (m.movePage move now) := by
  cases move with
  | change delta => exact calm_changePage m delta now
  | insert delta => exact calm_insertPage m delta now

lemma calm_checkPageHold (m : Model) (now : Time) : Calm m (m.checkPageHold now) := by
  unfold checkPageHold
  split
  · have hfired : Calm m { m with pageKeyFired := true } :=
      ⟨fun h => ⟨h, rfl, rfl, rfl⟩, fun _ _ h => (by cases h)⟩
    exact hfired.trans (calm_movePage ..)
  · exact .refl m

def age (m : Model) (t : ℤ) : ℤ := t - m.started

/-- While it plays. -/
structure Running (t : ℤ) (m : Model) : Prop where
  started : 0 ≤ age m t
  low : -1 ≤ m.lastTick
  reached : m.lastTick ≤ m.clockTick t
  quiet : m.pageKey ≠ 0 → m.pageKeyFired = true

def Kept (t : ℤ) (m : Model) : Prop := m.playing = true → Running t m

lemma stepDuration_pos (h : 60 ≤ m.song.bpm ∧ m.song.bpm ≤ 180) : 0 < m.stepDuration := by
  have hle : m.song.bpm * 2 ≤ 360 := by omega
  unfold stepDuration
  rw [Int.tdiv_eq_ediv_of_nonneg (by decide)]
  refine (Int.le_ediv_iff_mul_le (by omega)).mpr ?_
  unfold second
  omega

lemma elapsed_eq (h : 0 ≤ age m t) : m.elapsed t = age m t := max_eq_right h

lemma clockTick_eq (h : 0 ≤ age m t) : m.clockTick t = age m t / m.stepDuration := by
  unfold clockTick
  rw [elapsed_eq h, Int.tdiv_eq_ediv_of_nonneg h]

lemma clockTick_mono (hbpm : 60 ≤ m.song.bpm ∧ m.song.bpm ≤ 180) (h : t ≤ now) :
    m.clockTick t ≤ m.clockTick now := by
  have hpos := stepDuration_pos hbpm
  unfold clockTick elapsed
  rw [Int.tdiv_eq_ediv_of_nonneg (by omega), Int.tdiv_eq_ediv_of_nonneg (by omega)]
  exact Int.ediv_le_ediv hpos (by omega)

lemma Calm.kept (h : Calm m m') (hkept : Kept t m) (hbpm : 60 ≤ m.song.bpm ∧ m.song.bpm ≤ 180)
    (hle : t ≤ now) : Kept now m' := by
  intro hp
  obtain ⟨hplaying, hstarted, hlast, hspeed⟩ := h.playing hp
  obtain ⟨hage, hlow, hreached, hquiet⟩ := hkept hplaying
  have htick : m'.clockTick now = m.clockTick now := by
    unfold clockTick elapsed stepDuration
    rw [hstarted, hspeed]
  refine ⟨?_, by rw [hlast]; exact hlow, ?_, fun hkey => ?_⟩
  · unfold age at hage ⊢
    rw [hstarted]
    omega
  · rw [hlast, htick]
    exact hreached.trans (clockTick_mono hbpm hle)
  by_contra hfired
  obtain ⟨hkey', hfired'⟩ := h.gesture hp hkey (Bool.eq_false_iff.mpr hfired)
  rw [hquiet hkey'] at hfired'
  cases hfired'

lemma Kept.later (h : Kept t m) (hbpm : 60 ≤ m.song.bpm ∧ m.song.bpm ≤ 180) (hle : t ≤ now) :
    Kept now m :=
  (Calm.refl m).kept h hbpm hle

/-- What is left of the cell, in the new tempo. -/
def phase (m : Model) (bpm : ℤ) (now : ℤ) : ℤ :=
  m.elapsed now % m.stepDuration *
    ({ m with song := { m.song with bpm := bpm } } : Model).stepDuration / m.stepDuration

structure Changed (m m' : Model) (bpm now : ℤ) : Prop where
  song : m'.song = { m.song with bpm := bpm }
  playing : m'.playing = true
  age : age m' now = phase m bpm now
  startStep : m'.startStep = m.clockPosition now
  cell : m'.position = m.clockPosition now
  lastTick : m'.lastTick = if m.clockTick now ≤ m.lastTick then 0 else -1
  gesture : m'.pageKey = m.pageKey ∧ m'.pageKeyFired = m.pageKeyFired
  transport : m.clockTick now ≤ m.lastTick + 1 → m'.transport = m.transport

lemma phase_lt (hbpm : 60 ≤ m.song.bpm ∧ m.song.bpm ≤ 180) {bpm : ℤ}
    (hnew : 60 ≤ bpm ∧ bpm ≤ 180) : 0 ≤ phase m bpm now ∧ phase m bpm now <
      ({ m with song := { m.song with bpm := bpm } } : Model).stepDuration := by
  have hold := stepDuration_pos hbpm
  have hpos := stepDuration_pos (m := { m with song := { m.song with bpm := bpm } }) hnew
  have hrest := Int.emod_nonneg (m.elapsed now) hold.ne'
  have hlt := Int.emod_lt_of_pos (m.elapsed now) hold
  unfold phase
  refine ⟨Int.ediv_nonneg (mul_nonneg hrest hpos.le) hold.le, ?_⟩
  rw [Int.ediv_lt_iff_lt_mul hold, mul_comm]
  exact mul_lt_mul_of_pos_left hlt hpos

lemma startStep_eq {x : ℤ} (hx : 0 ≤ x) :
    x.tdiv 16 * 16 + ((x.tmod 16).tmod 16 + 16).tmod 16 = x := by
  rw [Int.tdiv_eq_ediv_of_nonneg hx, Int.tmod_eq_emod_of_nonneg hx,
    Int.tmod_eq_emod_of_nonneg (by omega : 0 ≤ x % 16), Int.tmod_eq_emod_of_nonneg (by omega)]
  omega

lemma setBPM_changed (h : Ready key fired m) (hplaying : m.playing = true) {bpm : ℤ}
    (hbpm : 60 ≤ bpm ∧ bpm ≤ 180) (hne : bpm ≠ m.song.bpm) (now : ℤ) :
    Changed m (m.setBPM bpm now) bpm now := by
  have hold := stepDuration_pos h.song.bpm
  have hcell : 0 ≤ m.clockPosition now := (positionAt_bounds h (clockTick_nonneg h now)).1
  have hstart := startStep_eq hcell
  have hphase : ((m.elapsed now).tmod m.stepDuration *
      ({ m with song := { m.song with bpm := bpm } } : Model).stepDuration).tdiv
        m.stepDuration = phase m bpm now := by
    have hpos := stepDuration_pos (m := { m with song := { m.song with bpm := bpm } }) hbpm
    rw [Int.tmod_eq_emod_of_nonneg (elapsed_nonneg m now), Int.tdiv_eq_ediv_of_nonneg]
    · rfl
    · exact mul_nonneg (Int.emod_nonneg _ hold.ne') hpos.le
  set fresh := ({ m.syncPosition now with song := { m.song with bpm := bpm } } : Model).startFrom
    (now - phase m bpm now) (m.syncPosition now).step with hfresh
  have hset : m.setBPM bpm now = changed (
      let m' := if decide (m.clockTick now ≤ m.lastTick + 1) then
        { fresh with transport := m.transport } else fresh
      if decide (m.clockTick now ≤ m.lastTick) then { m' with lastTick := 0 } else m') now := by
    unfold setBPM
    rw [if_neg hne, hplaying, if_pos rfl, hfresh, ← hphase]
    rfl
  have hage : age fresh now = phase m bpm now := by
    change now - (now - phase m bpm now) = phase m bpm now
    omega
  have hfirst : fresh.startStep = m.clockPosition now := hstart
  have hposition : fresh.position = m.clockPosition now := by
    have hsplit : fresh.position = (m.clockPosition now).tdiv 16 * 16 + fresh.startStep.tmod 16 :=
      rfl
    rw [hsplit, hfirst, Int.tdiv_eq_ediv_of_nonneg hcell, Int.tmod_eq_emod_of_nonneg hcell]
    omega
  have hresult : ∀ (transport : LoopTransport) (last : ℤ),
      last = (if m.clockTick now ≤ m.lastTick then 0 else -1) →
      (m.clockTick now ≤ m.lastTick + 1 → transport = m.transport) →
      Changed m ({ fresh with transport := transport, lastTick := last }.changed now) bpm now :=
    fun transport last hlast htransport =>
      ⟨rfl, rfl, hage, hfirst, hposition, hlast, ⟨rfl, rfl⟩, htransport⟩
  rw [hset]
  dsimp only
  split_ifs with hplayed hdue hdue
  · exact hresult m.transport 0 (by rw [if_pos (of_decide_eq_true hplayed)]) fun _ => rfl
  · exact hresult fresh.transport 0 (by rw [if_pos (of_decide_eq_true hplayed)])
      fun h => absurd (decide_eq_true h) hdue
  · exact hresult m.transport (-1)
      (by rw [if_neg fun h => hplayed (decide_eq_true h)]) fun _ => rfl
  · exact hresult fresh.transport (-1)
      (by rw [if_neg fun h => hplayed (decide_eq_true h)]) fun h => absurd (decide_eq_true h) hdue

lemma Changed.clockTick {m' : Model} {bpm : ℤ} (h : Changed m m' bpm now)
    (hold : 60 ≤ m.song.bpm ∧ m.song.bpm ≤ 180) (hbpm : 60 ≤ bpm ∧ bpm ≤ 180) :
    m'.clockTick now = 0 := by
  obtain ⟨hlow, hhigh⟩ : 0 ≤ phase m bpm now ∧ phase m bpm now < _ := phase_lt hold hbpm
  have hduration : m'.stepDuration =
      ({ m with song := { m.song with bpm := bpm } } : Model).stepDuration := by
    unfold stepDuration
    rw [h.song]
  rw [clockTick_eq (by rw [h.age]; exact hlow), h.age, hduration]
  exact Int.ediv_eq_zero_of_lt hlow hhigh

lemma kept_setBPM (h : Ready key fired m) (hkept : Kept t m) (hle : t ≤ now) {bpm : ℤ}
    (hbpm : 60 ≤ bpm ∧ bpm ≤ 180) : Kept now (m.setBPM bpm now) := by
  by_cases hne : bpm = m.song.bpm
  · have hsame : m.setBPM bpm now = m := if_pos hne
    rw [hsame]
    exact hkept.later h.song.bpm hle
  rcases hplaying : m.playing with _ | _
  · have hstopped : (m.setBPM bpm now).playing = false := by
      unfold setBPM
      rw [if_neg hne, hplaying, if_neg (by decide)]
      rfl
    exact (Calm.of_stopped hstopped).kept hkept h.song.bpm hle
  · intro _
    have hchanged := setBPM_changed h hplaying hbpm hne now
    have htick := hchanged.clockTick h.song.bpm hbpm
    refine ⟨?_, ?_, ?_, ?_⟩
    · rw [hchanged.age]
      exact (phase_lt h.song.bpm hbpm).1
    · rw [hchanged.lastTick]
      split_ifs <;> decide
    · rw [hchanged.lastTick, htick]
      split_ifs <;> decide
    · rw [hchanged.gesture.1, hchanged.gesture.2]
      exact (hkept hplaying).quiet

/-! ### All keys -/

lemma checkPageHold_eq (hquiet : m.pageKey ≠ 0 → m.pageKeyFired = true) (now : ℤ) :
    m.checkPageHold now = m := by
  have hnone : m.holdMove now = none := by
    unfold holdMove
    rw [if_neg]
    rintro ⟨hkey, hfired, -⟩
    exact hfired (hquiet hkey)
  unfold checkPageHold
  rw [hnone]

lemma calm_sparkHits (now : ℤ) (notes : List Hit) (m : Model) :
    Calm m (notes.foldl (Model.sparkHit now) m) :=
  calm_foldl (fun m h => by
    unfold sparkHit
    split_ifs
    · exact calm_addSpark ..
    · exact calm_addSpark ..) notes m

lemma kept_tick (h : Ready key fired m) (hkept : Kept t m) (hle : t ≤ now) :
    Kept now (m.tick now).1 := by
  obtain ⟨fired', hheld, -⟩ := leaves_checkPageHold h now
  have hkept' := (calm_checkPageHold m now).kept hkept h.song.bpm hle
  unfold tick
  dsimp only
  generalize m.checkPageHold now = m₁ at hheld hkept' ⊢
  have hfaded : Calm m₁ { m₁ with
      sparks := m₁.sparks.filter fun s => decide (now - s.time < keyFeedbackDuration) } :=
    .of_eq rfl rfl rfl rfl rfl rfl
  split_ifs with hstopped hlate
  · exact hfaded.kept hkept' hheld.song.bpm le_rfl
  · refine (calm_sparkHits now _ _).kept ?_ hheld.song.bpm le_rfl
    intro hp
    have hrunning := hkept' hp
    refine ⟨hrunning.started, ?_, le_rfl, hrunning.quiet⟩
    exact le_trans (by decide : (-1 : ℤ) ≤ 0) (clockTick_nonneg hheld now)
  · exact hfaded.kept hkept' hheld.song.bpm le_rfl

/-! ### Runs -/

def time : Call → ℤ
  | .key _ now => now
  | .tick now => now

/-- Time does not go back. -/
def Ordered : ℤ → List Call → Prop
  | _, [] => True
  | t, c :: calls => t ≤ time c ∧ Ordered (time c) calls

end C1auncher.Pinao.Clock
