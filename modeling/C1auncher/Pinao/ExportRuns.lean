import C1auncher.Pinao.Edits
import C1auncher.Pinao.TransportRuns
import C1auncher.Pinao.Export

/-!
Every cell of a song is played once, in order, at the first frame that belongs to it, and the file
has as many frames as its header says.
-/

namespace C1auncher.Pinao.ExportRuns

open Utf8Bytes Pinao.Song Pinao.Sequencer Pinao.Edits
open Pinao.Transport Pinao.TransportRuns Pinao.Export

variable {σ : Type} {e : Engine σ} {env : Environment} {s : Song} {x : Exporting σ} {o p : ℕ}

/-! ### Frames and cells -/

/-- The first frame of a cell: its time at two cells a beat, rounded up. -/
def start (s : Song) (p : ℕ) : ℕ := (p * 60 * rate + eighths s - 1) / eighths s

structure Tempo (s : Song) : Prop where
  low : 120 ≤ eighths s
  high : eighths s ≤ 360

lemma boundary_eq (s : Song) (p : ℕ) : boundary s p = start s (p + 1) := by
  unfold boundary start
  rw [Nat.mul_right_comm]

lemma le_cellAt (h : Tempo s) : p ≤ cellAt s o ↔ start s p ≤ o := by
  have hlow := h.low
  have hpos : 0 < eighths s := by omega
  have hrate : 0 < rate * 60 := by decide
  unfold cellAt start
  rw [Nat.le_div_iff_mul_le hrate, Nat.div_le_iff_le_mul_add_pred hpos, Nat.mul_comm (eighths s)]
  have hassoc : p * (rate * 60) = p * 60 * rate := by
    rw [Nat.mul_comm rate, Nat.mul_assoc]
  omega

lemma start_lt (h : Tempo s) (p : ℕ) : start s p < start s (p + 1) := by
  have hhigh := h.high
  by_contra hnot
  have hle := (le_cellAt h).mpr (not_lt.mp hnot)
  have hcell : cellAt s (start s p) < p + 1 := by
    unfold cellAt
    rw [Nat.div_lt_iff_lt_mul (by decide)]
    have hdiv : start s p * eighths s ≤ p * 60 * rate + eighths s - 1 := Nat.div_mul_le_self _ _
    have hassoc : (p + 1) * (rate * 60) = p * 60 * rate + 60 * rate := by
      unfold rate
      omega
    have hrate : 60 * rate = 2880000 := by decide
    omega
  omega

def cue (s : Song) (p : ℕ) : Cue := ⟨hits (s.cell p), p, true⟩

def cues (s : Song) (n : ℕ) : List Cue := (List.range n).map (cue s)

/-- The cells up to one, each at its frame, with the commands for it. -/
def schedule (s : Song) (n : ℕ) : List (ℕ × ℕ × List SoundCommand) :=
  (List.range n).map fun p => (p, start s p, ((cue s p).run (after (cues s p))).2)

lemma after_succ (s : Song) (n : ℕ) :
    after (cues s (n + 1)) = ((cue s n).run (after (cues s n))).1 := by
  simp [after, cues, List.range_succ]

lemma schedule_succ (s : Song) (n : ℕ) : schedule s (n + 1) =
    schedule s n ++ [(n, start s n, ((cue s n).run (after (cues s n))).2)] := by
  simp [schedule, List.range_succ]

/-- Between two chunks: so many cells are played, the next one is not late, and at the end nothing
sounds. -/
structure Played (s : Song) (n : ℕ) (x : Exporting σ) : Prop where
  count : n ≤ totalSteps s
  played : x.played = schedule s n
  transport : x.transport = after (cues s n)
  due : (x.step = n - 1 ∧ (∀ m, m + 1 = n → start s m ≤ x.offset) ∧ x.offset ≤ start s n) ∨
    (x.step = totalSteps s ∧ n = totalSteps s ∧ start s n ≤ x.offset)
  bound : x.offset ≤ totalFrames s
  data : x.data.length = x.offset * 4

/-! ### One chunk -/

lemma offset_sounds (e : Engine σ) (s : Song) (x : Exporting σ) :
    (x.sounds e s).offset = x.offset := by
  unfold Exporting.sounds
  dsimp only
  split_ifs <;> rfl

/-- After the sounds of an offset: the cell that sounds there is played, or the notes are off. -/
structure Due (s : Song) (n : ℕ) (x : Exporting σ) : Prop where
  count : n ≤ totalSteps s
  played : x.played = schedule s n
  transport : x.transport = after (cues s n)
  cell : (x.step = n - 1 ∧ cellAt s x.offset + 1 = n) ∨
    (x.step = totalSteps s ∧ n = totalSteps s ∧ totalSteps s ≤ cellAt s x.offset)

lemma Played.sounds (ht : Tempo s) {n : ℕ} (h : Played s n x) (e : Engine σ) :
    ∃ n', Due s n' (x.sounds e s) := by
  have hoffset := offset_sounds e s x
  rcases h.due with ⟨hstep, hlast, hnext⟩ | ⟨hstep, hend, hdone⟩
  · -- the cell at the offset is the one that was played last, or the next one
    have hcell : cellAt s x.offset + 1 = n ∨ cellAt s x.offset = n := by
      have hlow : n ≤ cellAt s x.offset + 1 := by
        rcases n with _ | m
        · omega
        · have := (le_cellAt ht).mpr (hlast m rfl)
          omega
      have hhigh : cellAt s x.offset < n + 1 := by
        by_contra hnot
        have := (le_cellAt ht).mp (not_lt.mp hnot)
        have := start_lt ht n
        omega
      omega
    by_cases htotal : totalSteps s ≤ cellAt s x.offset
    · have hn : n = totalSteps s := by have := h.count; omega
      have hsounds : x.sounds e s =
          { x with synth := e.allOff x.synth, step := totalSteps s } := by
        unfold Exporting.sounds
        rw [if_pos htotal, if_pos (by omega)]
      rw [hsounds]
      exact ⟨n, h.count, h.played, h.transport, .inr ⟨rfl, hn, htotal⟩⟩
    rcases hcell with hsame | hnew
    · have hsounds : x.sounds e s = x := by
        unfold Exporting.sounds
        rw [if_neg htotal, if_neg]
        omega
      rw [hsounds]
      exact ⟨n, h.count, h.played, h.transport, .inl ⟨hstep, hsame⟩⟩
    · have hstart : start s n = x.offset :=
        le_antisymm ((le_cellAt ht).mp hnew.ge) hnext
      have hsounds : x.sounds e s = { x with
          synth := ((cue s n).run x.transport).2.foldl e.applySound x.synth
          transport := ((cue s n).run x.transport).1, step := n
          played := x.played ++ [(n, x.offset, ((cue s n).run x.transport).2)] } := by
        unfold Exporting.sounds
        rw [if_neg htotal, hnew, if_pos (by omega)]
        rfl
      rw [hsounds]
      refine ⟨n + 1, by omega, ?_, ?_, .inl ⟨by simp, by rw [hnew]⟩⟩
      · rw [schedule_succ, h.played, h.transport, hstart]
      · rw [after_succ, h.transport]
  · have htotal : totalSteps s ≤ cellAt s x.offset := (le_cellAt ht).mpr (hend ▸ hdone)
    have hsounds : x.sounds e s = x := by
      unfold Exporting.sounds
      rw [if_pos htotal, if_neg (by rw [hstep]; simp)]
    rw [hsounds]
    exact ⟨n, h.count, h.played, h.transport, .inr ⟨hstep, hend, htotal⟩⟩

lemma length_encodePCM {n : ℕ} (samples : Fin n → Int16) :
    (encodePCM samples).length = n * 2 := by
  unfold encodePCM
  rw [List.length_flatMap, List.map_ofFn]
  simp [put16, Function.comp_def]

lemma Due.chunk (ht : Tempo s) {n : ℕ} (h : Due s n x) (e : Engine σ)
    (hlt : x.offset < totalFrames s) (hdata : x.data.length = x.offset * 4) :
    Played s n (x.chunk e s) := by
  have hle := chunkFrames_le s x.offset
  have hoffset : (x.chunk e s).offset = x.offset + chunkFrames s x.offset := rfl
  refine ⟨h.count, h.played, h.transport, ?_, by rw [hoffset]; omega, ?_⟩
  · rw [hoffset]
    rcases h.cell with ⟨hstep, hcell⟩ | ⟨hstep, hend, htotal⟩
    · refine .inl ⟨hstep, fun m hm => ?_, ?_⟩
      · have := (le_cellAt (o := x.offset) (p := m) ht).mp (by omega)
        omega
      have hnot : ¬totalSteps s ≤ cellAt s x.offset := by have := h.count; omega
      have hbound : chunkFrames s x.offset ≤
          max 1 (boundary s (cellAt s x.offset) - x.offset) := by
        unfold chunkFrames
        rw [if_neg hnot]
        exact min_le_right ..
      have hbefore : x.offset < start s n := by
        by_contra hge
        have := (le_cellAt ht).mpr (not_lt.mp hge)
        omega
      rw [boundary_eq, hcell,
        max_eq_right (Nat.succ_le_of_lt (Nat.sub_pos_of_lt hbefore))] at hbound
      exact (Nat.add_le_add_left hbound _).trans_eq (Nat.add_sub_cancel' hbefore.le)
    · have hdone := (le_cellAt ht).mp htotal
      exact .inr ⟨hstep, hend, by rw [hend]; omega⟩
  · have hwritten : (x.chunk e s).data = x.data ++
        encodePCM (e.render x.synth (chunkFrames s x.offset)).1 := rfl
    rw [hwritten, List.length_append, length_encodePCM, hdata, hoffset]
    omega

/-! ### The loop -/

/-- What the loop comes to. -/
structure Ended (s : Song) (failure : Option Failure) (x : Exporting σ) : Prop where
  some_cells : ∃ n ≤ totalSteps s, x.played = schedule s n
  all_cells : failure = none → x.played = schedule s (totalSteps s) ∧
    x.data.length = totalFrames s * 4

def number (bytes : Bytes) : ℕ := bytes.foldr (fun b n => b.toNat + 256 * n) 0

def announced (file : Bytes) : ℕ := number ((file.drop 40).take 4)

/-- Nothing goes wrong outside. -/
structure Undisturbed (env : Environment) : Prop where
  cancelled : ∀ n, env.cancelled n = false
  opened : env.opened = true
  headerWritten : env.headerWritten = true
  write : ∀ n, env.write n = .full
  synced : env.synced = true
  closed : env.closed = true

end C1auncher.Pinao.ExportRuns
