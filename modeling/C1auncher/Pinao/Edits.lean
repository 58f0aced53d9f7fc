import C1auncher.Pinao.Song

/-!
What is a song, cell by cell, and the edits that keep it one.
-/

namespace C1auncher.Pinao.Edits

open Pinao.Song List

/-! ### Notes and cells -/

structure Playable (h : Hit) : Prop where
  drum : 0 ≤ h.drum ∧ h.drum ≤ 4
  tone : 0 ≤ h.tone ∧ h.tone ≤ 2
  midi : h.drum = 0 → 36 ≤ h.midi.toInt ∧ h.midi.toInt ≤ 96

/-- Notes that a tie like `h` continues. -/
def Sounds (notes : List Hit) (h : Hit) : Prop := ∃ n ∈ notes, sameNote n h = true

lemma sounds_iff {notes : List Hit} {h : Hit} : Sounds notes h ↔ noteIndex notes h ≠ none := by
  unfold Sounds noteIndex
  rw [Ne, findIdx?_eq_none_iff]
  simp

lemma sameNote_iff {a b : Hit} :
    sameNote a b = true ↔ a.drum = 0 ∧ b.drum = 0 ∧ a.midi = b.midi ∧ a.tone = b.tone := by
  simp [sameNote, and_assoc]

def Keeps (notes notes' : List Hit) : Prop := ∀ h, Sounds notes h → Sounds notes' h

lemma keeps_append (notes more : List Hit) : Keeps notes (notes ++ more) := by
  rintro h ⟨n, hn, hsame⟩
  exact ⟨n, mem_append_left _ hn, hsame⟩

/-! ### Reading and writing cells -/

variable {s : Song} {p q : ℕ} {c : Cell}

def total (s : Song) : ℕ := s.pageCount * 16

lemma page_lt (hp : p < total s) : p / 16 < s.pageCount := by
  unfold total at hp
  omega

lemma patternAt_setPattern {i j : ℕ} (hi : i < s.pageCount) (pattern : Page) :
    (s.setPattern i pattern).patternAt j = if j = i then pattern else s.patternAt j := by
  unfold Song.pageCount at hi
  unfold Song.setPattern Song.patternAt
  rcases Nat.eq_zero_or_pos i with rfl | hpos
  · by_cases hj : j = 0 <;> simp [hj]
  rcases Nat.eq_zero_or_pos j with rfl | hpos'
  · simp [hpos.ne', hpos.ne]
  have hlt : i - 1 < s.pages.length := by omega
  simp only [hpos.ne', hpos'.ne', if_false, getD_eq_getElem?_getD, getElem?_set]
  by_cases hij : j = i
  · subst hij
    simp [hlt]
  · rw [if_neg (by omega), if_neg hij]

lemma pageCount_setPattern (s : Song) (i : ℕ) (pattern : Page) :
    (s.setPattern i pattern).pageCount = s.pageCount := by
  unfold Song.setPattern Song.pageCount
  split_ifs
  · rfl
  · rw [List.length_set]

lemma cell_setCell (hp : p < total s) :
    (s.setCell p c).cell q = if q = p then c else s.cell q := by
  unfold Song.setCell Song.cell
  rw [patternAt_setPattern (page_lt hp)]
  by_cases hpage : q / 16 = p / 16
  · rw [if_pos hpage, Function.update_apply, hpage]
    by_cases hstep : q % 16 = p % 16
    · rw [if_pos (Fin.ext hstep), if_pos (by omega)]
    · rw [if_neg (fun h => hstep (Fin.mk.inj h)), if_neg (by omega)]
  · rw [if_neg hpage, if_neg (by rintro rfl; exact hpage rfl)]

lemma cell_setCell_self (hp : p < total s) : (s.setCell p c).cell p = c := by
  rw [cell_setCell hp, if_pos rfl]

lemma total_setCell (s : Song) (p : ℕ) (c : Cell) : total (s.setCell p c) = total s := by
  unfold total Song.setCell
  rw [pageCount_setPattern]

/-- The numbers of a song besides its notes. -/
structure Settings (s : Song) : Prop where
  format : 1 ≤ s.format ∧ s.format ≤ 3
  single : s.format = 1 → s.pages = []
  count : s.pageCount ≤ maxPages
  bpm : 60 ≤ s.bpm ∧ s.bpm ≤ 180
  octave : 3 ≤ s.octave ∧ s.octave ≤ 6
  tone : 0 ≤ s.tone ∧ s.tone ≤ 2
  volume : 0 ≤ s.volume ∧ s.volume ≤ 100

/-- A song but for ties that continue nothing. -/
structure Loose (s : Song) : Prop extends Settings s where
  size : ∀ p < total s, (hits (s.cell p)).length ≤ 8
  playable : ∀ p < total s, ∀ h ∈ hits (s.cell p), Playable h
  tied : ∀ p < total s, ∀ h ∈ hits (s.cell p), h.tie = true → s.format = 3 ∧ h.drum = 0

/-- The ties of a cell continue notes of the cell before. -/
def Linked (s : Song) (p : ℕ) : Prop :=
  ∀ h ∈ hits (s.cell p), h.tie = true → p ≠ 0 ∧ Sounds (hits (s.cell (p - 1))) h

structure Valid (s : Song) : Prop extends Loose s where
  linked : ∀ p < total s, Linked s p

lemma frame_setCell (s : Song) (p : ℕ) (c : Cell) :
    (s.setCell p c).format = s.format ∧ (s.setCell p c).bpm = s.bpm ∧
      (s.setCell p c).octave = s.octave ∧ (s.setCell p c).tone = s.tone ∧
        (s.setCell p c).volume = s.volume ∧ (s.pages = [] → (s.setCell p c).pages = []) := by
  unfold Song.setCell Song.setPattern
  split_ifs
  · exact ⟨rfl, rfl, rfl, rfl, rfl, fun h => h⟩
  refine ⟨rfl, rfl, rfl, rfl, rfl, fun h => ?_⟩
  dsimp only
  rw [h, set_nil]

lemma settings_setCell (h : Settings s) (p : ℕ) (c : Cell) : Settings (s.setCell p c) := by
  have hcount : (s.setCell p c).pageCount = s.pageCount := pageCount_setPattern s _ _
  obtain ⟨hformat, hbpm, hoctave, htone, hvolume, hpages⟩ := frame_setCell s p c
  refine ⟨?_, fun hf => hpages (h.single (hformat ▸ hf)), hcount ▸ h.count, ?_, ?_, ?_, ?_⟩
  · rw [hformat]; exact h.format
  · rw [hbpm]; exact h.bpm
  · rw [hoctave]; exact h.octave
  · rw [htone]; exact h.tone
  · rw [hvolume]; exact h.volume

lemma loose_setCell (h : Loose s) (hp : p < total s) (hsize : (hits c).length ≤ 8)
    (hplayable : ∀ x ∈ hits c, Playable x)
    (htied : ∀ x ∈ hits c, x.tie = true → s.format = 3 ∧ x.drum = 0) : Loose (s.setCell p c) := by
  refine ⟨settings_setCell h.toSettings p c, fun q hq => ?_, fun q hq => ?_, fun q hq => ?_⟩
  all_goals
    rw [total_setCell] at hq
    rw [cell_setCell hp]
    split_ifs
  · exact hsize
  · exact h.size q hq
  · exact hplayable
  · exact h.playable q hq
  · rw [(frame_setCell s p c).1]
    exact htied
  · rw [(frame_setCell s p c).1]
    exact h.tied q hq

lemma linked_setCell (hp : p < total s) (hkeeps : Keeps (hits (s.cell p)) (hits c)) (hq : q ≠ p)
    (h : Linked s q) : Linked (s.setCell p c) q := by
  intro x hx htie
  rw [cell_setCell hp, if_neg hq] at hx
  obtain ⟨h0, hsounds⟩ := h x hx htie
  refine ⟨h0, ?_⟩
  rw [cell_setCell hp]
  split_ifs with hprev
  · exact hkeeps x (hprev ▸ hsounds)
  · exact hsounds

/-- A cell in which all sounds that sounded, and whose ties are tied. -/
theorem valid_setCell (h : Valid s) (hp : p < total s) (hsize : (hits c).length ≤ 8)
    (hplayable : ∀ x ∈ hits c, Playable x)
    (htied : ∀ x ∈ hits c, x.tie = true → s.format = 3 ∧ x.drum = 0 ∧ p ≠ 0 ∧
      Sounds (hits (s.cell (p - 1))) x)
    (hkeeps : Keeps (hits (s.cell p)) (hits c)) : Valid (s.setCell p c) := by
  refine ⟨loose_setCell h.toLoose hp hsize hplayable fun x hx ht =>
    ⟨(htied x hx ht).1, (htied x hx ht).2.1⟩, fun q hq => ?_⟩
  rw [total_setCell] at hq
  by_cases hqp : q = p
  · subst hqp
    intro x hx htie
    rw [cell_setCell_self hp] at hx
    obtain ⟨-, -, h0, hsounds⟩ := htied x hx htie
    refine ⟨h0, ?_⟩
    rw [cell_setCell hp, if_neg (by omega)]
    exact hsounds
  · exact linked_setCell hp hkeeps hqp (h.linked q hq)

/-! ### Repair -/

lemma total_repairCell (s : Song) (p : ℕ) : total (s.repairCell p) = total s := by
  unfold Song.repairCell
  split
  · rfl
  · exact total_setCell s p _

lemma sounds_map {notes : List Hit} {f : Hit → Hit} (hf : ∀ n x, sameNote (f n) x = sameNote n x)
    (x : Hit) : Sounds (notes.map f) x ↔ Sounds notes x := by
  unfold Sounds
  simp [hf]

lemma repairCell_spec (h : Loose s) (hp : p < total s) :
    Loose (s.repairCell p) ∧ Linked (s.repairCell p) p ∧
      ∀ q < total s, Linked s q → Linked (s.repairCell p) q := by
  unfold Song.repairCell
  rcases hcell : s.cell p with _ | notes
  · refine ⟨h, fun x hx => ?_, fun _ _ hlinked => hlinked⟩
    rw [hcell] at hx
    cases hx
  dsimp only
  generalize hf : (fun x : Hit => if x.tie = true ∧ (p = 0 ∨
    noteIndex (hits (s.cell (p - 1))) x = none) then { x with tie := false } else x) = f
  have hsame : ∀ n x, sameNote (f n) x = sameNote n x := by
    intro n x
    rw [← hf]
    dsimp only
    split_ifs <;> rfl
  have hplay : ∀ x, Playable x → Playable (f x) := by
    intro x hx
    rw [← hf]
    dsimp only
    split_ifs
    · exact { hx with }
    · exact hx
  have htie : ∀ x, (f x).tie = true → f x = x ∧ x.tie = true ∧ p ≠ 0 ∧
      Sounds (hits (s.cell (p - 1))) x := by
    intro x hx
    rw [← hf] at hx ⊢
    dsimp only at hx ⊢
    split_ifs at hx ⊢ with hcut
    · refine ⟨rfl, hx, fun h0 => hcut ⟨hx, .inl h0⟩, ?_⟩
      rw [sounds_iff]
      exact fun hnone => hcut ⟨hx, .inr hnone⟩
  have hnotes : hits (s.cell p) = notes := by rw [hcell]; rfl
  have hmem : ∀ x ∈ hits (some (notes.map f)), ∃ n ∈ notes, f n = x := fun x hx =>
    mem_map.mp hx
  have hkeeps : Keeps (hits (s.cell p)) (hits (some (notes.map f))) := fun x hx =>
    (sounds_map hsame x).mpr (hnotes ▸ hx)
  have hloose : Loose (s.setCell p (some (notes.map f))) := by
    refine loose_setCell h hp ?_ (fun x hx => ?_) fun x hx ht => ?_
    · have := h.size p hp
      rw [hnotes] at this
      simpa [hits] using this
    · obtain ⟨n, hn, rfl⟩ := hmem x hx
      exact hplay n (h.playable p hp n (hnotes ▸ hn))
    obtain ⟨n, hn, rfl⟩ := hmem x hx
    obtain ⟨heq, ht', -⟩ := htie n ht
    rw [heq]
    exact h.tied p hp n (hnotes ▸ hn) ht'
  have hself : Linked (s.setCell p (some (notes.map f))) p := by
    intro x hx ht
    rw [cell_setCell_self hp] at hx
    obtain ⟨n, hn, rfl⟩ := hmem x hx
    obtain ⟨heq, -, h0, hsounds⟩ := htie n ht
    refine ⟨h0, ?_⟩
    rw [cell_setCell hp, if_neg (by omega), heq]
    exact hsounds
  refine ⟨hloose, hself, fun q _ hlinked => ?_⟩
  by_cases hqp : q = p
  · rw [hqp]
    exact hself
  · exact linked_setCell hp hkeeps hqp hlinked

/-- **Repairing the ties** makes a song of what only lacks notes for its ties. -/
theorem valid_repairTies (h : Loose s) :
    Valid s.repairTies ∧ s.repairTies.pageCount = s.pageCount := by
  have hloop : ∀ k ≤ total s, Loose ((List.range k).foldl Song.repairCell s) ∧
      total ((List.range k).foldl Song.repairCell s) = total s ∧
        ∀ q < k, Linked ((List.range k).foldl Song.repairCell s) q := by
    intro k
    induction k with
    | zero => exact fun _ => ⟨h, rfl, fun q hq => absurd hq (Nat.not_lt_zero q)⟩
    | succ k ih =>
      intro hk
      obtain ⟨hloose, htotal, hlinked⟩ := ih (by omega)
      rw [range_succ, foldl_append, foldl_cons, foldl_nil]
      obtain ⟨hloose', hself, hothers⟩ := repairCell_spec (p := k) hloose (by omega)
      refine ⟨hloose', (total_repairCell _ k).trans htotal, fun q hq => ?_⟩
      rcases Nat.lt_succ_iff_lt_or_eq.mp hq with hlt | rfl
      · exact hothers q (by omega) (hlinked q hlt)
      · exact hself
  obtain ⟨hloose, htotal, hlinked⟩ := hloop (total s) (Nat.le_refl _)
  have heq : s.repairTies = (List.range (total s)).foldl Song.repairCell s := rfl
  rw [← heq] at hloose htotal hlinked
  refine ⟨⟨hloose, fun q hq => hlinked q (by omega)⟩, ?_⟩
  unfold total at htotal
  omega

end C1auncher.Pinao.Edits
