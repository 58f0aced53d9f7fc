import C1auncher.Pinao.Voices

/-!
What holds of the eight voices in every run: an id sounds once, a voice that lets go is over after
the time of a release, and a key that goes up lets go of the first voice with its id only.
-/

namespace C1auncher.Pinao.VoiceRuns

open Pinao.Sequencer Pinao.Voices Synth

/-- The voice is heard and does not let go. -/
def Sounds (v : Voice) : Prop := v.active = true ∧ v.releasing = false

/-- The voice lets go: so many frames are left, and with none left it is over. -/
inductive Fades (v : Voice) (left : ℤ) : Prop
  | still (active : v.active = true) (releasing : v.releasing = true)
      (releaseLeft : v.releaseLeft = left) (pos : 0 < left)
  | gone (active : v.active = false) (none : left ≤ 0)

variable {v v' : Voice} {s s' : Synth} {id id' : ℤ} {i j k : Fin 8} {n : ℕ} {left : ℤ}

/-! ### One voice -/

lemma release_of_sounds (h : Sounds v) :
    v.release = { v with releasing := true, releaseLeft := releaseSamples } := by
  rw [Voice.release, h.1, h.2]
  rfl

lemma release_of_not_sounds (h : ¬Sounds v) : v.release = v := by
  rw [Voice.release, if_pos]
  unfold Sounds at h
  revert h
  cases v.active <;> cases v.releasing <;> simp

lemma fades_release (h : Sounds v) : Fades v.release releaseSamples := by
  rw [release_of_sounds h]
  exact .still h.1 rfl rfl (by decide)

lemma not_sounds_release (v : Voice) : ¬Sounds v.release := by
  by_cases h : Sounds v
  · intro hr
    rw [release_of_sounds h] at hr
    cases hr.2
  · rwa [release_of_not_sounds h]

@[simp] lemma id_release (v : Voice) : v.release.id = v.id := by
  unfold Voice.release
  split <;> rfl

@[simp] lemma release_release (v : Voice) : v.release.release = v.release :=
  release_of_not_sounds (not_sounds_release v)

@[simp] lemma active_release (v : Voice) : v.release.active = v.active := by
  unfold Voice.release
  split <;> rfl

lemma Fades.active_iff (h : Fades v left) : v.active = true ↔ 0 < left := by
  cases h with
  | still hactive _ _ hpos => exact iff_of_true hactive hpos
  | gone hactive hnone => exact iff_of_false (by rw [hactive]; decide) (not_lt.mpr hnone)

lemma Fades.not_sounds (h : Fades v left) : ¬Sounds v := fun hs => by
  cases h with
  | still _ hreleasing => exact absurd (hreleasing.symm.trans hs.2) (by decide)
  | gone hactive => exact absurd (hactive.symm.trans hs.1) (by decide)

lemma next_inactive (h : v.active = false) : v.next = v := by
  rw [Voice.next, h]
  rfl

lemma Fades.next (h : Fades v left) : Fades v.next (left - 1) := by
  have hexpire : v.expire = v := by
    unfold Voice.expire
    rw [release_of_not_sounds h.not_sounds, ite_self]
  cases h with
  | gone hactive hnone =>
    rw [next_inactive hactive]
    exact .gone hactive (by omega)
  | still hactive hreleasing hleft hpos =>
    have hnext : v.next = if left - 1 ≤ 0
        then { v with releaseLeft := left - 1, age := v.age + 1, active := false }
        else { v with releaseLeft := left - 1, age := v.age + 1 } := by
      unfold Voice.next
      rw [hexpire]
      simp only [hactive, Bool.not_true, Bool.false_eq_true, if_false, hreleasing, if_true, hleft,
        Bool.true_and, decide_eq_true_eq]
    rw [hnext]
    by_cases hle : left - 1 ≤ 0
    · rw [if_pos hle]
      exact .gone rfl hle
    · rw [if_neg hle]
      exact .still hactive hreleasing rfl (not_le.mp hle)

lemma next_sounds (h : Sounds v) : Sounds v.next ∨ Fades v.next (releaseSamples - 1) := by
  by_cases hage : v.duration ≤ v.age
  · right
    have hnext : v.next = { v with
        releasing := true, releaseLeft := releaseSamples - 1, age := v.age + 1 } := by
      unfold Voice.next Voice.expire
      rw [if_pos hage, release_of_sounds h, h.1]
      rfl
    rw [hnext]
    exact .still h.1 rfl rfl (by decide)
  · left
    have hnext : v.next = { v with age := v.age + 1 } := by
      unfold Voice.next Voice.expire
      rw [if_neg hage]
      simp only [h.1, Bool.not_true, Bool.false_eq_true, if_false, h.2, Bool.false_and]
    rw [hnext]
    exact h

lemma next_silent (h : ¬Sounds v) : ¬Sounds v.next := by
  by_cases hactive : v.active = false
  · rwa [next_inactive hactive]
  have hexpire : v.expire = v := by
    unfold Voice.expire
    rw [release_of_not_sounds h, ite_self]
  have hreleasing : v.releasing = true := by
    unfold Sounds at h
    simpa [hactive] using h
  have hnext : v.next.releasing = true := by
    unfold Voice.next
    simp only [hexpire, hreleasing, if_true, Bool.true_and]
    split_ifs
    · exact hreleasing
    · rfl
    · rfl
  exact fun hs => by rw [Sounds, hnext] at hs; cases hs.2

@[simp] lemma id_next (v : Voice) : v.next.id = v.id := by
  have hexpire : v.expire.id = v.id := by
    unfold Voice.expire
    split
    · exact id_release v
    · rfl
  unfold Voice.next
  split
  · rfl
  · simp only
    split <;> split <;> exact hexpire

@[simp] lemma id_frames (n : ℕ) (v : Voice) : (Voice.next^[n] v).id = v.id := by
  induction n generalizing v with
  | zero => rfl
  | succ n ih => rw [Function.iterate_succ_apply, ih, id_next]

lemma frames_inactive (n : ℕ) (h : v.active = false) : Voice.next^[n] v = v :=
  Function.iterate_fixed (next_inactive h) n

/-- **A voice that lets go is over when the frames that were left have gone by.** -/
theorem Fades.frames (n : ℕ) (h : Fades v left) : Fades (Voice.next^[n] v) (left - n) := by
  induction n generalizing v left with
  | zero => simpa using h
  | succ n ih =>
    have hrest := ih h.next
    have hleft : left - 1 - (n : ℤ) = left - ((n + 1 : ℕ) : ℤ) := by omega
    rwa [hleft] at hrest

lemma frames_sounds (n : ℕ) (h : Sounds v) :
    (∀ m ≤ n, Sounds (Voice.next^[m] v)) ∨
      ∃ k < n, (∀ m ≤ k, Sounds (Voice.next^[m] v)) ∧
        Fades (Voice.next^[k + 1] v) (releaseSamples - 1) := by
  induction n with
  | zero =>
    refine .inl fun m hm => ?_
    rw [Nat.le_zero.mp hm]
    exact h
  | succ n ih =>
    rcases ih with hall | ⟨k, hk, hlet⟩
    · have hnext := next_sounds (hall n le_rfl)
      rw [← Function.iterate_succ_apply' Voice.next n v] at hnext
      rcases hnext with hnext | hnext
      · refine .inl fun m hm => ?_
        rcases Nat.le_succ_iff.mp hm with hm | rfl
        · exact hall m hm
        · exact hnext
      · exact .inr ⟨n, Nat.lt_succ_self n, hall, hnext⟩
    · exact .inr ⟨k, hk.trans (Nat.lt_succ_self n), hlet⟩

/-- What a call with so many frames does to a voice that it leaves in place. -/
inductive Passes : ℕ → Voice → Voice → Prop
  | extended (v : Voice) (d : ℤ) : Passes 0 v { v with duration := d }
  | released (v : Voice) : Passes 0 v v.release
  | rendered (n : ℕ) (v : Voice) : Passes n v (Voice.next^[n] v)

lemma Passes.refl (v : Voice) : Passes 0 v v := .rendered 0 v

lemma Passes.id_eq (h : Passes n v v') : v'.id = v.id := by
  cases h with
  | extended d => rfl
  | released => exact id_release v
  | rendered n => exact id_frames n v

lemma Passes.sounds (h : Passes n v v') (hs : Sounds v') : Sounds v := by
  cases h with
  | extended d => exact hs
  | released => exact absurd hs (not_sounds_release v)
  | rendered n =>
    by_contra hnot
    induction n generalizing v with
    | zero => exact hnot hs
    | succ n ih =>
      rw [Function.iterate_succ_apply] at hs
      exact ih hs (next_silent hnot)

lemma Passes.fades (h : Passes n v v') (hf : Fades v left) : Fades v' (left - n) := by
  cases h with
  | extended d =>
    rw [Nat.cast_zero, sub_zero]
    cases hf with
    | still hactive hreleasing hleft hpos => exact .still hactive hreleasing hleft hpos
    | gone hactive hnone => exact .gone hactive hnone
  | released =>
    rw [Nat.cast_zero, sub_zero, release_of_not_sounds hf.not_sounds]
    exact hf
  | rendered n => exact hf.frames n

/-! ### The slot of a new note -/

lemma releaseOlder_voice (s : Synth) (id : ℤ) (i : Fin 8) :
    (s.releaseOlder id).voices i =
      if (s.voices i).active ∧ (s.voices i).id = id then (s.voices i).release
      else s.voices i := by
  simp [releaseOlder]

lemma passes_releaseOlder (s : Synth) (id : ℤ) (i : Fin 8) :
    Passes 0 (s.voices i) ((s.releaseOlder id).voices i) := by
  rw [releaseOlder_voice]
  split
  · exact .released _
  · exact .refl _

lemma silent_releaseOlder (s : Synth) (id : ℤ) (i : Fin 8)
    (h : ((s.releaseOlder id).voices i).id = id) : ¬Sounds ((s.releaseOlder id).voices i) := by
  have hid := (passes_releaseOlder s id i).id_eq
  rw [releaseOlder_voice]
  split
  · exact not_sounds_release _
  · rename_i hnot
    exact fun hs => hnot ⟨hs.1, hid.symm.trans h⟩

lemma slot_spec (s : Synth) (id : ℤ) :
    (s.voices (s.slot id)).active = false ∨
      ((∀ i, (s.voices i).active = true) ∧
        (s.open_ id (s.slot id) = true ∨ ∀ i, s.open_ id i = false)) := by
  unfold slot
  rcases hfree : Fin.find? fun i => !(s.voices i).active with _ | i
  · right
    refine ⟨fun i => by simpa using Fin.eq_false_of_find?_eq_none hfree i, ?_⟩
    rcases hleast : Slots.least (s.open_ id) fun i => (s.voices i).serial.toNat with _ | i
    · right
      intro i
      by_contra hopen
      obtain ⟨i', hi'⟩ : ∃ i', Slots.least (s.open_ id) (fun i => (s.voices i).serial.toNat) =
          some i' := Slots.least_of_ok (Bool.eq_true_of_not_eq_false hopen)
      rw [hleast] at hi'
      cases hi'
    · exact .inl (Slots.least_eq_some hleast).1
  · left
    simpa using Fin.eq_true_of_find?_eq_some hfree

/-- A note begins: in its slot, with what the caller writes into it. -/
def begun (s : Synth) (id : ℤ) (f : Voice → Voice) : Synth :=
  (s.allocate id).1.edit (s.allocate id).2 f

/-- What a call does to the voices: the id of the note that it begins, and its frames. -/
structure Turned (begins : Option ℤ) (n : ℕ) (s s' : Synth) : Prop where
  taken : ∀ id, begins = some id → Sounds (s'.voices (s.allocate id).2) ∧
    (s'.voices (s.allocate id).2).id = id
  older : ∀ id, begins = some id → ∀ i, i ≠ (s.allocate id).2 → (s'.voices i).id = id →
    ¬Sounds (s'.voices i)
  rest : ∀ i, (begins.map fun id => (s.allocate id).2) ≠ some i →
    Passes n (s.voices i) (s'.voices i)

lemma Turned.of_passes (h : ∀ i, Passes n (s.voices i) (s'.voices i)) : Turned none n s s' :=
  ⟨nofun, nofun, fun i _ => h i⟩

lemma turned_begun (s : Synth) (id : ℤ) (f : Voice → Voice) (hf : ∀ v, Sounds v → Sounds (f v))
    (hid : ∀ v, (f v).id = v.id) : Turned (some id) 0 s (begun s id f) := by
  have hslot : (begun s id f).voices (s.allocate id).2 =
      f { active := true, id := id, serial := s.serial + 1 } := by
    simp [begun, edit, allocate, releaseOlder]
  have hother : ∀ i, i ≠ (s.allocate id).2 →
      (begun s id f).voices i = (s.releaseOlder id).voices i := by
    intro i hi
    have hi' : i ≠ (s.releaseOlder id).slot id := hi
    simp [begun, edit, allocate, Function.update_of_ne hi']
  constructor
  · rintro _ ⟨⟩
    rw [hslot, hid]
    exact ⟨hf _ ⟨rfl, rfl⟩, rfl⟩
  · rintro _ ⟨⟩ i hi
    rw [hother i hi]
    exact silent_releaseOlder s id i
  intro i hi
  rw [hother i fun h => hi (congrArg some h.symm)]
  exact passes_releaseOlder s id i

/-! ### Notes that end -/

lemma noteOff_cases (s : Synth) (id : ℤ) :
    (s.noteOff id = s ∧ ∀ i, (s.voices i).active = true → (s.voices i).id ≠ id) ∨
      ∃ k, s.noteOff id = s.edit k Voice.release ∧ (s.voices k).active = true ∧
        (s.voices k).id = id ∧ ∀ i < k, (s.voices i).active = true → (s.voices i).id ≠ id := by
  unfold noteOff
  rcases hfirst : Fin.find? fun i => (s.voices i).active && (s.voices i).id == id with _ | k
  · refine .inl ⟨rfl, fun i hactive hid => ?_⟩
    have := Fin.eq_false_of_find?_eq_none hfirst i
    simp [hactive, hid] at this
  have hk := Fin.eq_true_of_find?_eq_some hfirst
  have hbefore := Fin.eq_false_of_find?_eq_some_of_lt hfirst
  simp only [Bool.and_eq_true, beq_iff_eq] at hk
  refine .inr ⟨k, rfl, hk.1, hk.2, fun i hi hactive hid => ?_⟩
  have := hbefore i hi
  simp [hactive, hid] at this

lemma edit_voice (s : Synth) (k i : Fin 8) (f : Voice → Voice) :
    (s.edit k f).voices i = if i = k then f (s.voices i) else s.voices i := by
  unfold edit
  by_cases h : i = k
  · rw [if_pos h, h]
    exact Function.update_self ..
  · rw [if_neg h]
    exact Function.update_of_ne h ..

lemma noteOff_voice (s : Synth) (id : ℤ) (i : Fin 8) :
    (s.noteOff id).voices i = s.voices i ∨ (s.noteOff id).voices i = (s.voices i).release := by
  rcases noteOff_cases s id with ⟨hsame, -⟩ | ⟨k, hedit, -⟩
  · exact .inl (by rw [hsame])
  rw [hedit, edit_voice]
  split
  · exact .inr rfl
  · exact .inl rfl

lemma noteOff_other (s : Synth) (h : (s.voices i).id ≠ id) :
    (s.noteOff id).voices i = s.voices i := by
  rcases noteOff_cases s id with ⟨hsame, -⟩ | ⟨k, hedit, -, hid, -⟩
  · rw [hsame]
  rw [hedit, edit_voice, if_neg]
  rintro rfl
  exact h hid

def Silent (s : Synth) (id : ℤ) : Prop := ∀ i, Sounds (s.voices i) → (s.voices i).id ≠ id

/-- A voice with the id stands in a slot before one with the id that sounds. -/
def Hidden (s : Synth) (id : ℤ) : Prop :=
  ∃ i j, i < j ∧ (s.voices i).active = true ∧ (s.voices i).id = id ∧
    Sounds (s.voices j) ∧ (s.voices j).id = id

/-- **A `NoteOff` ends the note, unless another voice with its id stands before it.** -/
theorem silent_noteOff (s : Synth) (id : ℤ) : Silent (s.noteOff id) id ↔ ¬Hidden s id := by
  rcases noteOff_cases s id with ⟨hsame, hnone⟩ | ⟨k, hedit, hactive, hid, hfirst⟩
  · rw [hsame]
    refine ⟨fun _ => ?_, fun _ i hi => hnone i hi.1⟩
    rintro ⟨i, -, -, hi, hi', -⟩
    exact hnone i hi hi'
  constructor
  · rintro hsilent ⟨i, j, hij, hi, hi', hj, hj'⟩
    have hk : k ≤ i := not_lt.mp fun hlt => hfirst i hlt hi hi'
    have hsame : (s.noteOff id).voices j = s.voices j := by
      rw [hedit, edit_voice, if_neg (ne_of_gt (hk.trans_lt hij))]
    refine hsilent j ?_ ?_
    · rwa [hsame]
    · rwa [hsame]
  · intro hnot i hi hi'
    have hne : i ≠ k := by
      rintro rfl
      rw [hedit, edit_voice, if_pos rfl] at hi
      exact not_sounds_release _ hi
    rw [hedit, edit_voice, if_neg hne] at hi hi'
    have hk : k ≤ i := not_lt.mp fun hlt => hfirst i hlt hi.1 hi'
    exact hnot ⟨k, i, lt_of_le_of_ne hk hne.symm, hactive, hid, hi, hi'⟩

def Agrees (id : ℤ) (s s' : Synth) : Prop :=
  ∀ i, (s'.voices i).id = (s.voices i).id ∧ ((s.voices i).id = id → s'.voices i = s.voices i)

lemma Agrees.refl (id : ℤ) (s : Synth) : Agrees id s s := fun _ => ⟨rfl, fun _ => rfl⟩

lemma Agrees.trans {s'' : Synth} (h : Agrees id s s') (h' : Agrees id s' s'') : Agrees id s s'' :=
  fun i => ⟨(h' i).1.trans (h i).1, fun hid =>
    ((h' i).2 ((h i).1.trans hid)).trans ((h i).2 hid)⟩

lemma Agrees.silent (h : Agrees id s s') : Silent s' id ↔ Silent s id := by
  refine forall_congr' fun i => ?_
  rw [(h i).1]
  refine ⟨fun hs hsounds hid => hs ?_ hid, fun hs hsounds hid => hs ?_ hid⟩
  · rwa [(h i).2 hid]
  · rwa [← (h i).2 hid]

lemma Agrees.hidden (h : Agrees id s s') : Hidden s' id ↔ Hidden s id := by
  constructor
  · rintro ⟨i, j, hij, hi, hi', hj, hj'⟩
    rw [(h i).1] at hi'
    rw [(h j).1] at hj'
    rw [(h i).2 hi'] at hi
    rw [(h j).2 hj'] at hj
    exact ⟨i, j, hij, hi, hi', hj, hj'⟩
  · rintro ⟨i, j, hij, hi, hi', hj, hj'⟩
    refine ⟨i, j, hij, ?_, (h i).1.trans hi', ?_, (h j).1.trans hj'⟩
    · rwa [(h i).2 hi']
    · rwa [(h j).2 hj']

lemma agrees_noteOff (s : Synth) (h : id' ≠ id) : Agrees id s (s.noteOff id') := by
  intro i
  refine ⟨?_, fun hid => noteOff_other s (by rw [hid]; exact h.symm)⟩
  rcases noteOff_voice s id' i with h' | h' <;> rw [h']
  exact id_release _

/-! ### The loop lets go -/

/-- The slots of the loop let go, those with their bit clear. -/
def clears (keep : ℕ) (slots : List (Fin 8)) (s : Synth) : Synth :=
  slots.foldl (fun s i => if !keep.testBit i.val then s.noteOff (300 + i.val) else s) s

lemma clears_voice (keep : ℕ) (slots : List (Fin 8)) (i : Fin 8) : ∀ s : Synth,
    (clears keep slots s).voices i = s.voices i ∨
      (clears keep slots s).voices i = (s.voices i).release := by
  induction slots with
  | nil => exact fun s => .inl rfl
  | cons j slots ih =>
    intro s
    unfold clears
    rw [List.foldl_cons]
    split
    · have hrest := ih (s.noteOff (300 + j.val))
      rcases noteOff_voice s (300 + j.val) i with hj | hj <;> rw [hj] at hrest
      · exact hrest
      · rw [release_release, or_self] at hrest
        exact .inr hrest
    · exact ih s

lemma agrees_clears (keep : ℕ) (slots : List (Fin 8)) : ∀ {s : Synth},
    (∀ i ∈ slots, id ≠ 300 + i.val) → Agrees id s (clears keep slots s) := by
  induction slots with
  | nil => exact fun {s} _ => .refl id s
  | cons j slots ih =>
    intro s hne
    have hrest := fun s' : Synth => ih (s := s') fun i hi => hne i (List.mem_cons_of_mem _ hi)
    unfold clears
    rw [List.foldl_cons]
    split
    · exact (agrees_noteOff s (hne j List.mem_cons_self).symm).trans (hrest _)
    · exact hrest s

lemma silent_clears {keep : ℕ} {slots : List (Fin 8)} (hnodup : slots.Nodup) (hmem : i ∈ slots)
    (hclear : keep.testBit i.val = false) (s : Synth) :
    Silent (clears keep slots s) (300 + i.val) ↔ ¬Hidden s (300 + i.val) := by
  obtain ⟨before, after, rfl⟩ := List.append_of_mem hmem
  have hids : ∀ {l : List (Fin 8)}, i ∉ l → ∀ j ∈ l, (300 + i.val : ℤ) ≠ 300 + j.val := by
    intro l hl j hj heq
    have hval : i = j := Fin.ext (by omega)
    exact hl (hval ▸ hj)
  have hnot : i ∉ before ∧ i ∉ after := by
    have := List.nodup_middle.mp hnodup
    simpa [not_or] using (List.nodup_cons.mp this).1
  have hsplit : clears keep (before ++ i :: after) s =
      clears keep after ((clears keep before s).noteOff (300 + i.val)) := by
    simp [clears, hclear]
  rw [hsplit, (agrees_clears keep after (hids hnot.2)).silent, silent_noteOff,
    (agrees_clears keep before (hids hnot.1)).hidden]

/-! ### Calls -/

lemma turned_noteOff (s : Synth) (id : ℤ) : Turned none 0 s (s.noteOff id) :=
  .of_passes fun i => by
    rcases noteOff_voice s id i with h | h <;> rw [h]
    · exact .refl _
    · exact .released _

lemma turned_noteOn (s : Synth) (id midi timbre : ℤ) (audible : Bool) :
    Turned (if audible then some id else none) 0 s (s.noteOn id midi timbre audible) := by
  cases audible with
  | false => exact turned_noteOff s id
  | true =>
    exact turned_begun s id
      (fun v => { v with
        timbre := if timbre < 0 ∨ 2 < timbre then 0 else timbre, midi := min (max midi 36) 96
        duration := maxHoldSamples })
      (fun _ h => h) fun _ => rfl

lemma turned_drum (s : Synth) (id kind : ℤ) : Turned (some id) 0 s (s.drum id kind) :=
  turned_begun s id
    (fun v => { v with
      drum := true, timbre := if kind < 0 ∨ 3 < kind then 0 else kind
      duration := drumDuration (if kind < 0 ∨ 3 < kind then 0 else kind) })
    (fun _ h => h) fun _ => rfl

lemma turned_hold (s : Synth) (id midi tone : ℤ) :
    Turned (if (s.held id midi tone).isNone then some id else none) 0 s
      (s.hold id midi tone) := by
  unfold hold
  rcases s.held id midi tone with _ | k
  · exact turned_noteOn s id midi tone true
  refine .of_passes fun i => ?_
  rw [edit_voice]
  split
  · split
    · exact .extended _ _
    · exact .refl _
  · exact .refl _

lemma turned_loopOff (s : Synth) (keep : ℕ) : Turned none 0 s (s.loopOff keep) :=
  .of_passes fun i => by
    rcases clears_voice keep (List.finRange 8) i { s with loopKeep := keep } with h | h
    · exact h ▸ .refl _
    · exact h ▸ .released _

lemma voices_frames (n : ℕ) (s : Synth) (i : Fin 8) :
    (Synth.frame^[n] s).voices i = Voice.next^[n] (s.voices i) := by
  induction n generalizing s with
  | zero => rfl
  | succ n ih => rw [Function.iterate_succ_apply, Function.iterate_succ_apply, ih]; rfl

lemma voices_render (s : Synth) (samples : ℕ) (i : Fin 8) :
    (s.render samples).voices i = Voice.next^[samples / 2] (s.voices i) := by
  unfold render
  rcases hactive : s.active with _ | _
  · have hi : (s.voices i).active = false := by
      unfold active at hactive
      simpa using List.any_eq_false.mp hactive i (List.mem_finRange i)
    rw [frames_inactive _ hi]
    rfl
  · exact voices_frames _ s i

theorem turned_run (s : Synth) (c : Call) : Turned (c.begins s) c.frames s (c.run s) := by
  cases c with
  | noteOn id midi timbre audible => exact turned_noteOn s id midi timbre audible
  | hold id midi tone => exact turned_hold s id midi tone
  | drum id kind => exact turned_drum s id kind
  | noteOff id => exact turned_noteOff s id
  | allOff => exact .of_passes fun i => .released _
  | setVolume v => exact .of_passes fun i => .refl _
  | render samples => exact .of_passes fun i => voices_render s samples i ▸ .rendered _ _
  | sound c =>
    obtain ⟨keep, kind, id, midi, tone, drum, volume⟩ := c
    cases kind with
    | offAll => exact .of_passes fun i => .released _
    | off => exact turned_noteOff s id
    | on => exact turned_noteOn s id midi tone true
    | hold => exact turned_hold s id midi tone
    | drum => exact turned_drum s id drum
    | loopOff => exact turned_loopOff s keep
    | volume => exact .of_passes fun i => .refl _

def Once (s : Synth) : Prop :=
  ∀ i j, Sounds (s.voices i) → Sounds (s.voices j) → (s.voices i).id = (s.voices j).id → i = j

lemma Turned.once {begins : Option ℤ} (h : Turned begins n s s') (honce : Once s) : Once s' := by
  have hold : ∀ i, (begins.map fun id => (s.allocate id).2) ≠ some i → Sounds (s'.voices i) →
      Sounds (s.voices i) ∧ (s'.voices i).id = (s.voices i).id :=
    fun i hi hs => ⟨(h.rest i hi).sounds hs, (h.rest i hi).id_eq⟩
  intro i j hi hj hid
  cases begins with
  | none =>
    obtain ⟨hi, hi'⟩ := hold i nofun hi
    obtain ⟨hj, hj'⟩ := hold j nofun hj
    exact honce i j hi hj (hi'.symm.trans (hid.trans hj'))
  | some id =>
    have hnew := (h.taken id rfl).2
    by_cases hik : i = (s.allocate id).2 <;> by_cases hjk : j = (s.allocate id).2
    · rw [hik, hjk]
    · exact absurd hj (h.older id rfl j hjk (hid.symm.trans (hik ▸ hnew)))
    · exact absurd hi (h.older id rfl i hik (hid.trans (hjk ▸ hnew)))
    obtain ⟨hi, hi'⟩ := hold i (fun he => hik (Option.some.inj he).symm) hi
    obtain ⟨hj, hj'⟩ := hold j (fun he => hjk (Option.some.inj he).symm) hj
    exact honce i j hi hj (hi'.symm.trans (hid.trans hj'))

lemma once_run (calls : List Call) : ∀ {s : Synth}, Once s → Once (run s calls) := by
  induction calls with
  | nil => exact fun h => h
  | cons c calls ih => exact fun h => ih ((turned_run _ c).once h)

/-! ### How a release ends -/

lemma fades_run (calls : List Call) : ∀ {s : Synth} {left : ℤ}, Fades (s.voices i) left →
    Untaken i s calls → Fades ((run s calls).voices i) (left - frames calls) := by
  induction calls with
  | nil =>
    intro s left h _
    have hleft : left - (frames [] : ℤ) = left := by simp [frames]
    rwa [hleft]
  | cons c calls ih =>
    intro s left h huntaken
    have hrest := ih (((turned_run s c).rest i huntaken.1).fades h) huntaken.2
    have hleft : left - c.frames - frames calls = left - frames (c :: calls) := by
      simp only [frames, List.map_cons, List.sum_cons, Nat.cast_add]
      omega
    rwa [hleft] at hrest

lemma ends_run {c : Call} (h : Sounds (s.voices i)) (huntaken : c.takes s ≠ some i)
    (hover : ¬Sounds ((c.run s).voices i)) :
    ∃ k ≤ c.frames, (∀ m ≤ k, Sounds ((Synth.frame^[m] s).voices i)) ∧
      ∀ calls, Untaken i (c.run s) calls →
        (((run (c.run s) calls).voices i).active = true ↔
          (c.frames - k + frames calls : ℤ) < releaseSamples) := by
  have hpass := (turned_run s c).rest i huntaken
  obtain ⟨k, hk, hall, hfades⟩ : ∃ k ≤ c.frames, (∀ m ≤ k, Sounds (Voice.next^[m] (s.voices i))) ∧
      Fades ((c.run s).voices i) (releaseSamples - (c.frames - k)) := by
    generalize (c.run s).voices i = v' at hpass hover
    generalize s.voices i = v at hpass h
    generalize c.frames = n at hpass
    cases hpass with
    | extended d => exact absurd h hover
    | released =>
      refine ⟨0, le_rfl, fun m hm => ?_, fades_release h⟩
      rw [Nat.le_zero.mp hm]
      exact h
    | rendered n =>
      rcases frames_sounds n h with hall | ⟨k, hk, hall, hfades⟩
      · exact absurd (hall n le_rfl) hover
      refine ⟨k, hk.le, hall, ?_⟩
      have hrest := hfades.frames (n - (k + 1))
      have hleft : releaseSamples - 1 - ((n - (k + 1) : ℕ) : ℤ) =
          releaseSamples - (n - k) := by omega
      rwa [← Function.iterate_add_apply, Nat.sub_add_cancel hk, hleft] at hrest
  refine ⟨k, hk, fun m hm => ?_, fun calls hcalls => ?_⟩
  · rw [voices_frames]
    exact hall m hm
  · rw [(fades_run calls hfades hcalls).active_iff]
    omega

/-! ### Every run -/

structure Orderly (s : Synth) : Prop where
  few : (Finset.univ.filter fun i => (s.voices i).active = true).card ≤ 8
  once : Once s
  ends : ∀ (c : Call) (i : Fin 8), Sounds (s.voices i) → c.takes s ≠ some i →
    ¬Sounds ((c.run s).voices i) →
    ∃ k ≤ c.frames, (∀ m ≤ k, Sounds ((Synth.frame^[m] s).voices i)) ∧
      ∀ calls, Untaken i (c.run s) calls →
        (((run (c.run s) calls).voices i).active = true ↔
          (c.frames - k + frames calls : ℤ) < releaseSamples)
  apart : ∀ (id : ℤ) (i : Fin 8), (s.voices i).id ≠ id → (s.noteOff id).voices i = s.voices i
  spares : ∀ (c : Call) (id : ℤ) (i : Fin 8), c.begins s = some id → c.takes s = some i →
    looped id = true → (∀ j, (s.voices j).active = true) → s.kept (s.voices i) = true →
    ∀ j, s.kept (s.voices j) = true
  silences : ∀ (c : Call) (id : ℤ), c.silences id → (Silent (c.run s) id ↔ ¬Hidden s id)

lemma spares_slot (hlooped : looped id = true) (hfull : ∀ j, (s.voices j).active = true)
    (hkept : s.kept (s.voices (s.allocate id).2) = true) (j : Fin 8) :
    s.kept (s.voices j) = true := by
  have hid : ∀ i, ((s.releaseOlder id).voices i).id = (s.voices i).id :=
    fun i => (passes_releaseOlder s id i).id_eq
  have hopen : ∀ i, (s.releaseOlder id).open_ id i = !s.kept (s.voices i) := by
    intro i
    unfold open_ kept
    rw [hid, hlooped, Bool.true_and]
    rfl
  rcases slot_spec (s.releaseOlder id) id with hfree | ⟨-, hopen' | hnone⟩
  · have hactive : ((s.releaseOlder id).voices ((s.releaseOlder id).slot id)).active = true := by
      rw [releaseOlder_voice]
      split
      · rw [active_release]
        exact hfull _
      · exact hfull _
    exact absurd (hfree.symm.trans hactive) (by decide)
  · rw [hopen] at hopen'
    have hslot : s.kept (s.voices ((s.releaseOlder id).slot id)) = true := hkept
    rw [hslot] at hopen'
    cases hopen'
  · simpa [hopen] using hnone j

lemma silences_run (s : Synth) {c : Call} (h : c.silences id) :
    Silent (c.run s) id ↔ ¬Hidden s id := by
  cases c with
  | noteOn id' midi timbre audible =>
    obtain ⟨rfl, rfl⟩ := h
    exact silent_noteOff s id'
  | noteOff id' =>
    obtain rfl := h
    exact silent_noteOff s id'
  | sound c =>
    obtain ⟨keep, kind, id', midi, tone, drum, volume⟩ := c
    cases kind with
    | off =>
      obtain rfl := h
      exact silent_noteOff s id'
    | loopOff =>
      obtain ⟨i, hclear, rfl⟩ := h
      exact silent_clears (List.nodup_finRange 8) (List.mem_finRange i) hclear
        { s with loopKeep := keep }
    | _ => exact h.elim
  | _ => exact h.elim

/-- **The voices of every run.** At most eight are heard and an id sounds once. A voice that stops
to sound is there for the time of a release and no longer, unless its slot goes to a new note. A
`NoteOff` leaves other ids alone, and ends its own unless another voice with the id, the old one of
a note that was struck again, stands in a slot before it. A note of the loop takes no slot that goes
on while there is another one. -/
theorem voices_orderly (calls : List Call) : Orderly (run newSynth calls) where
  few := (Finset.card_le_univ _).trans_eq (Fintype.card_fin 8)
  once := once_run calls fun _ _ hi => absurd hi.1 Bool.false_ne_true
  ends := fun _ _ => ends_run
  apart := fun _ _ => noteOff_other _
  spares := fun c id i hbegins htakes hlooped hfull hkept j => by
    rw [Call.takes, hbegins] at htakes
    obtain rfl := Option.some.inj htakes
    exact spares_slot hlooped hfull hkept j
  silences := fun _ _ => silences_run _

/-- A note struck twice: the key goes up and it sounds on. -/
theorem voices_silent_fails :
    ¬∀ (calls : List Call) (id : ℤ), Silent ((run newSynth calls).noteOff id) id := by
  intro h
  refine h [.noteOn 5 60 0 true, .noteOn 5 60 0 true] 5 1 ⟨?_, ?_⟩ ?_ <;> decide

end C1auncher.Pinao.VoiceRuns
