import C1auncher.Update.BootSelection
import C1auncher.Update.PendingRecord

/-!
The boots of a pending candidate, counted: one for each change of the boot identifier, up to
three, from each activation anew.
-/

namespace C1auncher.Update.PendingBoots

open Durable Durable.Prog CString List Option
open Update.StateStore Update.StateCommit Update.CommitProgress
open Update.Protocol Update.Transaction Update.Boot
open Update.Preparation Update.Moves Update.BootInvariant
open Update.BootRecovery Update.BootSelection Update.PendingRecord

/-! ### Tallies -/

/-- The boots of a candidate: the last one that was counted, and how many were. -/
abbrev Tally := Option (Text × ℕ)

namespace Tally

def last (t : Tally) : Option Text := t.map Prod.fst

def attempts (t : Tally) : ℕ := (t.map Prod.snd).getD 0

/-- A boot is counted unless it was the last one counted. -/
def boot (t : Tally) (bootId : Text) : Tally :=
  if t.last = some bootId then t else some (bootId, t.attempts + 1)

end Tally

def changes : Option Text → List Text → ℕ
  | _, [] => 0
  | last, id :: ids => (if last = some id then 0 else 1) + changes (some id) ids

lemma last_boot (t : Tally) (id : Text) : (t.boot id).last = some id := by
  unfold Tally.boot
  split_ifs with h
  · exact h
  · rfl

lemma attempts_boot (t : Tally) (id : Text) :
    (t.boot id).attempts = t.attempts + if t.last = some id then 0 else 1 := by
  unfold Tally.boot
  split_ifs <;> rfl

lemma attempts_foldl (t : Tally) (ids : List Text) :
    (ids.foldl Tally.boot t).attempts = t.attempts + changes t.last ids := by
  induction ids generalizing t with
  | nil => rfl
  | cons id ids ih =>
    rw [foldl_cons, ih, attempts_boot, last_boot, changes, Nat.add_assoc]

/-- What a record says of the boots of a candidate. -/
def tally (boots : Option Text) (digest : Text) : Tally :=
  (boots.bind scanPendingBoots).bind fun (recorded, bootId, attempts) =>
    if recorded = digest then some (bootId, attempts) else none

/-- There is no record, or one that was written. -/
def Readable (boots : Option Text) : Prop :=
  ∀ data, boots = some data → (scanPendingBoots data).isSome

/-- The boots of the candidate are to be counted from zero. -/
def Unstarted (boots : Option Text) (digest : Text) : Prop :=
  Readable boots ∧ tally boots digest = none

structure CountedBy (boots boots' : Option Text) (digest bootId : Text) : Prop where
  readable : Readable boots
  repeated : (tally boots digest).last = some bootId → boots' = boots
  changed : (tally boots digest).last ≠ some bootId →
    (tally boots digest).attempts < pendingBootLimit ∧
      boots' = some (pendingBootsText digest bootId ((tally boots digest).attempts + 1))

variable {host : BootstrapRecord} {d d' : Device} {s : State} {bootId digest : Text}

lemma tally_pendingBootsText {attempts : ℕ} (hdigest : validDigest digest)
    (hid : validBootId bootId) (hpos : 1 ≤ attempts) (hle : attempts ≤ pendingBootLimit) :
    scanPendingBoots (pendingBootsText digest bootId attempts) = some (digest, bootId, attempts) ∧
      tally (some (pendingBootsText digest bootId attempts)) digest = some (bootId, attempts) := by
  have hscan := scanPendingBoots_text hdigest hid hpos hle
  exact ⟨hscan, by simp [tally, hscan]⟩

lemma CountedBy.tally {boots boots' : Option Text} (h : CountedBy boots boots' digest bootId)
    (hdigest : validDigest digest) (hid : validBootId bootId) :
    Readable boots' ∧ tally boots' digest = (tally boots digest).boot bootId := by
  unfold Tally.boot
  split_ifs with hlast
  · rw [h.repeated hlast]
    exact ⟨h.readable, rfl⟩
  obtain ⟨hlt, heq⟩ := h.changed hlast
  obtain ⟨hscan, htally⟩ := tally_pendingBootsText hdigest hid
    (Nat.le_add_left 1 (PendingBoots.tally boots digest).attempts) hlt
  rw [heq]
  exact ⟨fun data hdata => by rw [← some.inj hdata, hscan]; rfl, htally⟩

/-! ### One call -/

/-- What the first part of the count finds: nothing to count, or how many boots were counted. -/
def Found (boots : Option Text) (digest bootId : Text) (attempts : Option ℕ) : Prop :=
  Readable boots ∧ match attempts with
    | none => (tally boots digest).last = some bootId
    | some n => (tally boots digest).last ≠ some bootId ∧ (tally boots digest).attempts = n

lemma found_of_scan {data recorded previousBoot : Text} {attempts : ℕ}
    (h : parsePendingBoots data = some (recorded, previousBoot, attempts)) :
    Found (some data) digest bootId
      (if recorded ≠ digest then some 0 else if previousBoot = bootId then none
        else some attempts) := by
  rw [← scanPendingBoots_eq] at h
  refine ⟨fun data' hd => by rw [← some.inj hd, h]; rfl, ?_⟩
  have htally : tally (some data) digest =
      if recorded = digest then some (previousBoot, attempts) else none := by
    simp [tally, h]
  rw [htally]
  by_cases hr : recorded = digest
  · rw [if_pos hr, if_neg (not_not.mpr hr)]
    split_ifs with hb
    · exact congrArg some hb
    · exact ⟨fun h => hb (some.inj h), rfl⟩
  · rw [if_neg hr, if_pos hr]
    exact ⟨nofun, rfl⟩

lemma wp_countPendingBoot_tally (s : State) (bootId : Text) (d : Device) :
    wp (countPendingBoot s bootId)
      (fun counted d' => ∃ b, d' = { d with boots := b } ∧
        (counted = false → validBootId bootId ∧ CountedBy d.boots b s.digest bootId))
      (fun d' => ∃ b, d' = { d with boots := b }) (fun d' => ∃ b, d' = { d with boots := b })
      d := by
  have hd : ∃ b, d = { d with boots := b } := ⟨d.boots, rfl⟩
  refine wp_bind (wp_require (fun hid => wp_bind (wp_mono
    (Q := fun attempts d' => d' = d ∧ Found d.boots s.digest bootId attempts) ?_ ?_
    (fun _ h => h) fun _ h => h)) fun _ => hd)
  · refine wp_bind (wp_look ?_ hd hd)
    rcases d.boots with _ | data
    · exact wp_pure ⟨rfl, nofun, nofun, rfl⟩
    refine wp_bind (wp_get (fun record hrecord => ?_) fun _ => hd)
    have hfound : Found (some data) s.digest bootId _ := found_of_scan hrecord
    dsimp only
    split_ifs at hfound ⊢ <;> exact wp_pure ⟨rfl, hfound⟩
  · rintro attempts d' ⟨hd', hreadable, hfound⟩
    obtain rfl : d = d' := hd'.symm
    rcases attempts with _ | attempts
    · exact wp_pure ⟨d.boots, rfl, fun _ => ⟨hid, hreadable, fun _ => rfl,
        fun hne => absurd hfound hne⟩⟩
    dsimp only
    split_ifs with hfull
    · exact wp_pure ⟨d.boots, rfl, nofun⟩
    obtain ⟨hne, rfl⟩ := hfound
    refine wp_bind (wp_atomicWrite (P := fun d' => ∃ b, d' = { d with boots := b }) hd
      ⟨_, rfl⟩ (wp_pure ⟨_, rfl, fun _ => ⟨hid, hreadable, fun heq => absurd heq hne,
        fun _ => ⟨not_le.mp hfull, rfl⟩⟩⟩))

variable {previous : Text} {rs : List Reply}

lemma wp_rollbackLocked_idle (hs : d.state = some s) :
    wp (rollbackLocked previous s)
      (fun s' d' => d'.state = some s' ∧ s'.phase = .idle ∧ d'.current = some previous ∧
        d'.previous = d.previous)
      (fun _ => True) (fun _ => True) d := by
  have hleave : ∀ (s : State) (d : Device), d.state = some s → wp (leaveCandidate s)
      (fun s' d' => d'.state = some s' ∧ s'.phase = .idle ∧ d'.current = d.current ∧
        d'.previous = d.previous) (fun _ => True) (fun _ => True) d := by
    intro s d hs
    have hclear : ∀ s' d', d'.state = some s' → d'.current = d.current →
        d'.previous = d.previous → wp (do
          .require (s'.phase = .idle)
          clearRollbackMarker
          pure s' : Prog Device State)
          (fun s' d' => d'.state = some s' ∧ s'.phase = .idle ∧ d'.current = d.current ∧
            d'.previous = d.previous) (fun _ => True) (fun _ => True) d' := by
      intro s' d' hs' hc hp
      refine wp_bind (wp_require (fun hidle => ?_) fun _ => trivial)
      exact wp_bind (wp_clearRollbackMarker trivial trivial (wp_pure ⟨hs', hidle, hc, hp⟩))
    unfold leaveCandidate
    split_ifs
    · exact wp_bind (wp_stateAdvance hs trivial fun _ st b _ =>
        ⟨trivial, fun hst => hclear _ _ hst rfl rfl⟩)
    · exact wp_bind (wp_pure (hclear s d hs rfl rfl))
  rw [rollbackLocked_eq]
  refine wp_bind (wp_bind (wp_require (fun _ => wp_atomicWrite trivial trivial ?_)
    fun _ => trivial))
  refine wp_bind (wp_atomicPointer trivial trivial ?_)
  split_ifs
  · exact wp_bind (wp_stateAdvance (s := s) hs trivial fun _ st b _ =>
      ⟨trivial, fun hst => hleave _ _ hst⟩)
  · exact wp_bind (wp_pure (hleave s _ hs))

/-- What a recovery comes to for a pending candidate: it stays, or was rolled back. -/
def Stays (d : Device) (s s' : State) (d' : Device) : Prop :=
  d'.state = some s' ∧ d'.previous = d.previous ∧
    (s' = s ∧ d'.boots = d.boots ∧ d'.store = d.store ∨
      s'.phase = .idle ∧ d'.current = d.previous)

lemma wp_rollbackLocked_stays (hs : d.state = some s)
    (hprevious : d.previous = some previous) :
    wp (rollbackLocked previous s) (Stays d s) (fun _ => True) (fun _ => True) d :=
  wp_mono (wp_rollbackLocked_idle hs)
    (fun _ _ ⟨hs', hidle, hc, hp⟩ => ⟨hs', hp, .inr ⟨hidle, hc.trans hprevious.symm⟩⟩)
    (fun _ h => h) fun _ h => h

lemma wp_recoverLocked_pending (hs : d.state = some s) (hphase : s.phase = .pendingBoot) :
    wp (recoverLocked host s) (Stays d s) (fun _ => True) (fun _ => True) d := by
  refine wp_bind (wp_rollbackMarkerStatus trivial (fun _ => ?_) fun _ => ?_)
  · rw [if_neg Bool.false_ne_true, if_neg (not_not.mpr hphase)]
    refine wp_bind (wp_readPointer trivial fun previous hprevious => ?_)
    refine wp_bind (wp_validateRelease trivial fun _ => ?_)
    have hvalid : wp (attempt (validateRelease host (candidateTarget s) (some s)))
        (fun _ d' => d' = d) (fun _ => True) (fun _ => True) d :=
      wp_attempt (wp_mono (wp_validateRelease (P := (· = d)) (Q := fun _ d' => d' = d) rfl
        fun _ => rfl) (fun _ _ h => h) (fun _ h => h) fun _ _ => trivial)
    refine wp_bind (wp_mono hvalid (fun valid d' h => ?_) (fun _ h => h) fun _ h => h)
    subst h
    have hcurrent : wp ((if valid.isSome then attempt (readPointer .current) else pure none) :
        Prog Device (Option Text)) (fun _ d'' => d'' = d') (fun _ => True) (fun _ => True) d' := by
      split_ifs
      · exact wp_attempt (wp_mono (wp_readPointer (P := (· = d')) (Q := fun _ d'' => d'' = d') rfl
          fun _ _ => rfl) (fun _ _ h => h) (fun _ h => h) fun _ _ => trivial)
      · exact wp_pure rfl
    refine wp_bind (wp_mono hcurrent (fun current d'' h => ?_) (fun _ h => h) fun _ h => h)
    subst h
    split_ifs
    · exact wp_pure ⟨hs, rfl, .inl ⟨rfl, rfl, rfl⟩⟩
    · exact wp_bind (wp_atomicPointer trivial trivial
        (wp_pure ⟨hs, rfl, .inl ⟨rfl, rfl, rfl⟩⟩))
    · exact wp_rollbackLocked_stays hs hprevious
  · rw [if_pos rfl]
    refine wp_bind (wp_require (fun _ => ?_) fun _ => trivial)
    refine wp_bind (wp_readPointer trivial fun previous hprevious => ?_)
    refine wp_bind (wp_validateRelease trivial fun _ => ?_)
    rw [hphase]
    exact wp_rollbackLocked_stays hs hprevious

/-- How a call for a pending candidate ends that returns. -/
inductive Ended (d : Device) (s : State) (bootId : Text) (d' : Device) : Prop
  | counted (hid : validBootId bootId) (hstore : d'.store = d.store)
      (hcounted : CountedBy d.boots d'.boots s.digest bootId)
  | rolledBack (s' : State) (hs' : d'.state = some s') (hidle : s'.phase = .idle)
      (hcurrent : d'.current = d.previous)

lemma wp_recoverBoot_pending (hs : d.state = some s) (hphase : s.phase = .pendingBoot) :
    wp (recoverBoot host bootId) (fun _ d' => d'.previous = d.previous ∧ Ended d s bootId d')
      (fun _ => True) (fun _ => True) d := by
  refine wp_bind (wp_require (fun _ => wp_bind (wp_tick (wp_bind ?_) trivial trivial))
    fun _ => trivial)
  refine wp_stateLoad hs ?_ trivial trivial
  refine wp_bind (wp_mono (wp_recoverLocked_pending hs hphase) ?_ (fun _ h => h) fun _ h => h)
  rintro s' d' ⟨hs', hp, ⟨rfl, hb, hst⟩ | ⟨hidle, hc⟩⟩
  · rw [if_pos hphase]
    have hback : ∀ b, wp (do
        let previous ← readPointer .previous
        validateRelease host previous none
        let _ ← rollbackLocked previous s' : Prog Device Unit)
        (fun _ d' => d'.previous = d.previous ∧ Ended d s' bootId d') (fun _ => True)
        (fun _ => True) { d' with boots := b } := by
      intro b
      refine wp_bind (wp_readPointer trivial fun previous hprevious => ?_)
      refine wp_bind (wp_validateRelease trivial fun _ => ?_)
      refine wp_bind (wp_mono (wp_rollbackLocked_idle (s := s') hs') ?_ (fun _ h => h)
        fun _ h => h)
      rintro s'' d'' ⟨hs'', hidle, hc, hp'⟩
      exact wp_pure ⟨hp'.trans hp, .rolledBack s'' hs'' hidle
        (hc.trans (hprevious.symm.trans hp))⟩
    refine wp_bind (wp_attempt (wp_mono (wp_countPendingBoot_tally s' bootId d') ?_ ?_
      fun _ _ => trivial))
    · rintro counted _ ⟨b, rfl, hcounted⟩
      split_ifs with hfalse
      · obtain ⟨hid, hby⟩ := hcounted (some.inj hfalse)
        exact wp_pure ⟨hp, .counted hid hst (hb ▸ hby)⟩
      · exact hback b
    · rintro _ ⟨b, rfl⟩
      rw [if_neg (by simp)]
      exact hback b
  · rw [if_neg (by simp [hidle])]
    exact wp_clearPendingBoots (fun _ => trivial)
      fun b => ⟨hp, .rolledBack s' hs' hidle hc⟩

/-! ### Calls one after another -/

def Pending (digest : Text) (d : Device) : Prop :=
  ∃ s, d.state = some s ∧ s.phase = .pendingBoot ∧ s.digest = digest

/-- Calls of `c1_update_recover_boot` that return and leave the candidate pending. -/
inductive Boots (host : BootstrapRecord) (digest : Text) (d : Device) : List Text → Device → Prop
  | start (h : Pending digest d) : Boots host digest d [] d
  | boot {ids : List Text} {d' : Device} {bootId : Text} {rs : List Reply}
      (h : Boots host digest d ids d') (hret : (recoverBoot host bootId rs d').1 = .done ())
      (hstays : Pending digest ((recoverBoot host bootId).after rs d')) :
      Boots host digest d (ids ++ [bootId]) ((recoverBoot host bootId).after rs d')

lemma Boots.pending {ids : List Text} (h : Boots host digest d ids d') : Pending digest d' := by
  cases h with
  | start h => exact h
  | boot _ _ hstays => exact hstays

lemma Pending.validDigest (h : Pending digest d) : validDigest digest := by
  obtain ⟨s, hs, hphase, rfl⟩ := h
  rcases writable_of_readState hs with rfl | hw
  · cases hphase
  · exact hw.digest

lemma countedBy_of_stays (h : Pending digest d)
    (hret : (recoverBoot host bootId rs d).1 = .done ())
    (hstays : Pending digest ((recoverBoot host bootId).after rs d)) :
    validBootId bootId ∧
      CountedBy d.boots ((recoverBoot host bootId).after rs d).boots digest bootId := by
  obtain ⟨s, hs, hphase, rfl⟩ := h
  obtain ⟨-, hended⟩ := wp_done (wp_recoverBoot_pending hs hphase) hret
  cases hended with
  | counted hid _ hcounted => exact ⟨hid, hcounted⟩
  | rolledBack s' hs' hidle _ =>
    obtain ⟨s'', hs'', hphase'', -⟩ := hstays
    rw [some.inj (hs'.symm.trans hs''), hphase''] at hidle
    cases hidle

/-- **The record is the tally of the boots**: over all calls that leave the candidate pending a
boot is counted exactly if its identifier is not the one counted last. -/
theorem boots_tally {ids : List Text} (h : Boots host digest d ids d') :
    tally d'.boots digest = ids.foldl Tally.boot (tally d.boots digest) ∧
      (ids ≠ [] → Readable d'.boots) := by
  induction h with
  | start h => exact ⟨rfl, fun hne => absurd rfl hne⟩
  | @boot ids d' bootId rs h hret hstays ih =>
    obtain ⟨hid, hby⟩ := countedBy_of_stays h.pending hret hstays
    obtain ⟨hreadable, htally⟩ := hby.tally h.pending.validDigest hid
    refine ⟨?_, fun _ => hreadable⟩
    rw [htally, ih.1, foldl_append, foldl_cons, foldl_nil]

lemma attempts_tally_le (boots : Option Text) (digest : Text) :
    (tally boots digest).attempts ≤ pendingBootLimit := by
  rcases hb : boots.bind scanPendingBoots with _ | ⟨recorded, bootId, attempts⟩
  · simp [tally, hb, Tally.attempts]
  obtain ⟨data, -, hscan⟩ := bind_eq_some_iff.mp hb
  rw [scanPendingBoots_eq] at hscan
  have hle := (eq_of_parsePendingBoots hscan).2.1
  simp only [tally, hb, bind_some]
  split_ifs
  · exact hle
  · exact Nat.zero_le _

/-! ### The last boot of a candidate -/

/-- The candidate has had its boots, or its record is not one that was written. -/
def Exhausted (boots : Option Text) (digest bootId : Text) : Prop :=
  ¬Readable boots ∨
    (tally boots digest).attempts = pendingBootLimit ∧ (tally boots digest).last ≠ some bootId

lemma not_countedBy {boots boots' : Option Text} (h : Exhausted boots digest bootId) :
    ¬CountedBy boots boots' digest bootId := by
  rintro ⟨hreadable, -, hchanged⟩
  rcases h with h | ⟨hfull, hlast⟩
  · exact h hreadable
  · exact absurd (hchanged hlast).1 (by omega)

lemma not_bootsLeft (h : Exhausted d.boots s.digest bootId) : ¬bootsLeft d.boots s bootId := by
  unfold bootsLeft
  rcases hb : d.boots with _ | data
  · rw [hb] at h
    rcases h with hno | ⟨hfull, -⟩
    · exact absurd (nofun : Readable none) hno
    · simp [tally, Tally.attempts, pendingBootLimit] at hfull
  rw [hb, Exhausted] at h
  rcases hp : parsePendingBoots data with _ | ⟨recorded, previousBoot, attempts⟩
  · simp [hp]
  have hscan := (scanPendingBoots_eq data).trans hp
  have hreadable : Readable (some data) := fun data' hd => by
    rw [← some.inj hd, hscan]
    rfl
  obtain ⟨hfull, hlast⟩ := h.resolve_left (not_not.mpr hreadable)
  have htally : tally (some data) s.digest =
      if recorded = s.digest then some (previousBoot, attempts) else none := by
    simp [tally, hscan]
  rw [htally] at hfull hlast
  split_ifs at hfull hlast with hr
  · have hne : previousBoot ≠ bootId := fun hc => hlast (congrArg some hc)
    have hge : attempts = pendingBootLimit := hfull
    simp [hp, hr, hne, hge]
  · simp [Tally.attempts, pendingBootLimit] at hfull

lemma rolledBack_of_exhausted (hs : d.state = some s)
    (hphase : s.phase = .pendingBoot) (h : Exhausted d.boots s.digest bootId)
    (hret : (recoverBoot host bootId rs d).1 = .done ()) :
    (∃ s', ((recoverBoot host bootId).after rs d).state = some s' ∧ s'.phase = .idle) ∧
      ((recoverBoot host bootId).after rs d).current = d.previous := by
  obtain ⟨-, hended⟩ := wp_done (wp_recoverBoot_pending hs hphase) hret
  cases hended with
  | counted _ _ hcounted => exact absurd hcounted (not_countedBy h)
  | rolledBack s' hs' hidle hc => exact ⟨⟨s', hs', hidle⟩, hc⟩

lemma rollbackLocked_current (hst : Stored d.store s)
    (hprevious : acceptTarget d.previous = some previous) :
    ((rollbackLocked previous s).after [] d).current = some previous := by
  have hrest : ∀ (s : State) (d : Device), d.state = some s → d.current = some previous →
      wp (leaveCandidate s) (fun _ d' => d'.current = some previous)
        (fun d' => d'.current = some previous) (fun d' => d'.current = some previous) d := by
    intro s d hs hc
    have hclear : ∀ (s' : State) (d' : Device), d'.current = some previous → wp (do
          .require (s'.phase = .idle)
          clearRollbackMarker
          pure s' : Prog Device State)
          (fun _ d' => d'.current = some previous) (fun d' => d'.current = some previous)
          (fun d' => d'.current = some previous) d' := by
      intro s' d' hc'
      refine wp_bind (wp_require (fun _ => ?_) fun _ => hc')
      exact wp_bind (wp_clearRollbackMarker hc' hc' (wp_pure hc'))
    unfold leaveCandidate
    split_ifs
    · exact wp_bind (wp_stateAdvance hs hc fun _ st b _ => ⟨hc, fun _ => hclear _ _ hc⟩)
    · exact wp_bind (wp_pure (hclear s d hc))
  have hrun : rollbackLocked previous s [] d = (do
      let state ← (if s.phase = .pendingBoot then stateAdvance s .prepared false else pure s)
      leaveCandidate state : Prog Device State) []
        { d with marker := some (markerText s), current := some previous } :=
    (returns_markRollback hst.writable.digest).bind_eq.trans
      (returns_atomicPointer .current (parseTarget_of_accept hprevious)).bind_eq
  rw [Prog.after, hrun]
  refine wp_after (C := fun d' : Device => d'.current = some previous) ?_ []
  by_cases hpending : s.phase = .pendingBoot
  · rw [if_pos hpending]
    exact wp_bind (wp_stateAdvance (s := s) hst.load rfl fun _ st b _ =>
      ⟨rfl, fun hst' => hrest _ _ hst' rfl⟩)
  · rw [if_neg hpending]
    exact wp_bind (wp_pure (hrest s _ hst.load rfl))

lemma after_forget {p : Prog Device State} :
    (do let _ ← p : Prog Device Unit).after rs d = p.after rs d := by
  change (Prog.bind p (fun _ => pure ()) rs d).2.1 = (p rs d).2.1
  unfold Prog.bind
  rcases p rs d with ⟨_ | _ | _, d', rs'⟩ <;> rfl

/-- Where the file operations succeed, `previous` is selected, and the call returns if the
numbers for the states of the rollback are free. -/
lemma exhausted_rollsBack (h : Inv host d s) (hphase : s.phase = .pendingBoot)
    (hmarker : d.marker = none) (hid : validBootId bootId)
    (hover : Exhausted d.boots s.digest bootId) :
    ((recoverBoot host bootId).after [] d).current = d.previous ∧
      (CanRollBack d s → ∃ d' s', Returns (recoverBoot host bootId) d () d' ∧
        RolledBack d d' s') := by
  obtain ⟨previous, hacc, hrun⟩ :=
    (recoverBoot_pending h hid hphase hmarker).2 (not_bootsLeft hover)
  refine ⟨?_, fun hcan => ?_⟩
  · have hcurrent := rollbackLocked_current (d := { d with current := some (candidateTarget s) })
      h.stored hacc
    rw [← after_forget, ← (filter_eq_some_iff.mp hacc).1] at hcurrent
    rw [Prog.after, hrun]
    exact hcurrent
  · obtain ⟨d', s', hret, hrolled⟩ := returns_rollbackLocked
      (d := { d with current := some (candidateTarget s) }) h.stored hacc (.inl hphase)
      ⟨hcan.fits, hcan.free⟩
    exact ⟨d', s', hrun.trans (hret.bind Returns.pure), hrolled.stored, hrolled.idle,
      hrolled.current, hrolled.previous, hrolled.releases, hrolled.marker⟩

end C1auncher.Update.PendingBoots
