import C1auncher.Wifi.Frames

/-!
What a snapshot may claim: a connection that was observed, and not long ago.

Nothing but an observation sets the observation of the process, and nothing but the clock and the
calls of the boundary adds to what was seen.
-/

namespace C1auncher.Wifi.Snapshots

open CString Routines Wifi.Control Wifi.Service List Option
open Wifi.Operations Wifi.Frames

/-! ### What was seen -/

def recent (log : List Seen) : List Seen := log.takeWhile (· ≠ .called)

/-- A completed authentication to the SSID and the address were seen in the call that goes on. -/
def Sighted (log : List Seen) (ssid ipv4 : Text) : Prop :=
  (∃ reply, .replied .status reply ∈ recent log ∧ completedSsid reply = some ssid) ∧
    .address ipv4 ∈ recent log

/-- They were seen in one call, and then the clock read `t`. -/
def Observed (log : List Seen) (ssid ipv4 : Text) (t : ℤ) : Prop :=
  ∃ after before, log = after ++ .clock t :: before ∧ Sighted before ssid ipv4

def lastClock (log : List Seen) : Option ℤ := log.findSome? fun
  | .clock t => some t
  | _ => none

/-- A snapshot that is connected has an observation of the last second behind it, and no disable
was in force. -/
def Truthful (r : Read) : Prop :=
  r.snapshot.state = .connected → r.off = false ∧
    ∃ t now, Observed r.log r.snapshot.connectedSsid r.snapshot.ipv4 t ∧
      lastClock r.log = some now ∧ t ≤ now ∧ now - t < observeCacheMs

lemma recent_append {more : List Seen} (log : List Seen) (h : .called ∉ more) :
    recent (more ++ log) = more ++ recent log := by
  refine takeWhile_append_of_pos fun x hx => ?_
  simpa using fun heq : x = .called => h (heq ▸ hx)

lemma Sighted.append {more log : List Seen} {ssid ipv4 : Text} (h : Sighted log ssid ipv4)
    (hmore : .called ∉ more) : Sighted (more ++ log) ssid ipv4 := by
  obtain ⟨⟨reply, hreply, hssid⟩, haddress⟩ := h
  rw [Sighted, recent_append log hmore]
  exact ⟨⟨reply, mem_append_right _ hreply, hssid⟩, mem_append_right _ haddress⟩

lemma Observed.append {log : List Seen} {ssid ipv4 : Text} {t : ℤ}
    (h : Observed log ssid ipv4 t) (more : List Seen) : Observed (more ++ log) ssid ipv4 t := by
  obtain ⟨after, before, rfl, hs⟩ := h
  exact ⟨more ++ after, before, by simp, hs⟩

section
variable {D : Type} {io : WifiIo D} {fuel : ℕ}

/-! ### Routines that observe nothing -/

/-- The observation and the returned snapshots are as they were, and no call began. -/
structure Kept (s s' : State D) : Prop where
  observation : s'.observation = s.observation
  reads : s'.reads = s.reads
  log : ∃ more, s'.log = more ++ s.log ∧ .called ∉ more

lemma Kept.refl (s : State D) : Kept s s := ⟨rfl, rfl, [], rfl, by simp⟩

lemma Kept.trans {s t u : State D} (h : Kept s t) (h' : Kept t u) : Kept s u := by
  obtain ⟨more, hmore, hnot⟩ := h.log
  obtain ⟨more', hmore', hnot'⟩ := h'.log
  exact ⟨h'.observation.trans h.observation, h'.reads.trans h.reads, more' ++ more,
    by rw [hmore', hmore, append_assoc], by simp [hnot, hnot']⟩

variable {s' : State D} {ssid : Text} {α β : Type} {snapshot : Snapshot}

lemma Sighted.kept {s : State D} {ipv4 : Text} (h : Sighted s.log ssid ipv4)
    (hkept : Kept s s') : Sighted s'.log ssid ipv4 := by
  obtain ⟨more, hmore, hnot⟩ := hkept.log
  exact hmore ▸ h.append hnot

lemma mem_recent_kept {s : State D} {seen : Seen} (h : seen ∈ recent s.log)
    (hkept : Kept s s') : seen ∈ recent s'.log := by
  obtain ⟨more, hmore, hnot⟩ := hkept.log
  rw [hmore, recent_append _ hnot]
  exact mem_append_right _ h

lemma kept_pure (a : α) : Keeps Kept (pure a : Op D α) := keeps_pure Kept.refl

lemma kept_get : Keeps Kept (get : Op D (State D)) := keeps_get Kept.refl

lemma kept_bind {p : Op D α} {f : α → Op D β} (hp : Keeps Kept p)
    (hf : ∀ a, Keeps Kept (f a)) : Keeps Kept (p >>= f) := keeps_bind Kept.trans hp hf

lemma kept_andAlso {p q : Op D Bool} (hp : Keeps Kept p) (hq : Keeps Kept q) :
    Keeps Kept (andAlso p q) := keeps_andAlso Kept.refl Kept.trans hp hq

lemma kept_onlyIf {b : Prop} [Decidable b] {p : Op D Unit} (hp : Keeps Kept p) :
    Keeps Kept (onlyIf b p) := keeps_onlyIf Kept.refl hp

lemma kept_turns {γ : Type} {body : γ → Op D (γ ⊕ β)} (hbody : ∀ c, Keeps Kept (body c)) (n : ℕ)
    (c : γ) : Keeps Kept (turns body n c) := keeps_turns Kept.refl Kept.trans hbody n c

lemma kept_modify {f : State D → State D} (h : ∀ s, (f s).observation = s.observation ∧
    (f s).reads = s.reads ∧ (f s).log = s.log) : Keeps Kept (modify f) :=
  fun s => wlp_modify ⟨(h s).1, (h s).2.1, [], (h s).2.2, by simp⟩

lemma kept_ask (f : D → α × D) : Keeps Kept (ask f) := by
  rintro s _ _ ⟨⟩
  exact ⟨rfl, rfl, [], rfl, by simp⟩

lemma kept_see {seen : Seen} (h : seen ≠ .called) : Keeps Kept (see seen : Op D Unit) :=
  fun s => wlp_modify ⟨rfl, rfl, [seen], rfl, by simpa using h.symm⟩

lemma kept_hear (stop : Bool) : Keeps Kept (hear stop : Op D Unit) :=
  kept_modify fun _ => ⟨rfl, rfl, rfl⟩

lemma kept_setError (message : String) : Keeps Kept (setError message : Op D Unit) :=
  kept_modify fun _ => ⟨rfl, rfl, rfl⟩

lemma kept_fail (message : String) (a : α) :
    Keeps Kept (do setError message; return a : Op D α) :=
  kept_bind (kept_setError _) fun _ => kept_pure _

lemma kept (io : WifiIo D) : Frame io (fun _ => True) Kept where
  refl := Kept.refl
  trans := Kept.trans
  own _ ho hr hl := ⟨ho, hr, [], hl, by simp⟩
  see := kept_see
  hear := kept_hear
  askNow := kept_ask _
  sleep _ := kept_ask _
  askProgress _ := kept_ask _
  askMarker := kept_ask _
  askSetMarker _ := kept_ask _
  askReady := kept_ask _
  askAddress := kept_ask _
  askDhcpAvailable := kept_ask _
  askBackup := kept_ask _
  askCommand _ _ _ _ := kept_ask _
  sent_of_asks _ := trivial

lemma kept_dhcp (ms : ℤ) : Keeps Kept (dhcp io ms) := by
  refine kept_bind (kept_ask _) fun ⟨ok, stop⟩ => kept_bind (kept_hear _) fun _ => ?_
  dsimp only
  split_ifs
  · exact kept_bind (kept_see (by simp)) fun _ => kept_pure _
  · exact kept_pure _

lemma kept_stopDhcp : Keeps Kept (stopDhcp io) :=
  kept_bind (kept_ask _) fun ⟨_, _⟩ => kept_bind (kept_hear _) fun _ => kept_pure _

lemma kept_controlReady (factory : Bool) : Keeps Kept (controlReady io factory) :=
  kept_bind ((kept io).keeps_remainingMs _) fun _ => kept_bind (kept_ask _) fun ⟨_, _⟩ =>
    kept_bind (kept_hear _) fun _ => kept_pure _

lemma kept_prepareScanProfiles : Keeps Kept (prepareScanProfiles io fuel) :=
  kept_bind (kept io).keeps_captureNetworks fun _ =>
    kept_bind (kept_modify fun _ => ⟨rfl, rfl, rfl⟩) fun _ => kept_pure _

lemma kept_profileSaved (ssid : Text) (security : Security)
    (profiles : List (SavedNetwork × Option Bool × Option Bool)) :
    Keeps Kept (profileSaved io ssid security profiles) := by
  induction profiles with
  | nil => exact kept_pure _
  | cons profile profiles ih =>
    obtain ⟨network, opened, psk⟩ := profile
    unfold profileSaved
    split_ifs
    · exact kept_bind ih fun ⟨_, _⟩ => kept_pure _
    all_goals
      refine kept_bind ?_ fun found => ?_
      · split
        · exact kept_pure _
        · exact (kept io).keeps_savedProfileMatches _ _
      split
      · exact kept_pure _
      dsimp only
      split_ifs
      · exact kept_pure _
      · exact kept_bind ih fun ⟨_, _⟩ => kept_pure _

lemma kept_takeRow (line : Text) : Keeps Kept (takeRow io line) := by
  have hsaved (profiles) (ssid : Text) (security : Security) :
      Keeps Kept (scanProfileSaved io profiles ssid security) :=
    kept_bind (kept_profileSaved _ _ _) fun ⟨_, _⟩ =>
      kept_bind (kept_modify fun _ => ⟨rfl, rfl, rfl⟩) fun _ => kept_pure _
  unfold takeRow
  split
  · exact kept_pure _
  refine kept_bind kept_get fun s => kept_bind ?_ fun saved => ?_
  · split
    · split_ifs
      · exact hsaved _ _ _
      · exact kept_pure _
    · exact kept_pure _
  · split
    · exact kept_pure _
    · exact kept_bind (kept_modify fun _ => ⟨rfl, rfl, rfl⟩) fun _ =>
        kept_pure _

lemma kept_readScanNetworks : Keeps Kept (readScanNetworks io fuel) := by
  refine kept_bind (kept_modify fun _ => ⟨rfl, rfl, rfl⟩) fun _ =>
    kept_turns (fun previous => ?_) _ _
  refine kept_bind (kept io).keeps_continueOperation fun go => ?_
  split_ifs
  · exact kept_pure _
  refine kept_bind ((kept io).keeps_command trivial _) fun output => ?_
  split
  · exact kept_pure _
  split_ifs
  · exact kept_pure _
  split
  · exact kept_pure _
  split_ifs
  · exact kept_pure _
  · refine kept_bind (kept_takeRow _) fun ok => ?_
    split_ifs <;> exact kept_pure _

lemma kept_startScan : Keeps Kept (startScan io fuel) := by
  refine kept_turns (fun _ => ?_) _ _
  refine kept_bind (kept io).keeps_continueOperation fun go => keeps_ite (kept_pure _) ?_
  refine kept_bind ((kept io).keeps_commandOk trivial) fun flushed =>
    keeps_ite (kept_fail _ _) ?_
  refine kept_bind (kept_ask _) fun ⟨events, stop⟩ => kept_bind (kept_hear _) fun _ =>
    kept_bind (keeps_ite ((kept io).keeps_command trivial _) (kept_pure _)) fun reply => ?_
  cases reply with
  | none => exact kept_fail _ _
  | some output =>
    refine keeps_ite (kept_pure _) (keeps_ite (kept_fail _ _) ?_)
    refine kept_bind ((kept io).keeps_remainingMs _) fun wait =>
      kept_bind (kept_onlyIf (kept_bind (kept_ask _) fun _ => kept_pure _)) fun _ =>
      kept_bind (kept_ask _) fun _ => kept_bind ((kept io).keeps_remainingMs _) fun delay => ?_
    exact kept_bind (kept_onlyIf (kept_ask _)) fun _ => kept_pure _

lemma kept_awaitScan : Keeps Kept (awaitScan io fuel) := by
  refine kept_turns (fun _ => ?_) _ _
  refine kept_bind (kept io).keeps_continueOperation fun go => ?_
  split_ifs
  · exact kept_fail _ _
  refine kept_bind ((kept io).keeps_remainingMs _) fun wait =>
    kept_bind (kept_ask _) fun event => ?_
  cases event with
  | none => exact kept_pure _
  | failed => exact kept_fail _ _
  | results =>
    refine kept_bind kept_prepareScanProfiles fun prepared => ?_
    split_ifs
    · exact kept_fail _ _
    refine kept_bind kept_readScanNetworks fun read => ?_
    split_ifs
    · exact kept_fail _ _
    · exact kept_bind (kept_modify fun _ => ⟨rfl, rfl, rfl⟩) fun _ => kept_pure _

lemma kept_addProfile (ssid psk : Text) (security : Security) :
    Keeps Kept (addProfile io ssid psk security) := by
  refine kept_bind ((kept io).keeps_command trivial _) fun output => ?_
  split
  · exact kept_fail _ _
  split
  · exact kept_fail _ _
  refine kept_bind ((kept io).keeps_commandOk trivial) fun named => keeps_ite (kept_fail _ _) ?_
  refine kept_bind ((kept io).keeps_commandOk trivial) fun secured => keeps_ite (kept_fail _ _) ?_
  refine keeps_ite (kept_bind ((kept io).keeps_commandOk trivial) fun keyed => ?_) (kept_pure _)
  exact keeps_ite (kept_fail _ _) (kept_pure _)

lemma kept_restoreNetworks (keepEnabled : Option ℤ) (networks : List SavedNetwork) :
    Keeps Kept (restoreNetworks io keepEnabled networks) := by
  induction networks with
  | nil => exact kept_pure _
  | cons network networks ih =>
    exact keeps_ite ih (kept_bind ((kept io).keeps_commandOk trivial) fun _ =>
      kept_bind ih fun _ => kept_pure _)

lemma kept_rollbackConnection (backup : Backup) (attempt : Attempt) :
    Keeps Kept (rollbackConnection io fuel backup attempt) := by
  refine kept_bind (kept_modify fun _ => ⟨rfl, rfl, rfl⟩) fun _ =>
    kept_bind (kept io).keeps_now fun _ =>
    kept_bind (kept_modify fun _ => ⟨rfl, rfl, rfl⟩) fun _ =>
    kept_bind (keeps_ite kept_stopDhcp (kept_pure _)) fun _ =>
    kept_bind (keeps_ite (kept_ask _) (kept_pure _)) fun _ => kept_bind ?_ fun _ =>
    kept_bind (keeps_ite ((kept io).keeps_commandOk trivial) (kept_pure _)) fun _ =>
    kept_bind (kept_restoreNetworks _ _) fun _ =>
    kept_bind (keeps_ite ((kept io).keeps_commandOk trivial) (kept_pure _)) fun _ =>
    kept_bind (keeps_ite ?_ (kept_pure _)) fun _ => kept_pure _
  · split
    · exact (kept io).keeps_commandOk trivial
    · exact kept_pure _
  · refine kept_bind ((kept io).keeps_waitAuthenticated _ _ _) fun _ => keeps_ite (kept_pure _) ?_
    exact keeps_ite (kept_bind ((kept io).keeps_remainingMs _) fun _ => kept_dhcp _) (kept_pure _)

lemma kept_commit (ssid : Text) (targetId : ℤ) (useSaved : Bool) (backup : Backup) :
    Keeps Kept (commit io ssid targetId useSaved backup) := by
  refine kept_bind (kept_andAlso (kept_restoreNetworks _ _)
    (kept_bind ((kept io).keeps_authenticated _ _) fun _ => kept_pure _)) fun _ => ?_
  refine keeps_ite (kept_fail _ _) (keeps_ite (kept_pure _) ?_)
  refine kept_bind (kept_modify fun _ => ⟨rfl, rfl, rfl⟩) fun _ =>
    kept_bind (kept io).keeps_continueOperation fun _ => keeps_ite (kept_pure _) ?_
  refine kept_bind (kept_modify fun _ => ⟨rfl, rfl, rfl⟩) fun _ =>
    kept_bind (kept_see (by simp)) fun _ =>
    kept_bind (kept_andAlso ((kept io).keeps_commandOk trivial) (kept_ask _)) fun _ => ?_
  exact keeps_ite (kept_fail _ _) (kept_pure _)

lemma kept_takeBack (options : Bool) (backup : Backup) (config : Option Text) (attempt : Attempt) :
    Keeps Kept (takeBack io fuel options backup config attempt) :=
  kept_bind (kept_modify fun _ => ⟨rfl, rfl, rfl⟩) fun _ =>
    kept_bind (kept_rollbackConnection _ _) fun _ =>
    kept_bind (keeps_ite (kept_ask _) (kept_pure _)) fun _ =>
    kept_onlyIf (kept_setError _)

/-! ### What a connection has seen -/

/-- The routine observes nothing of its own, and `P` holds where it returns. -/
def Yields {α : Type} (p : Op D α) (P : α → State D → Prop) (s : State D) : Prop :=
  wlp p (fun a s' => Kept s s' ∧ P a s') s

variable {s : State D}

lemma yields_of_kept {p : Op D α} {P : α → State D → Prop} (hp : Keeps Kept p)
    (hP : ∀ a s', P a s') : Yields p P s :=
  wlp_mono (hp s) fun a s' hk => ⟨hk, hP a s'⟩

lemma yields_pure {a : α} {P : α → State D → Prop} (h : P a s) :
    Yields (pure a : Op D α) P s :=
  wlp_pure ⟨Kept.refl s, h⟩

lemma yields_bind {p : Op D α} {f : α → Op D β} {P : α → State D → Prop}
    {Q : β → State D → Prop} (hp : Yields p P s) (hf : ∀ a s', Kept s s' → P a s' →
      Yields (f a) Q s') : Yields (p >>= f) Q s :=
  wlp_bind (wlp_mono hp fun a t h => wlp_mono (hf a t h.1 h.2) fun _ _ h' =>
    ⟨h.1.trans h'.1, h'.2⟩)

lemma yields_after {p : Op D α} {f : α → Op D β} {Q : β → State D → Prop}
    (hp : Keeps Kept p) (hf : ∀ a s', Kept s s' → Yields (f a) Q s') : Yields (p >>= f) Q s :=
  yields_bind (P := fun _ _ => True) (yields_of_kept hp fun _ _ => trivial) fun a s' hk _ =>
    hf a s' hk

lemma yields_ite {b : Prop} [Decidable b] {p q : Op D α} {P : α → State D → Prop}
    (h : b → Yields p P s) (h' : ¬b → Yields q P s) : Yields (if b then p else q) P s :=
  wlp_ite h h'

lemma command_yields (c : Command) (capacity : ℕ) :
    Yields (command io c capacity) (fun r s' =>
      ∀ reply ∈ r, .replied c reply ∈ recent s'.log) s := by
  refine yields_after ((kept io).keeps_remainingMs _) fun timeout s _ =>
    yields_ite (fun _ => ?_) fun _ => ?_
  · exact yields_pure (by simp)
  refine yields_after kept_get fun t s _ => yields_after (kept_ask _) fun reply s _ => ?_
  cases reply with
  | none => exact yields_pure (by simp)
  | some reply =>
    refine wlp_bind (wlp_modify (wlp_pure ⟨⟨rfl, rfl, [.replied c reply], rfl, by simp⟩, ?_⟩))
    intro r hr
    cases hr
    simp [recent]

def Named (log : List Seen) (ssid : Text) : Prop :=
  ∃ reply, .replied .status reply ∈ recent log ∧ completedSsid reply = some ssid

lemma Named.kept {s : State D} (h : Named s.log ssid) (hkept : Kept s s') :
    Named s'.log ssid := by
  obtain ⟨reply, hreply, hssid⟩ := h
  exact ⟨reply, mem_recent_kept hreply hkept, hssid⟩

lemma authenticated_yields (target : Option Text) (networkId : Option ℤ) :
    Yields (authenticated io target networkId)
      (fun r s' => ∀ ssid ∈ r, Named s'.log ssid ∧ ∀ t ∈ target, ssid = t) s := by
  refine yields_bind (command_yields _ _) fun output s' _ hseen => yields_pure ?_
  intro ssid hssid
  obtain ⟨reply, rfl, hcompleted⟩ := bind_eq_some_iff.mp hssid
  obtain ⟨hname, htarget, -⟩ := completedStatus_eq_some.mp hcompleted
  exact ⟨⟨reply, hseen reply rfl, hname⟩, htarget⟩

lemma interfaceIpv4_yields :
    Yields (interfaceIpv4 io) (fun r s' => ∀ ip ∈ r, .address ip ∈ recent s'.log) s := by
  refine yields_after (kept_ask _) fun address s _ => ?_
  cases address with
  | none => exact yields_pure (by simp)
  | some ip =>
    dsimp only
    refine yields_ite (fun _ => yields_pure (by simp)) fun _ => ?_
    refine wlp_bind (wlp_modify (wlp_pure ⟨⟨rfl, rfl, [.address _], rfl, by simp⟩, ?_⟩))
    intro text htext
    cases htext
    simp [recent]

lemma yields_andAlso {p q : Op D Bool} {P : State D → Prop} (hp : Keeps Kept p)
    (hq : ∀ s', Kept s s' → Yields q (fun b s'' => b = true → P s'') s') :
    Yields (andAlso p q) (fun b s' => b = true → P s') s :=
  yields_after hp fun b s' hk => yields_ite (fun _ => hq s' hk) fun _ => yields_pure (by simp)

lemma sighted_yields (b : Bool) (h : b = true → Named s.log ssid) :
    Yields (if b then interfaceIpv4 io else pure none)
      (fun r s' => ∀ ip ∈ r, Sighted s'.log ssid ip) s := by
  refine yields_ite (fun hb => ?_) fun _ => yields_pure (by simp)
  exact wlp_mono interfaceIpv4_yields fun r s' ⟨hk, hip⟩ =>
    ⟨hk, fun ip hr => ⟨(h hb).kept hk, hip ip hr⟩⟩

lemma acquire_yields (ssid : Text) (targetId : ℤ) :
    Yields (acquire io fuel ssid targetId) (fun r s' => ∀ ip ∈ r.2, Sighted s'.log ssid ip) s := by
  refine yields_after (kept_modify fun _ => ⟨rfl, rfl, rfl⟩) fun _ s _ =>
    yields_after ((kept io).keeps_commandOk trivial) fun _ s _ => yields_ite (fun _ => ?_) fun _ =>
    yields_after ((kept io).keeps_waitAuthenticated _ _ _) fun _ s _ =>
    yields_ite (fun _ => ?_) fun _ =>
    yields_after (kept_modify fun _ => ⟨rfl, rfl, rfl⟩) fun _ s _ =>
    yields_after (kept_andAlso (kept io).keeps_continueOperation
      (kept_bind ((kept io).keeps_remainingMs _) fun _ => kept_dhcp _)) fun leased s _ => ?_
  · exact yields_after (kept_setError _) fun _ s _ => yields_pure (by simp)
  · exact yields_after (kept_setError _) fun _ s _ => yields_pure (by simp)
  have hnamed : Yields (andAlso (pure leased)
      (do return (← authenticated io (some ssid) (some targetId)).isSome))
      (fun b s' => b = true → Named s'.log ssid) s := by
    refine yields_andAlso (kept_pure _) fun s _ =>
      yields_bind (authenticated_yields _ _) fun found s _ hfound => yields_pure fun hsome => ?_
    obtain ⟨name, rfl⟩ := isSome_iff_exists.mp hsome
    obtain ⟨hname, htarget⟩ := hfound name rfl
    exact htarget ssid rfl ▸ hname
  refine yields_bind hnamed fun named s _ hn => yields_bind (sighted_yields named hn)
    fun ip s _ hip => ?_
  exact yields_bind (P := fun _ s' => ∀ ip' ∈ ip, Sighted s'.log ssid ip')
    (wlp_mono (kept_onlyIf (kept_setError _) s) fun _ _ hk =>
      ⟨hk, fun ip' h => (hip ip' h).kept hk⟩)
    fun _ s _ hip => yields_pure hip

lemma reconnect_yields : Yields (reconnect io fuel)
    (fun r s' => ∀ found ∈ r, Sighted s'.log found.1 found.2) s := by
  refine yields_after (kept_modify fun _ => ⟨rfl, rfl, rfl⟩) fun _ s _ =>
    yields_after kept_get fun t s _ =>
    yields_after (kept_andAlso ((kept io).keeps_commandOk trivial)
      ((kept io).keeps_waitAuthenticated _ _ _)) fun _ s _ =>
    yields_ite (fun _ => ?_) fun _ =>
    yields_after (kept_modify fun _ => ⟨rfl, rfl, rfl⟩) fun _ s _ =>
    yields_after (kept_andAlso (kept_ask _)
      (kept_bind ((kept io).keeps_remainingMs _) fun _ => kept_dhcp _)) fun leased s _ => ?_
  · exact yields_after (kept_setError _) fun _ s _ => yields_pure (by simp)
  have hactual (target : Option Text) : Yields (if leased then authenticated io target none else
      pure none) (fun r s' => ∀ ssid ∈ r, Named s'.log ssid) s :=
    yields_ite (fun _ => wlp_mono (authenticated_yields _ _) fun r s' ⟨hk, h⟩ =>
      ⟨hk, fun ssid hssid => (h ssid hssid).1⟩) fun _ => yields_pure (by simp)
  refine yields_bind (hactual _) fun actual s _ hname => ?_
  have hip : Yields (if actual.isSome then interfaceIpv4 io else pure none)
      (fun r s' => ∀ ip ∈ r, Sighted s'.log (actual.getD []) ip) s := by
    refine sighted_yields actual.isSome fun hsome => ?_
    obtain ⟨ssid, rfl⟩ := isSome_iff_exists.mp hsome
    exact hname ssid rfl
  refine yields_bind hip fun ip s _ hsighted => ?_
  split
  · refine yields_pure fun found hfound => ?_
    cases hfound
    exact hsighted _ rfl
  · exact yields_after (kept_setError _) fun _ s _ => yields_pure (by simp)

/-! ### The invariant -/

/-- A returned snapshot is truthful, unless the process was switched off and returned its state. -/
def Fair (r : Read) : Prop :=
  (r.off = true → r.snapshot.state = r.state) ∧ (r.off = false → Truthful r)

/-- The observation of the process was made, and what it returned is fair. -/
structure Sound (s : State D) : Prop where
  observed : s.observation.valid = true → s.observation.connected = true →
    Observed s.log s.observation.ssid s.observation.ipv4 s.observation.checkedAt
  reads : ∀ r ∈ s.reads, Fair r

lemma Sound.kept {s : State D} (h : Sound s) (hk : Kept s s') : Sound s' := by
  obtain ⟨more, hmore, -⟩ := hk.log
  refine ⟨fun hv hc => ?_, fun r hr => h.reads r (hk.reads ▸ hr)⟩
  rw [hk.observation] at hv hc ⊢
  rw [hmore]
  exact (h.observed hv hc).append more

lemma Sound.invalid {s : State D} (h : Sound s) (hv : s'.observation.valid = false)
    (hr : s'.reads = s.reads) : Sound s' :=
  ⟨fun hv' => by simp [hv] at hv', hr ▸ h.reads⟩

abbrev Preserves {α : Type} (p : Op D α) : Prop := Keeps (fun s s' => Sound s → Sound s') p

lemma preserves_of_kept {p : Op D α} (h : Keeps Kept p) : Preserves p :=
  h.mono fun _ _ hk hs => hs.kept hk

lemma preserves_bind {p : Op D α} {f : α → Op D β} (hp : Preserves p)
    (hf : ∀ a, Preserves (f a)) : Preserves (p >>= f) :=
  keeps_bind (fun h h' hs => h' (h hs)) hp hf

lemma preserves_pure (a : α) : Preserves (pure a : Op D α) := keeps_pure fun _ => id

lemma preserves_get : Preserves (get : Op D (State D)) := keeps_get fun _ => id

lemma preserves_after {p : Op D α} {f : α → Op D β} (hp : Keeps Kept p)
    (hf : ∀ a, Preserves (f a)) : Preserves (p >>= f) :=
  preserves_bind (preserves_of_kept hp) hf

lemma preserves_beginOperation (options : Bool) (timeoutMs : ℤ) :
    Preserves (beginOperation io options timeoutMs) := by
  refine preserves_bind (fun s => wlp_modify fun hs => hs.invalid rfl rfl) fun _ =>
    preserves_of_kept (kept_bind (kept_ask _) fun _ => ?_)
  refine kept_bind (kept_modify fun _ => ⟨rfl, rfl, rfl⟩) fun _ =>
    kept_bind (kept io).keeps_now fun _ => kept_modify fun _ => ⟨rfl, rfl, rfl⟩

lemma probe_yields (start budget : ℤ) :
    Yields (probe io start budget) (fun r s' => ∀ reply ∈ r, .replied .status reply ∈ recent s'.log)
      s := by
  have hfound {p : Op D Unit} (hp : Keeps Kept p) (reply : Text) (s : State D) :
      Yields (do see (.replied .status reply); p; return some reply)
        (fun r s' => ∀ reply ∈ r, Seen.replied .status reply ∈ recent s'.log) s := by
    refine yields_bind (P := fun _ s' => .replied .status reply ∈ recent s'.log)
      (wlp_modify ⟨⟨rfl, rfl, [.replied .status reply], rfl, by simp⟩, by simp [recent]⟩)
      fun _ s _ hseen => yields_bind (P := fun _ s' => .replied .status reply ∈ recent s'.log)
      (wlp_mono (hp s) fun _ _ hk => ⟨hk, mem_recent_kept hseen hk⟩) fun _ s _ hseen =>
      yields_pure ?_
    rintro _ ⟨⟩
    exact hseen
  refine yields_ite (fun _ => yields_pure (by simp)) fun _ =>
    yields_after (kept_ask _) fun reply s _ => ?_
  cases reply with
  | some reply => exact hfound (kept_pure ()) reply s
  | none =>
    refine yields_after (kept io).keeps_now fun t s _ => yields_ite (fun _ => ?_) fun _ =>
      yields_pure (by simp)
    refine yields_after (kept io).keeps_now fun t s _ =>
      yields_after (kept_ask _) fun reply s _ => ?_
    cases reply with
    | none => exact yields_pure (by simp)
    | some reply =>
      have hfactory : Keeps Kept (modify fun s => { s with usingFactoryControl := true } :
          Op D Unit) := kept_modify fun _ => ⟨rfl, rfl, rfl⟩
      exact hfound hfactory reply s

lemma now_reads : wlp (now io) (fun t s' => s'.log = .clock t :: s.log ∧
    s'.observation = s.observation ∧ s'.reads = s.reads) s := by
  rintro _ _ ⟨⟩
  exact ⟨rfl, rfl, rfl⟩

/-- The observation is of the last second. -/
def Current (s : State D) : Prop :=
  s.observation.valid = true ∧ (s.observation.connected = true → ∃ now,
    lastClock s.log = some now ∧ s.observation.checkedAt ≤ now ∧
      now - s.observation.checkedAt < observeCacheMs)

lemma observe_current (target : Text) (start : ℤ) (h : Sound s) :
    wlp (observe io target start) (fun _ s' => Sound s' ∧ Current s') s := by
  refine wlp_bind (wlp_get ?_)
  have hbudget : Keeps Kept (if s.operationDeadline ≠ 0 then remainingMs io observeMs
      else pure observeMs : Op D ℤ) := keeps_ite ((kept io).keeps_remainingMs _) (kept_pure _)
  refine wlp_bind (wlp_mono (hbudget s) fun budget t hst => wlp_bind (wlp_modify ?_))
  have ht : Sound { t with observation :=
      { Observation.empty with contextState := t.currentState, target := target } } :=
    (h.kept hst).invalid rfl rfl
  refine wlp_bind (wlp_mono (probe_yields _ _) fun received u ⟨htu, hseen⟩ => ?_)
  have hname (ssid : Text) (hssid : ssid ∈ received.bind
      (completedStatus · (if target ≠ [] then some target else none) none)) :
      Named u.log ssid := by
    obtain ⟨reply, hreply, hcompleted⟩ := bind_eq_some_iff.mp hssid
    exact ⟨reply, hseen reply hreply, (completedStatus_eq_some.mp hcompleted).1⟩
  dsimp only
  generalize received.bind (completedStatus · (if target ≠ [] then some target else none) none) =
    found at hname ⊢
  have hip : Yields (if found.isSome then interfaceIpv4 io else pure none)
      (fun r s' => ∀ ip ∈ r, Sighted s'.log (found.getD []) ip) u := by
    refine sighted_yields found.isSome fun hsome => ?_
    obtain ⟨ssid, rfl⟩ := isSome_iff_exists.mp hsome
    exact hname ssid rfl
  refine wlp_bind (wlp_mono hip fun ip v ⟨huv, hsighted⟩ => ?_)
  have hv : Sound v := (ht.kept htu).kept huv
  refine wlp_bind (wlp_mono now_reads fun t' x ⟨hlog, _, hreads⟩ => wlp_modify ?_)
  refine ⟨⟨fun _ hc => ?_, hreads ▸ hv.reads⟩, rfl, fun _ => ⟨t', by simp [hlog, lastClock],
    le_rfl, by simp [observeCacheMs]⟩⟩
  simp only at hc
  obtain ⟨ip, rfl⟩ := isSome_iff_exists.mp (Bool.and_eq_true_iff.mp hc).2
  refine ⟨[], v.log, hlog, ?_⟩
  simp only [hc, if_true]
  exact hsighted ip rfl

lemma isOff_kept : Keeps Kept (isOff io) :=
  kept_bind kept_get fun _ => keeps_ite (kept_pure _) (kept_ask _)

lemma refresh_current (target : Text) (h : Sound s) :
    wlp (refresh io target) (fun _ s' => Sound s' ∧ Current s') s := by
  refine wlp_bind (wlp_mono (wlp_and now_reads ((kept io).keeps_now s))
    fun t u ⟨⟨hlog, hobs, _⟩, hsu⟩ => wlp_bind (wlp_get (wlp_ite
    (fun _ => observe_current target t (h.kept hsu)) fun hfresh => ?_)))
  simp only [not_or, Bool.not_eq_true', Bool.not_eq_false, not_lt, not_le] at hfresh
  obtain ⟨hvalid, -, -, hle, hlt⟩ := hfresh
  exact wlp_pure ⟨h.kept hsu, hvalid, fun _ => ⟨t, by simp [hlog, lastClock], hle, hlt⟩⟩

lemma returnSnapshot_sound {state : WifiState} {off : Bool}
    (h : Sound s) (hfair : Fair ⟨state, off, snapshot, s.log⟩) :
    wlp (returnSnapshot state off snapshot) (fun _ s' => Sound s') s := by
  refine wlp_bind (wlp_modify (wlp_pure ⟨h.observed, fun r hr => ?_⟩))
  rcases mem_cons.mp hr with rfl | hr
  · exact hfair
  · exact h.reads r hr

lemma connected_of_observed {o : Observation}
    (h : (snapshot.observed o).state = .connected) : o.connected = true := by
  by_contra hcon
  have hstate : (if o.interfaceDisabled then { snapshot with state := .disabled }
      else if snapshot.state ≠ .disabled ∨ o.controlAvailable then { snapshot with state := .ready }
      else snapshot : Snapshot).state = .connected := by simpa [Snapshot.observed, hcon] using h
  split_ifs at hstate with hdown hready
  exact absurd (hstate ▸ not_not.mp (not_or.mp hready).1) (by simp)

lemma fair_observed {state : WifiState} (h : Sound s) (hc : Current s) :
    Fair ⟨state, false, snapshot.observed s.observation, s.log⟩ := by
  refine ⟨by simp, fun _ hconnected => ⟨rfl, ?_⟩⟩
  have hcon := connected_of_observed hconnected
  obtain ⟨now', hlast, hle, hlt⟩ := hc.2 hcon
  refine ⟨_, now', ?_, hlast, hle, hlt⟩
  simpa [Snapshot.observed, hcon] using h.observed hc.1 hcon

lemma readSnapshot_sound (h : Sound s) : wlp (readSnapshot io) (fun _ s' => Sound s') s := by
  refine wlp_bind (wlp_get (wlp_bind (wlp_mono (isOff_kept s) fun off t hst => ?_)))
  have ht := h.kept hst
  refine wlp_ite (fun hbusy => ?_) fun hbusy => ?_
  · refine wlp_bind (wlp_modify (returnSnapshot_sound (ht.invalid rfl rfl)
      ⟨fun _ => rfl, fun hon hconnected => ?_⟩))
    have hon : off = false := hon
    have hconnected : s.currentState = .connected := hconnected
    simp [hon, hconnected] at hbusy
  · obtain ⟨hon, -⟩ := not_or.mp hbusy
    obtain rfl : off = false := by simpa using hon
    exact wlp_bind (wlp_mono (refresh_current _ ht) fun _ u ⟨hu, hc⟩ =>
      wlp_bind (wlp_get (returnSnapshot_sound hu (fair_observed hu hc))))

lemma preserves_readSnapshot : Preserves (readSnapshot io) := fun _ a s' hrun hs =>
  readSnapshot_sound hs a s' hrun

lemma preserves_endOperation (result : Status) (wanted : Bool) :
    Preserves (endOperation io result wanted) := by
  refine preserves_after ((kept io).keeps_settle _) fun _ =>
    preserves_bind (keeps_ite ?_ (preserves_pure _)) fun _ =>
    preserves_after (kept_modify fun _ => ⟨rfl, rfl, rfl⟩) fun _ =>
    preserves_pure _
  exact preserves_bind preserves_readSnapshot fun _ => preserves_pure _

lemma rememberVerifiedConnection_sound {ipv4 : Text} (h : Sound s)
    (hs : Sighted s.log ssid ipv4) :
    wlp (rememberVerifiedConnection io ssid ipv4) (fun _ s' => Sound s') s :=
  wlp_bind (wlp_mono now_reads fun _ _ ⟨hlog, _, hreads⟩ =>
    wlp_modify ⟨fun _ _ => ⟨[], s.log, hlog, hs⟩, hreads ▸ h.reads⟩)

lemma preserves_authenticate (ssid : Text) (r : Request) (backup : Backup) (newId : Option ℤ)
    (targetId : ℤ) : Preserves (authenticate io fuel ssid r backup newId targetId) := by
  intro s a s' hrun hs
  revert a s'
  change wlp (authenticate io fuel ssid r backup newId targetId) (fun _ s' => Sound s') s
  refine wlp_bind (wlp_mono (acquire_yields ssid targetId) fun ⟨dhcpStarted, ip⟩ t ⟨hst, hip⟩ => ?_)
  cases ip with
  | none => exact wlp_pure (hs.kept hst)
  | some ip =>
    refine wlp_bind (wlp_mono (kept_commit _ _ _ _ t) fun ⟨saved, committed⟩ u htu => ?_)
    have hu := (hs.kept hst).kept htu
    have hsighted := (hip ip rfl).kept htu
    refine wlp_bind (wlp_mono (wlp_ite (fun _ => ?_) fun _ => wlp_pure hu) fun _ _ h => wlp_pure h)
    have hset : Kept u { u with
        cachedNetworks := u.cachedNetworks.map fun n =>
          if n.ssid = ssid ∧ n.security = r.security then { n with saved := true } else n
        currentState := .connected
        cachedConnectedSsid := ssid } := ⟨rfl, rfl, [], rfl, by simp⟩
    exact wlp_bind (wlp_modify (wlp_bind (wlp_mono
      (rememberVerifiedConnection_sound (hu.kept hset) (hsighted.kept hset))
      fun _ v hv => wlp_modify (hv.kept ⟨rfl, rfl, [], rfl, by simp⟩))))

/-! ### Calls and runs -/

lemma preserves_conclude (r : Request) (backup : Backup) (config : Option Text)
    (attempted : Bool × Attempt) : Preserves (conclude io fuel r backup config attempted) :=
  preserves_of_kept (keeps_ite (kept_pure _)
    (kept_bind (kept_onlyIf (kept_takeBack _ _ _ _)) fun _ => kept_pure _))

lemma preserves_establish (ssid psk : Text) (r : Request) (backup : Backup)
    (config : Option Text) : Preserves (establish io fuel ssid psk r backup config) := by
  refine keeps_ite ?_ ?_
  · refine preserves_after ((kept io).keeps_savedTarget _ _ _) fun target => ?_
    cases target with
    | none => exact preserves_pure _
    | some id =>
      exact preserves_bind (preserves_authenticate _ _ _ _ _) fun _ => preserves_conclude _ _ _ _
  · refine preserves_after (kept_addProfile _ _ _) fun added => ?_
    split
    · exact preserves_bind (preserves_authenticate _ _ _ _ _) fun _ => preserves_conclude _ _ _ _
    · exact preserves_conclude _ _ _ _

lemma preserves_connectProfile (r : Request) (wanted : Bool) :
    Preserves (connectProfile io fuel r wanted) := by
  refine preserves_bind (preserves_beginOperation _ _) fun _ =>
    preserves_after (kept_modify fun _ => ⟨rfl, rfl, rfl⟩) fun _ =>
    preserves_after ((kept io).keeps_checkRequest _) fun checked => ?_
  cases checked with
  | error status => exact preserves_endOperation _ _
  | ok target =>
    refine preserves_after (kept io).keeps_checkInterface fun usable =>
      keeps_ite (preserves_endOperation _ _) ?_
    refine preserves_after (kept_ask _) fun _ =>
      preserves_after (kept_modify fun _ => ⟨rfl, rfl, rfl⟩) fun _ =>
      preserves_after (keeps_ite (kept_pure _) (kept_ask _)) fun config =>
      preserves_after (keeps_ite (kept io).keeps_captureNetworks (kept_pure _))
        fun backup => ?_
    cases backup with
    | none =>
      exact preserves_after (kept_setError _) fun _ => preserves_endOperation _ _
    | some backup =>
      exact preserves_bind (preserves_establish _ _ _ _ _) fun _ => preserves_endOperation _ _

lemma preserves_connect (ssid password : Option Text) (wanted : Bool) :
    Preserves (connect io fuel ssid password wanted) := by
  refine preserves_bind preserves_get fun s => ?_
  dsimp only
  split
  · exact preserves_bind (preserves_beginOperation _ _) fun _ =>
      preserves_after (kept_setError _) fun _ => preserves_endOperation _ _
  · exact preserves_connectProfile _ _

lemma preserves_scan (options wanted : Bool) : Preserves (scan io fuel options wanted) := by
  refine preserves_bind (preserves_beginOperation _ _) fun _ =>
    preserves_after (kept_modify fun _ => ⟨rfl, rfl, rfl⟩) fun _ =>
    preserves_after (kept_andAlso (kept io).keeps_continueOperation
      (kept_andAlso (kept io).keeps_ready (kept io).keeps_waitInterfaceEnabled)) fun usable =>
    keeps_ite (preserves_endOperation _ _) ?_
  refine preserves_after (kept_ask _) fun _ =>
    preserves_after (kept_modify fun _ => ⟨rfl, rfl, rfl⟩) fun _ =>
    preserves_after kept_startScan fun ⟨events, failure⟩ =>
    preserves_after ?_ fun result =>
    preserves_after (kept_onlyIf (kept_ask _)) fun _ =>
    preserves_after (kept_onlyIf
      (kept_modify fun _ => ⟨rfl, rfl, rfl⟩)) fun _ =>
    preserves_endOperation _ _
  cases failure with
  | some status => exact kept_pure _
  | none => exact keeps_ite kept_awaitScan (kept_fail _ _)

lemma preserves_disable (wanted : Bool) : Preserves (disable io wanted) := by
  have hfail (message : String) : Preserves (do
      setError message
      endOperation io .unavailable wanted : Op D (Status × Option Snapshot)) :=
    preserves_after (kept_setError _) fun _ => preserves_endOperation _ _
  refine preserves_bind (preserves_beginOperation _ _) fun _ =>
    preserves_after (kept_controlReady _) fun own =>
    preserves_after (keeps_ite (kept_pure _) (kept_controlReady _)) fun _ =>
    preserves_after (kept_modify fun _ => ⟨rfl, rfl, rfl⟩) fun _ =>
    preserves_after (kept_ask _) fun available => keeps_ite (hfail _) ?_
  refine preserves_after (kept_andAlso
    (kept_bind ((kept io).keeps_command trivial _) fun _ => kept_pure _)
    (kept_andAlso ((kept io).keeps_commandOk trivial)
    (kept_andAlso kept_stopDhcp (kept_andAlso (kept_ask _) (kept_ask _))))) fun off =>
    keeps_ite ?_ (hfail _)
  exact preserves_after (kept_modify fun _ => ⟨rfl, rfl, rfl⟩) fun _ =>
    preserves_after (kept_ask _) fun _ =>
    preserves_after (kept_modify fun _ => ⟨rfl, rfl, rfl⟩) fun _ =>
    preserves_endOperation _ _

lemma preserves_pause : Preserves (pause io) := by
  refine preserves_after (kept_controlReady _) fun own =>
    preserves_after (kept_modify fun _ => ⟨rfl, rfl, rfl⟩) fun _ =>
    preserves_after (keeps_ite (kept_pure _) (kept_controlReady _)) fun _ =>
    preserves_after (kept_onlyIf
      (kept_modify fun _ => ⟨rfl, rfl, rfl⟩)) fun _ =>
    preserves_after (kept_ask _) fun marker =>
    preserves_after (kept_onlyIf
      (kept_modify fun _ => ⟨rfl, rfl, rfl⟩)) fun _ =>
    preserves_bind preserves_get fun s =>
    preserves_after (keeps_ite (kept_pure _)
      (keeps_ite (kept_pure _) (kept_controlReady _))) fun reachable =>
    keeps_ite (preserves_pure _) (keeps_ite (preserves_pure _) ?_)
  exact preserves_bind preserves_readSnapshot fun snapshot =>
    preserves_bind (preserves_disable _) fun ⟨_, _⟩ =>
    preserves_after (kept_onlyIf
      (kept_modify fun _ => ⟨rfl, rfl, rfl⟩)) fun _ => preserves_pure _

lemma preserves_resume (paused : Paused) (options : Bool) :
    Preserves (resume io fuel paused options) := by
  have hend (status : Status) : Preserves (do
      return (← endOperation io status false).1 : Op D Status) :=
    preserves_bind (preserves_endOperation _ _) fun _ => preserves_pure _
  refine keeps_ite (preserves_pure _) ?_
  refine preserves_bind (preserves_beginOperation _ _) fun _ =>
    preserves_after (kept_modify fun _ => ⟨rfl, rfl, rfl⟩) fun _ =>
    keeps_ite (preserves_after (kept_setError _) fun _ => hend _) ?_
  refine preserves_after (kept_andAlso (kept io).keeps_ready
    (kept io).keeps_waitInterfaceEnabled)
    fun usable => keeps_ite (hend _) ?_
  refine preserves_after (kept_ask _) fun _ =>
    preserves_after (kept_modify fun _ => ⟨rfl, rfl, rfl⟩) fun _ =>
    keeps_ite (preserves_after (kept_modify fun _ => ⟨rfl, rfl, rfl⟩)
      fun _ => hend _) ?_
  intro s a s' hrun hs
  revert a s'
  refine wlp_bind (wlp_mono reconnect_yields fun found t ⟨hst, hfound⟩ => ?_)
  have ht := hs.kept hst
  cases found with
  | none => exact fun a s' hrun => hend _ t a s' hrun ht
  | some found =>
    have hset : Kept t { t with cachedConnectedSsid := found.1, currentState := .connected } :=
      ⟨rfl, rfl, [], rfl, by simp⟩
    exact wlp_bind (wlp_modify (wlp_bind (wlp_mono (rememberVerifiedConnection_sound (ht.kept hset)
      ((hfound found rfl).kept hset)) fun _ u hu a s' hrun => hend _ u a s' hrun hu)))

lemma preserves_perform (call : Call) : Preserves (perform io fuel call) := by
  have hdrop {α : Type} {p : Op D α} (hp : Preserves p) : Preserves (do let _ ← p) :=
    preserves_bind hp fun _ => preserves_pure _
  refine preserves_bind (fun s => wlp_modify fun hs => ⟨fun hv hc => ?_, hs.reads⟩) fun _ => ?_
  · exact (hs.observed hv hc).append [.called]
  cases call with
  | scan options wanted => exact hdrop (preserves_scan _ _)
  | connectProfile request wanted => exact hdrop (preserves_connectProfile _ _)
  | connect ssid password wanted => exact hdrop (preserves_connect _ _ _)
  | disable wanted => exact hdrop (preserves_disable _)
  | pause => exact hdrop preserves_pause
  | resume paused options => exact hdrop (preserves_resume _ _)
  | adoptSnapshot snapshot => exact fun s => wlp_modify fun hs => hs.invalid rfl rfl
  | readSnapshot => exact hdrop preserves_readSnapshot

lemma preserves_run (calls : List Call) : Preserves (run io fuel calls) := by
  induction calls with
  | nil => exact preserves_pure _
  | cons call calls ih => exact preserves_bind (preserves_perform call) fun _ => ih

/-- **A snapshot is truthful exactly where the process does not stand at CONNECTED while a disable
is in force.** Whatever the device answers and whatever calls came before, a snapshot that is
connected has a completed authentication and an address behind it, seen in one call after which
the clock was read less than a second ago, and no disable was in force; but a process in the state
CONNECTED that finds itself switched off returns that state. -/
theorem snapshot_truthful (io : WifiIo D) (fuel : ℕ) (calls : List Call) (device : D)
    {s : State D} (hrun : run io fuel calls (.start device) = some ((), s)) :
    ∀ r ∈ s.reads, Truthful r ↔ ¬(r.off = true ∧ r.state = .connected) := by
  have hstart : Sound (State.start device) := ⟨nofun, nofun⟩
  intro r hr
  obtain ⟨hoff, hon⟩ := (preserves_run calls _ _ _ hrun hstart).reads r hr
  constructor
  · rintro htrue ⟨hforce, hstate⟩
    have hnot := (htrue ((hoff hforce).trans hstate)).1
    simp [hforce] at hnot
  · intro hnot
    cases hforce : r.off with
    | false => exact hon hforce
    | true =>
      intro hconnected
      exact absurd ⟨hforce, (hoff hforce).symm.trans hconnected⟩ hnot

end

/-- A supplicant that stays connected to `home`. The device is what the next looks for the disabled
marker find. -/
def steadyIo : WifiIo (List Bool) where
  now markers := (0, markers)
  sleep _ markers := markers
  progress _ markers := (true, markers)
  disabledMarker markers := (markers.headD false, markers.tail)
  setDisabledMarker _ markers := (true, markers)
  controlReady _ _ markers := ((true, false), markers)
  ready markers := (⟨true, none, false, false⟩, markers)
  command _ _ _ _ markers := (none, markers)
  observeStatus _ _ markers := (some "ssid=home\nwpa_state=COMPLETED\n".toList, markers)
  address markers := (some (10 * 2 ^ 24 + 1), markers)
  dhcpAvailable markers := (true, markers)
  dhcp _ markers := ((false, false), markers)
  stopDhcp markers := ((true, false), markers)
  clearAddress markers := (true, markers)
  secureConfig markers := (true, markers)
  backupConfig markers := (none, markers)
  restoreConfig _ markers := (true, markers)
  enable _ markers := (true, markers)
  eventsOpen markers := ((false, false), markers)
  eventsWait _ markers := (.none, markers)
  eventsClose markers := markers
  psk _ _ := []

/-- A user interface takes over the result of its worker and looks twice. -/
def adoptedCalls : List Call :=
  [.adoptSnapshot ⟨.connected, [], "home".toList, "10.0.0.1".toList, [], .done⟩, .readSnapshot,
    .readSnapshot]

lemma exists_read (device : List Bool) (P : Read → Bool)
    (h : (run steadyIo 0 adoptedCalls (.start device)).any (fun p => p.2.reads.any P) = true) :
    ∃ s, run steadyIo 0 adoptedCalls (.start device) = some ((), s) ∧
      ∃ r ∈ s.reads, P r = true := by
  obtain ⟨⟨_, s⟩, hs, hany⟩ := (Option.any_eq_true _ _).mp h
  exact ⟨s, hs, List.any_eq_true.mp hany⟩

theorem snapshot_truthful_adopted : ∃ s, run steadyIo 0 adoptedCalls (.start []) = some ((), s) ∧
    ∃ r ∈ s.reads, (r.snapshot.state, r.snapshot.connectedSsid, r.snapshot.ipv4) =
      (.connected, "home".toList, "10.0.0.1".toList) ∧ Truthful r := by
  obtain ⟨s, hs, r, hr, hfacts⟩ := exists_read [] (fun r => r.off = false ∧
    (r.snapshot.state, r.snapshot.connectedSsid, r.snapshot.ipv4) =
      (.connected, "home".toList, "10.0.0.1".toList)) (by decide +kernel)
  obtain ⟨hoff, hsnapshot⟩ := of_decide_eq_true hfacts
  exact ⟨s, hs, r, hr, hsnapshot,
    (snapshot_truthful steadyIo 0 adoptedCalls [] hs r hr).mpr (by simp [hoff])⟩

/-- **A process that another one has switched off still says CONNECTED**, without an SSID or an
address. -/
theorem snapshot_truthful_fails :
    ∃ s, run steadyIo 0 adoptedCalls (.start [false, true]) = some ((), s) ∧
    ∃ r ∈ s.reads, (r.snapshot.state, r.snapshot.connectedSsid, r.snapshot.ipv4) =
      (.connected, [], []) ∧ r.off = true ∧ ¬Truthful r := by
  obtain ⟨s, hs, r, hr, hfacts⟩ := exists_read [false, true] (fun r => r.off = true ∧
    (r.snapshot.state, r.snapshot.connectedSsid, r.snapshot.ipv4) = (.connected, [], []))
    (by decide +kernel)
  obtain ⟨hoff, hsnapshot⟩ := of_decide_eq_true hfacts
  refine ⟨s, hs, r, hr, hsnapshot, hoff, fun htrue => ?_⟩
  have hon := (htrue (Prod.ext_iff.mp hsnapshot).1).1
  simp [hoff] at hon

end C1auncher.Wifi.Snapshots
