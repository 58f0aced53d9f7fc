import C1auncher.Wifi.Snapshots

/-!
A connection that succeeds was confirmed twice: after the lease, and again before the save.
-/

namespace C1auncher.Wifi.Confirmation

open CString Routines Wifi.Control Wifi.Service List
open Wifi.Operations Wifi.Frames Wifi.Snapshots

/-- A status that says the authentication to the SSID and the network id is complete. -/
def Confirms (status ssid : Text) (id : ℤ) : Prop :=
  completedStatus status (some ssid) (some id) = some ssid

/-- The supplicant has confirmed the network since the lease. -/
def ConfirmedOnce (log : List Seen) (ssid : Text) (id : ℤ) : Prop :=
  ∃ status lease first, .leased :: lease <:+ first ∧ .replied .status status :: first <:+ log ∧
    Confirms status ssid id

/-- The supplicant has confirmed the network after the lease, and then again; and if the
configuration was saved, nothing but the clock was looked at between that and the save. -/
def Confirmed (log : List Seen) (ssid : Text) (id : ℤ) (useSaved : Bool) : Prop :=
  ∃ status second, ConfirmedOnce second ssid id ∧ .replied .status status :: second <:+ log ∧
    Confirms status ssid id ∧ (useSaved = false → ∃ clocks : List ℤ,
      .saving :: (clocks.map Seen.clock ++ .replied .status status :: second) <:+ log)

lemma ConfirmedOnce.mono {log log' : List Seen} {ssid : Text} {id : ℤ}
    (h : ConfirmedOnce log ssid id) (hlog : log <:+ log') : ConfirmedOnce log' ssid id := by
  obtain ⟨status, lease, first, hlease, hfirst, hconfirms⟩ := h
  exact ⟨status, lease, first, hlease, hfirst.trans hlog, hconfirms⟩

lemma Confirmed.mono {log log' : List Seen} {ssid : Text} {id : ℤ} {useSaved : Bool}
    (h : Confirmed log ssid id useSaved) (hlog : log <:+ log') :
    Confirmed log' ssid id useSaved := by
  obtain ⟨status, second, hfirst, hsecond, hconfirms, hsaving⟩ := h
  refine ⟨status, second, hfirst, hsecond.trans hlog, hconfirms, fun hnew => ?_⟩
  obtain ⟨clocks, hclocks⟩ := hsaving hnew
  exact ⟨clocks, hclocks.trans hlog⟩

lemma Kept.suffix {D : Type} {s s' : State D} (h : Kept s s') : s.log <:+ s'.log := by
  obtain ⟨more, hmore, -⟩ := h.log
  exact ⟨more, hmore.symm⟩

section
variable {D : Type} {io : WifiIo D} {fuel : ℕ} {s : State D}

lemma authenticated_confirms (ssid : Text) (id : ℤ) :
    wlp (authenticated io (some ssid) (some id)) (fun r s' => r.isSome = true →
      ∃ status first, s'.log = .replied .status status :: first ∧ s.log <:+ first ∧
        Confirms status ssid id) s := by
  have hcommand : wlp (command io .status outputCapacity) (fun r s' => ∀ status ∈ r,
      ∃ first, s'.log = .replied .status status :: first ∧ s.log <:+ first) s := by
    refine wlp_bind (wlp_mono ((kept io).keeps_remainingMs _ s) fun timeout t ht => ?_)
    refine wlp_ite (fun _ => wlp_pure nofun) fun _ => wlp_bind (wlp_get (wlp_bind ?_))
    rintro reply u ⟨⟩
    split
    · exact wlp_pure nofun
    refine wlp_bind (wlp_modify (wlp_pure ?_))
    rintro _ ⟨⟩
    exact ⟨t.log, rfl, Kept.suffix ht⟩
  refine wlp_bind (wlp_mono hcommand fun r t hr => wlp_pure fun hsome => ?_)
  obtain ⟨found, hfound⟩ := Option.isSome_iff_exists.mp hsome
  obtain ⟨status, rfl, hcompleted⟩ := Option.bind_eq_some_iff.mp hfound
  obtain ⟨first, hlog, hsuffix⟩ := hr status rfl
  obtain rfl : found = ssid := (completedStatus_eq_some.mp hcompleted).2.1 ssid rfl
  exact ⟨status, first, hlog, hsuffix, hcompleted⟩

lemma dhcp_leased (ms : ℤ) :
    wlp (dhcp io ms) (fun ok s' => ok = true → s'.log = .leased :: s.log) s := by
  have hask : wlp (ask (io.dhcp ms)) (fun _ t => t.log = s.log) s := by
    rintro _ _ ⟨⟩
    rfl
  refine wlp_bind (wlp_mono hask fun ⟨ok, stop⟩ t ht => wlp_bind (wlp_modify ?_))
  cases ok with
  | false => exact wlp_pure nofun
  | true => exact wlp_bind (wlp_modify (wlp_pure fun _ => congrArg (Seen.leased :: ·) ht))

lemma acquire_confirmed (ssid : Text) (targetId : ℤ) :
    wlp (acquire io fuel ssid targetId) (fun r s' => r.2.isSome = true →
      ConfirmedOnce s'.log ssid targetId) s := by
  have hfail (message : String) (s : State D) : wlp (do
      setError message
      return (false, none) : Op D (Bool × Option Text)) (fun r s' => r.2.isSome = true →
        ConfirmedOnce s'.log ssid targetId) s :=
    wlp_bind (wlp_modify (wlp_pure nofun))
  refine wlp_bind (wlp_modify (wlp_bind (wlp_mono ((kept io).keeps_commandOk trivial _)
    fun started t _ => wlp_ite (fun _ => hfail _ _) fun _ => ?_)))
  refine wlp_bind (wlp_mono ((kept io).keeps_waitAuthenticated _ _ _ _) fun joined u _ =>
    wlp_ite (fun _ => hfail _ _) fun _ => wlp_bind (wlp_modify ?_))
  have hleased (u : State D) : wlp (andAlso (continueOperation io) (do
      dhcp io (← remainingMs io 10000)))
      (fun ok s' => ok = true → ∃ lease, .leased :: lease <:+ s'.log) u := by
    refine wlp_andAlso (wlp_mono ((kept io).keeps_continueOperation u) fun go v _ => ?_)
    cases go with
    | false => exact nofun
    | true =>
      exact wlp_bind (wlp_mono ((kept io).keeps_remainingMs _ v) fun ms w _ =>
        wlp_mono (dhcp_leased ms) fun ok x hok htrue => ⟨w.log, by rw [hok htrue]⟩)
  refine wlp_bind (wlp_mono (hleased _) fun leased v hlease => ?_)
  have hnamed : wlp (andAlso (pure leased) (do
      return (← authenticated io (some ssid) (some targetId)).isSome))
      (fun ok s' => ok = true → ConfirmedOnce s'.log ssid targetId) v := by
    refine wlp_andAlso (wlp_pure ?_)
    cases leased with
    | false => exact nofun
    | true =>
      refine wlp_bind (wlp_mono (authenticated_confirms ssid targetId) fun r w hr =>
        wlp_pure fun hsome => ?_)
      obtain ⟨lease, hlease⟩ := hlease rfl
      obtain ⟨status, first, hlog, hfirst, hconfirms⟩ := hr hsome
      exact ⟨status, lease, first, hlease.trans hfirst, hlog ▸ suffix_rfl, hconfirms⟩
  refine wlp_bind (wlp_mono hnamed fun named w hw => wlp_bind ?_)
  have hip : wlp (if named then interfaceIpv4 io else pure none)
      (fun r s' => r.isSome = true → ConfirmedOnce s'.log ssid targetId) w := by
    refine wlp_ite (fun hyes => ?_) fun _ => wlp_pure nofun
    exact wlp_mono ((kept io).keeps_interfaceIpv4 w) fun r x hx _ => (hw hyes).mono (Kept.suffix hx)
  exact wlp_mono hip fun ip x hx => wlp_bind (wlp_mono (kept_onlyIf (kept_setError _) x)
    fun _ y hy => wlp_pure fun hsome => (hx hsome).mono (Kept.suffix hy))

lemma continueOperation_clocks :
    wlp (continueOperation io) (fun _ s' => ∃ clocks : List ℤ,
      s'.log = clocks.map Seen.clock ++ s.log) s := by
  have hnow (t : State D) (ht : t.log = s.log) : wlp (now io)
      (fun _ s' => ∃ clocks : List ℤ, s'.log = clocks.map Seen.clock ++ s.log) t := by
    rintro _ _ ⟨⟩
    exact ⟨[(io.now t.device).1], by simp [ht]⟩
  have hrest (t : State D) (ht : t.log = s.log) : wlp (do
      let s ← get
      if s.operationCancelled && !s.restoring then return false
      if s.operationDeadline = 0 then return true
      return (← now io) < s.operationDeadline : Op D Bool)
      (fun _ s' => ∃ clocks : List ℤ, s'.log = clocks.map Seen.clock ++ s.log) t :=
    wlp_bind (wlp_get (wlp_ite (fun _ => wlp_pure ⟨[], by simp [ht]⟩) fun _ =>
      wlp_ite (fun _ => wlp_pure ⟨[], by simp [ht]⟩) fun _ =>
      wlp_bind (wlp_mono (hnow t ht) fun _ _ h => wlp_pure h)))
  refine wlp_bind (wlp_get (wlp_ite (fun _ => wlp_bind ?_) fun _ => hrest s rfl))
  rintro go t ⟨⟩
  exact wlp_bind (wlp_modify (hrest _ rfl))

lemma commit_confirmed (ssid : Text) (targetId : ℤ) (useSaved : Bool) (backup : Backup)
    (h : ConfirmedOnce s.log ssid targetId) :
    wlp (commit io ssid targetId useSaved backup) (fun r s' => r.2 = true →
      Confirmed s'.log ssid targetId useSaved) s := by
  have hagain : wlp (andAlso (restoreEnabled io backup (some targetId)) (do
      return (← authenticated io (some ssid) (some targetId)).isSome))
      (fun ok s' => ok = true → ∃ status second, s'.log = .replied .status status :: second ∧
        ConfirmedOnce second ssid targetId ∧ Confirms status ssid targetId) s := by
    refine wlp_andAlso (wlp_mono (kept_restoreNetworks _ _ s) fun ok t ht => ?_)
    cases ok with
    | false => exact nofun
    | true =>
      refine wlp_bind (wlp_mono (authenticated_confirms ssid targetId) fun r u hr =>
        wlp_pure fun hsome => ?_)
      obtain ⟨status, second, hlog, hsecond, hconfirms⟩ := hr hsome
      exact ⟨status, second, hlog, h.mono ((Kept.suffix ht).trans hsecond), hconfirms⟩
  refine wlp_bind (wlp_mono hagain fun ok t ht => wlp_ite
    (fun _ => wlp_bind (wlp_modify (wlp_pure nofun))) fun hok => ?_)
  obtain ⟨status, second, hlog, hfirst, hconfirms⟩ := ht (by simpa using hok)
  refine wlp_ite (fun hsaved => wlp_pure fun _ => ?_) fun _ => ?_
  · exact ⟨status, second, hfirst, hlog ▸ suffix_rfl, hconfirms, by simp [hsaved]⟩
  refine wlp_bind (wlp_modify (wlp_bind (wlp_mono continueOperation_clocks
    fun go u ⟨clocks, hclocks⟩ => wlp_ite (fun _ => wlp_pure nofun) fun _ => ?_)))
  have hu : u.log = clocks.map Seen.clock ++ .replied .status status :: second := by
    rw [hclocks, ← hlog]
  refine wlp_bind (wlp_modify (wlp_bind (wlp_modify ?_)))
  have hend (v : State D) (hv : .saving :: u.log <:+ v.log) :
      Confirmed v.log ssid targetId useSaved := by
    rw [hu] at hv
    refine ⟨status, second, hfirst, IsSuffix.trans ?_ hv, hconfirms, fun _ => ⟨clocks, hv⟩⟩
    exact (suffix_append _ _).trans (suffix_cons _ _)
  refine wlp_bind (wlp_mono (kept_andAlso ((kept io).keeps_commandOk trivial) (kept_ask _) _)
    fun saved v hv => wlp_ite (fun _ => wlp_bind (wlp_modify (wlp_pure nofun))) fun _ =>
    wlp_pure fun _ => hend v (Kept.suffix hv))

/-- **A connection that succeeds was confirmed after the lease and again before the save.** -/
theorem authenticate_confirmed (ssid : Text) (r : Request) (backup : Backup) (newId : Option ℤ)
    (targetId : ℤ) : wlp (authenticate io fuel ssid r backup newId targetId)
      (fun result s' => result.1 = true → Confirmed s'.log ssid targetId r.useSaved) s := by
  refine wlp_bind (wlp_mono (acquire_confirmed ssid targetId) fun ⟨dhcpStarted, ip⟩ t ht => ?_)
  cases ip with
  | none => exact wlp_pure nofun
  | some ip =>
    refine wlp_bind (wlp_mono (commit_confirmed _ _ _ _ (ht rfl)) fun ⟨saved, committed⟩ u hu => ?_)
    have hsucceed : wlp (succeed io ssid ip r.security) (fun _ v => u.log <:+ v.log) u := by
      refine wlp_bind (wlp_modify (wlp_bind (wlp_bind (wlp_mono ((kept io).keeps_now _)
        fun _ v hv => wlp_modify (wlp_modify ?_)))))
      have hlog := Kept.suffix hv
      exact hlog
    refine wlp_bind (wlp_ite (fun hyes => ?_) fun hno => wlp_pure (wlp_pure fun h => absurd h hno))
    exact wlp_mono hsucceed fun _ v hv => wlp_pure fun _ => (hu hyes).mono hv

end

end C1auncher.Wifi.Confirmation
