import C1auncher.Wifi.Confirmation
import C1auncher.Wifi.Listing

/-!
A connection that fails is taken back, whatever becomes of the commands on the way; but not a
network that was added without its id being heard.
-/

namespace C1auncher.Wifi.Rollback

open CString Routines Wifi.Control Wifi.Service List Option
open Wifi.Operations Wifi.Frames Wifi.Snapshots
open Wifi.Supplicant Wifi.Listing Wifi.Confirmation

/-! ### What an attempt leaves of the device -/

def plain (p : Profile) : Profile := p.withBit false

/-- The client or the address is the one from before, or gone, or of the network from before. -/
def Clean (h₀ : Host) (client address : Option ℤ) : Prop :=
  client ∈ [h₀.client, none, h₀.current] ∧ address ∈ [h₀.address, none, h₀.current]

/-- A failed call has left everything as it was. -/
structure Restored (h₀ h : Host) : Prop where
  saved : h.saved = h₀.saved
  config : h.config = h₀.config
  clean : Clean h₀ h.client h.address

/-- The saved networks are those from before, up to their bits and the new one; the client and the
address are `P`; and the configuration is untouched until it is saved. -/
structure Attempting (h₀ : Host) (fresh : Option ℤ) (saved : Bool)
    (P : Option ℤ → Option ℤ → Prop) (h : Host) : Prop where
  alike : (h.saved.list.filter (fun p => fresh ≠ some p.id)).map plain =
    h₀.saved.list.map plain
  config : saved = false → h.config = h₀.config
  link : P h.client h.address

lemma Attempting.mono {h₀ h : Host} {fresh : Option ℤ} {saved saved' : Bool}
    {P P' : Option ℤ → Option ℤ → Prop} (ha : Attempting h₀ fresh saved P h)
    (hs : saved' = false → saved = false) (hP : P h.client h.address → P' h.client h.address) :
    Attempting h₀ fresh saved' P' h :=
  ⟨ha.alike, fun h => ha.config (hs h), hP ha.link⟩

def moves (fresh : Option ℤ) (saved : Bool) : Command → Prop
  | .setNetwork id _ _ | .removeNetwork id => fresh = some id
  | .selectNetwork _ | .enableNetwork _ | .disableNetwork _ | .disconnect => True
  | .saveConfig => saved = true
  | c => asks c = true

@[simp] lemma join_saved (h : Host) (joins : Option ℤ) : (h.join joins).saved = h.saved := by
  unfold Host.join
  split_ifs <;> rfl

@[simp] lemma leave_saved (h : Host) (id : ℤ) : (h.leave id).saved = h.saved := by
  unfold Host.leave
  split_ifs <;> rfl

/-- What is not a matter of the supplicant. -/
def Host.rest (h : Host) : Text × Option ℤ × Option ℤ := (h.config, h.client, h.address)

@[simp] lemma join_rest (h : Host) (joins : Option ℤ) : Host.rest (h.join joins) = Host.rest h := by
  unfold Host.join
  split_ifs <;> rfl

@[simp] lemma leave_rest (h : Host) (id : ℤ) : Host.rest (h.leave id) = Host.rest h := by
  unfold Host.leave
  split_ifs <;> rfl

lemma alike_setBits (fresh : Option ℤ) (profiles : Profiles) (bit : Profile → Bool) :
    ((profiles.setBits bit).list.filter (fun p => fresh ≠ some p.id)).map plain =
      (profiles.list.filter (fun p => fresh ≠ some p.id)).map plain := by
  simp only [Profiles.setBits, Profiles.change, List.filter_map, List.map_map]
  rfl

lemma alike_set (id : ℤ) (profiles : Profiles) (name value : Text) :
    ((profiles.set id name value).list.filter (fun p => some id ≠ some p.id)).map plain =
      (profiles.list.filter (fun p => some id ≠ some p.id)).map plain := by
  have hid : ∀ p : Profile, (if p.id = id then (p.set name value).getD p else p).id = p.id := by
    intro p
    split_ifs
    · cases h : p.set name value with
      | none => rfl
      | some q => exact Profile.set_id h
    · rfl
  simp only [Profiles.set, Profiles.change, List.filter_map, List.map_map, Function.comp_def, hid]
  refine map_congr_left fun p hp => ?_
  have hne : p.id ≠ id := fun h => by simp [h] at hp
  simp [hne]

lemma alike_remove (id : ℤ) (profiles : Profiles) :
    (profiles.remove id).list.filter (fun p => some id ≠ some p.id) =
      profiles.list.filter (fun p => some id ≠ some p.id) := by
  simp only [Profiles.remove, List.filter_filter]
  refine filter_congr fun p _ => ?_
  by_cases h : p.id = id <;> simp [h]

lemma Attempting.carry {turn : Turn} {h₀ h host : Host} {fresh : Option ℤ} {saved : Bool}
    {P : Option ℤ → Option ℤ → Prop} {c : Command} {reply : Text}
    (ha : Attempting h₀ fresh saved P h) (hc : moves fresh saved c)
    (hcarry : h.carry turn c = some (host, reply)) : Attempting h₀ fresh saved P host := by
  have hsame (host : Host) (hsaved : host.saved = h.saved) (hrest : Host.rest host = Host.rest h) :
      Attempting h₀ fresh saved P host := by
    simp only [Host.rest, Prod.mk.injEq] at hrest
    obtain ⟨hconfig, hclient, haddress⟩ := hrest
    exact ⟨by rw [hsaved]; exact ha.alike, fun hs => hconfig.trans (ha.config hs),
      by rw [hclient, haddress]; exact ha.link⟩
  have hnew (host : Host) (profiles : Profiles) (hsaved : host.saved = profiles)
      (hrest : Host.rest host = Host.rest h)
      (halike : (profiles.list.filter (fun p => fresh ≠ some p.id)).map plain =
        (h.saved.list.filter (fun p => fresh ≠ some p.id)).map plain) :
      Attempting h₀ fresh saved P host := by
    simp only [Host.rest, Prod.mk.injEq] at hrest
    obtain ⟨hconfig, hclient, haddress⟩ := hrest
    exact ⟨by rw [hsaved, halike]; exact ha.alike, fun hs => hconfig.trans (ha.config hs),
      by rw [hclient, haddress]; exact ha.link⟩
  cases c with
  | setNetwork id name value =>
    obtain rfl : fresh = some id := hc
    simp only [Host.carry] at hcarry
    split_ifs at hcarry
    obtain ⟨rfl, -⟩ := Prod.ext_iff.mp (some.inj hcarry)
    exact hnew _ _ rfl rfl (alike_set id h.saved name value)
  | removeNetwork id =>
    obtain rfl : fresh = some id := hc
    simp only [Host.carry] at hcarry
    split_ifs at hcarry
    obtain ⟨rfl, -⟩ := Prod.ext_iff.mp (some.inj hcarry)
    refine hnew _ _ ((join_saved _ _).trans (leave_saved _ _))
      ((join_rest _ _).trans (leave_rest _ _)) ?_
    dsimp only
    rw [alike_remove]
  | selectNetwork id =>
    simp only [Host.carry] at hcarry
    split_ifs at hcarry
    obtain ⟨rfl, -⟩ := Prod.ext_iff.mp (some.inj hcarry)
    exact hnew _ _ rfl rfl (alike_setBits _ _ _)
  | enableNetwork id =>
    simp only [Host.carry] at hcarry
    split_ifs at hcarry
    obtain ⟨rfl, -⟩ := Prod.ext_iff.mp (some.inj hcarry)
    exact hnew _ _ (join_saved _ _) (join_rest _ _) (alike_setBits _ _ _)
  | disableNetwork id =>
    simp only [Host.carry] at hcarry
    split_ifs at hcarry
    obtain ⟨rfl, -⟩ := Prod.ext_iff.mp (some.inj hcarry)
    exact hnew _ _ ((join_saved _ _).trans (leave_saved _ _))
      ((join_rest _ _).trans (leave_rest _ _)) (alike_setBits _ _ _)
  | disconnect =>
    obtain ⟨rfl, -⟩ := Prod.ext_iff.mp (some.inj hcarry)
    exact hsame _ rfl rfl
  | saveConfig =>
    obtain rfl : saved = true := hc
    obtain ⟨rfl, -⟩ := Prod.ext_iff.mp (some.inj hcarry)
    exact ⟨ha.alike, by simp, ha.link⟩
  | ping | status | listNetworks _ | getNetwork _ _ | bss _ =>
    obtain rfl := carry_asks rfl hcarry
    exact ha
  | addNetwork | reconnect | bssFlush | scan => simp [moves, asks] at hc

section
variable {psk : Text → Text → Text} {script : ℕ → Turn} {fuel : ℕ} {s : State Site}
variable {h₀ : Host} {fresh : Option ℤ} {saved : Bool} {P : Option ℤ → Option ℤ → Prop}

/-- The routine keeps to the attempt, and adds no network. -/
def Holds (h₀ : Host) (fresh : Option ℤ) (saved : Bool) (P : Option ℤ → Option ℤ → Prop)
    (s s' : State Site) : Prop :=
  (Attempting h₀ fresh saved P s.device.host → Attempting h₀ fresh saved P s'.device.host) ∧
    s'.device.added = s.device.added

lemma Holds.of_steady {s s' : State Site} (h : Steady s s') : Holds h₀ fresh saved P s s' :=
  ⟨fun ha => by rw [h.1]; exact ha, h.2⟩

lemma holds (psk : Text → Text → Text) (script : ℕ → Turn) (h₀ : Host) (fresh : Option ℤ)
    (saved : Bool) (P : Option ℤ → Option ℤ → Prop) :
    Frame (siteIo psk script) (moves fresh saved) (Holds h₀ fresh saved P) where
  refl s := .of_steady (.refl s)
  trans h h' := ⟨fun ha => h'.1 (h.1 ha), h'.2.trans h.2⟩
  own hd ho hr hl := .of_steady ((steady psk script).own hd ho hr hl)
  see hne := ((steady psk script).see hne).mono fun _ _ => .of_steady
  hear _ := ((steady psk script).hear _).mono fun _ _ => .of_steady
  askNow := (steady psk script).askNow.mono fun _ _ => .of_steady
  sleep _ := ((steady psk script).sleep _).mono fun _ _ => .of_steady
  askProgress _ := ((steady psk script).askProgress _).mono fun _ _ => .of_steady
  askMarker := (steady psk script).askMarker.mono fun _ _ => .of_steady
  askSetMarker _ := ((steady psk script).askSetMarker _).mono fun _ _ => .of_steady
  askReady := (steady psk script).askReady.mono fun _ _ => .of_steady
  askAddress := (steady psk script).askAddress.mono fun _ _ => .of_steady
  askDhcpAvailable := (steady psk script).askDhcpAvailable.mono fun _ _ => .of_steady
  askBackup := (steady psk script).askBackup.mono fun _ _ => .of_steady
  askCommand {c} hc factory capacity ms := by
    rintro s _ _ ⟨⟩
    have hadd : c ≠ .addNetwork := by
      rintro rfl
      simp [moves, asks] at hc
    have hsent := sent_command script c capacity (fun h => absurd h hadd) s.device
    change (Attempting h₀ fresh saved P s.device.host →
      Attempting h₀ fresh saved P (s.device.command script c capacity).2.host) ∧
      (s.device.command script c capacity).2.added = s.device.added
    generalize (s.device.command script c capacity).1 = reply at hsent
    generalize (s.device.command script c capacity).2 = site at hsent ⊢
    cases hsent with
    | answered carry _ => exact ⟨fun ha => ha.carry hc carry, by simp [Site.carried, hadd]⟩
    | unheard carry _ _ => exact ⟨fun ha => ha.carry hc carry, by simp [Site.carried, hadd]⟩
    | passed _ => exact ⟨id, rfl⟩
  sent_of_asks {c} hc := by
    cases c <;> simp_all [moves, asks]

lemma commandOk_carried {c : Command} (hadd : c ≠ .addNetwork) :
    wlp (commandOk (siteIo psk script) c) (fun ok s' => ok = true →
      ∃ turn reply, s.device.host.carry turn c = some (s'.device.host, reply)) s := by
  refine wlp_bind (wlp_mono (command_sent c 128 fun h => absurd h hadd) fun reply t ht =>
    wlp_pure fun hok => ?_)
  obtain ⟨r, rfl, hr⟩ := (Option.any_eq_true _ _).mp hok
  obtain ⟨hnone, -⟩ | ⟨u, hu, hsent⟩ := ht
  · contradiction
  have hfail : ∀ {r : Text}, (some r = none ∨ some r = some "FAIL\n".toList) →
      replyIs r "OK".toList ≠ true := by
    rintro r (h | h)
    · contradiction
    · rw [some.inj h]
      decide
  generalize t.device = site at hsent ⊢
  cases hsent with
  | answered carry _ => exact ⟨_, _, hu.1 ▸ carry⟩
  | unheard _ heard _ => exact absurd hr (hfail heard)
  | passed heard => exact absurd hr (hfail heard)

lemma dhcp_lease (ms : ℤ) : wlp (dhcp (siteIo psk script) ms) (fun ok s' =>
    s'.device.host.saved = s.device.host.saved ∧ s'.device.host.config = s.device.host.config ∧
      s'.device.added = s.device.added ∧ (ok = true →
        s'.device.host.client = s.device.host.current ∧
          s'.device.host.address = s.device.host.current)) s := by
  have hask : wlp (ask ((siteIo psk script).dhcp ms)) (fun p t =>
      t.device.host.saved = s.device.host.saved ∧ t.device.host.config = s.device.host.config ∧
        t.device.added = s.device.added ∧ (p.1 = true →
          t.device.host.client = s.device.host.current ∧
            t.device.host.address = s.device.host.current)) s := by
    rintro _ _ ⟨⟩
    simp only [siteIo, Site.act, Host.lease]
    split_ifs <;> simp
  refine wlp_bind (wlp_mono hask fun ⟨ok, stop⟩ t ht => wlp_bind (wlp_modify ?_))
  cases ok with
  | false => exact wlp_pure ht
  | true => exact wlp_bind (wlp_modify (wlp_pure ht))

lemma dhcp_holds (ms : ℤ) :
    Keeps (Holds h₀ fresh saved fun _ _ => True) (dhcp (siteIo psk script) ms) := by
  refine fun s => wlp_mono (dhcp_lease ms) fun ok t ⟨hsaved, hconfig, hadded, _⟩ =>
    ⟨fun ha => ?_, hadded⟩
  exact ⟨by rw [hsaved]; exact ha.alike, fun h => hconfig.trans (ha.config h), trivial⟩

/-- The client and the address, while no DHCP call has been made. -/
def Untouched (h₀ : Host) (client address : Option ℤ) : Prop :=
  client = h₀.client ∧ address = h₀.address

/-- What is known of the client and the address once a DHCP call may have been made. -/
def Linked (h₀ : Host) (dhcpStarted : Bool) (client address : Option ℤ) : Prop :=
  dhcpStarted = false → Untouched h₀ client address

lemma acquire_holds (ssid : Text) (targetId : ℤ)
    (ha : Attempting h₀ fresh false (Untouched h₀) s.device.host) :
    wlp (acquire (siteIo psk script) fuel ssid targetId) (fun r s' =>
      Attempting h₀ fresh false (Linked h₀ r.1) s'.device.host ∧
        s'.device.added = s.device.added) s := by
  have h := holds psk script h₀ fresh false (Untouched h₀)
  have h' := holds psk script h₀ fresh false fun _ _ => True
  have hfail (message : String) {t : State Site} (ht : Holds h₀ fresh false (Untouched h₀) s t) :
      wlp (do
        setError message
        return (false, none) : Op Site (Bool × Option Text)) (fun r s' =>
        Attempting h₀ fresh false (Linked h₀ r.1) s'.device.host ∧
          s'.device.added = s.device.added) t :=
    wlp_bind (wlp_modify (wlp_pure ⟨(ht.1 ha).mono id fun hlink _ => hlink, ht.2⟩))
  refine wlp_bind (wlp_modify (wlp_bind (wlp_mono
    (h.keeps_commandOk (c := .selectNetwork targetId) trivial _) fun started t ht => 
    wlp_ite (fun _ => hfail _ ht) fun _ => ?_)))
  refine wlp_bind (wlp_mono (h.keeps_waitAuthenticated _ _ _ _) fun joined u hu =>
    wlp_ite (fun _ => hfail _ (h.trans ht hu)) fun _ => wlp_bind (wlp_modify ?_))
  have hsu := h.trans ht hu
  have hu' : Attempting h₀ fresh false (fun _ _ => True) u.device.host :=
    (hsu.1 ha).mono id fun _ => trivial
  have hrest : Keeps (Holds h₀ fresh false fun _ _ => True) (do
      let leased ← andAlso (continueOperation (siteIo psk script)) (do
        dhcp (siteIo psk script) (← remainingMs (siteIo psk script) 10000))
      let named ← andAlso (pure leased) (do
        return (← authenticated (siteIo psk script) (some ssid) (some targetId)).isSome)
      let ip ← (if named then interfaceIpv4 (siteIo psk script) else pure none)
      onlyIf ip.isNone (setError "TARGET ADDRESS ACQUISITION FAILED")
      return (true, ip) : Op Site (Bool × Option Text)) := by
    refine h'.keeps_bind (h'.keeps_andAlso h'.keeps_continueOperation
      (h'.keeps_bind (h'.keeps_remainingMs _) fun _ => dhcp_holds _)) fun leased => ?_
    refine h'.keeps_bind (h'.keeps_andAlso (h'.keeps_pure _)
      (h'.keeps_bind (h'.keeps_authenticated _ _) fun _ => h'.keeps_pure _)) fun named => ?_
    exact h'.keeps_bind (keeps_ite h'.keeps_interfaceIpv4 (h'.keeps_pure _)) fun ip =>
      h'.keeps_bind (h'.keeps_onlyIf (h'.keeps_setError _)) fun _ => h'.keeps_pure _
  refine wlp_mono (wlp_and (hrest _) (wlp_bind fun leased _ _ => wlp_bind fun named _ _ =>
    wlp_bind fun ip _ _ => wlp_bind fun _ _ _ =>
    wlp_pure (Q := fun (r : Bool × Option Text) _ => r.1 = true) rfl))
    fun r v ⟨hv, hr⟩ => ⟨(hv.1 hu').mono id fun _ hnot => ?_, hv.2.trans hsu.2⟩
  rw [hr] at hnot
  contradiction

lemma restoreNetworks_holds (hmoves : ∀ id, moves fresh saved (.enableNetwork id) ∧
    moves fresh saved (.disableNetwork id)) (keepEnabled : Option ℤ)
    (networks : List SavedNetwork) :
    Keeps (Holds h₀ fresh saved P) (restoreNetworks (siteIo psk script) keepEnabled networks) := by
  have h := holds psk script h₀ fresh saved P
  induction networks with
  | nil => exact h.keeps_pure _
  | cons network networks ih =>
    have hc : moves fresh saved (if network.disabled then .disableNetwork network.id
        else .enableNetwork network.id) := by
      split_ifs
      · exact (hmoves _).2
      · exact (hmoves _).1
    exact keeps_ite ih (h.keeps_bind (h.keeps_commandOk hc) fun _ =>
      h.keeps_bind ih fun _ => h.keeps_pure _)

lemma commit_holds (ssid : Text) (targetId : ℤ) (useSaved : Bool) (backup : Backup)
    (ha : Attempting h₀ fresh false P s.device.host) :
    wlp (commit (siteIo psk script) ssid targetId useSaved backup) (fun r s' =>
      Attempting h₀ fresh r.1 P s'.device.host ∧ s'.device.added = s.device.added) s := by
  have h := holds psk script h₀ fresh false P
  have h' := holds psk script h₀ fresh true P
  have hfirst : Keeps (Holds h₀ fresh false P) (andAlso
      (restoreEnabled (siteIo psk script) backup (some targetId)) (do
        return (← authenticated (siteIo psk script) (some ssid) (some targetId)).isSome)) :=
    h.keeps_andAlso (restoreNetworks_holds (fun _ => ⟨trivial, trivial⟩) _ _)
      (h.keeps_bind (h.keeps_authenticated _ _) fun _ => h.keeps_pure _)
  have hend {t : State Site} (ht : Holds h₀ fresh false P s t) :
      Attempting h₀ fresh false P t.device.host ∧ t.device.added = s.device.added :=
    ⟨ht.1 ha, ht.2⟩
  refine wlp_bind (wlp_mono (hfirst s) fun ok t ht => wlp_ite
    (fun _ => wlp_bind (wlp_modify (wlp_pure (hend ht)))) fun _ =>
    wlp_ite (fun _ => wlp_pure (hend ht)) fun _ => wlp_bind (wlp_modify ?_))
  refine wlp_bind (wlp_mono (h.keeps_continueOperation _) fun go u hu => wlp_ite
    (fun _ => wlp_pure (hend (h.trans ht hu))) fun _ => wlp_bind (wlp_modify (wlp_bind
    (wlp_modify ?_))))
  have hsu := h.trans ht hu
  have hu' : Attempting h₀ fresh true P u.device.host := (hsu.1 ha).mono nofun id
  have hsave : Keeps (Holds h₀ fresh true P) (andAlso (commandOk (siteIo psk script) .saveConfig)
      (ask (siteIo psk script).secureConfig)) :=
    h'.keeps_andAlso (h'.keeps_commandOk rfl)
      ((steady_ask fun _ => ⟨rfl, rfl⟩).mono fun _ _ => .of_steady)
  exact wlp_bind (wlp_mono (hsave _) fun ok v hv => wlp_ite
    (fun _ => wlp_bind (wlp_modify (wlp_pure ⟨hv.1 hu', hv.2.trans hsu.2⟩))) fun _ =>
    wlp_pure ⟨hv.1 hu', hv.2.trans hsu.2⟩)

lemma authenticate_holds (ssid : Text) (r : Request) (backup : Backup) (targetId : ℤ)
    (ha : Attempting h₀ fresh false (Untouched h₀) s.device.host) :
    wlp (authenticate (siteIo psk script) fuel ssid r backup fresh targetId) (fun result s' =>
      result.2.newId = fresh ∧ result.2.selected = true ∧
        Attempting h₀ fresh result.2.saveAttempted (Linked h₀ result.2.dhcpStarted)
          s'.device.host ∧ s'.device.added = s.device.added) s := by
  refine wlp_bind (wlp_mono (acquire_holds ssid targetId ha) fun ⟨dhcpStarted, ip⟩ t ⟨ht, hadded⟩ =>
    ?_)
  cases ip with
  | none => exact wlp_pure ⟨rfl, rfl, ht, hadded⟩
  | some ip =>
    have ht' : Attempting h₀ fresh false (Linked h₀ true) t.device.host := ht.mono id fun _ => nofun
    refine wlp_bind (wlp_mono (commit_holds _ _ _ _ ht') fun ⟨saved, committed⟩ u ⟨hu, hadded'⟩ =>
      ?_)
    have hsucceed : Keeps Steady (succeed (siteIo psk script) ssid ip r.security) := by
      refine fun s => wlp_bind (wlp_modify (wlp_bind (wlp_bind (wlp_mono
        ((steady psk script).keeps_now _) fun _ v hv => wlp_modify (wlp_modify ?_)))))
      exact hv
    refine wlp_bind (wlp_mono (keeps_onlyIf Steady.refl hsucceed u) fun _ v hv => wlp_pure ?_)
    exact ⟨rfl, rfl, by rw [hv.1]; exact hu, hv.2.trans (hadded'.trans hadded)⟩

/-! ### Rollback -/

def HasBit (h : Host) (n : SavedNetwork) : Prop :=
  ∀ p ∈ h.saved.list, p.id = n.id → p.disabled = n.disabled

/-- The command of `restore_enabled` for a network. -/
def restoring (n : SavedNetwork) : Command :=
  if n.disabled then .disableNetwork n.id else .enableNetwork n.id

variable {h : Host} {backup : Backup} {config : Option Text} {id : ℤ} {r : Request} {ssid : Text}

lemma carry_restoring {turn : Turn} {host : Host} {n : SavedNetwork} {reply : Text}
    (hcarry : h.carry turn (restoring n) = some (host, reply)) :
    host.saved = h.saved.setBits fun p => if p.id = n.id then n.disabled else p.disabled := by
  unfold restoring at hcarry
  split_ifs at hcarry with hbit
  · simp only [Host.carry] at hcarry
    split_ifs at hcarry
    obtain ⟨rfl, -⟩ := Prod.ext_iff.mp (some.inj hcarry)
    rw [join_saved, leave_saved]
    refine congrArg h.saved.setBits (funext fun p => ?_)
    by_cases hid : p.id = n.id <;> simp [hid, hbit]
  · simp only [Host.carry] at hcarry
    split_ifs at hcarry
    obtain ⟨rfl, -⟩ := Prod.ext_iff.mp (some.inj hcarry)
    rw [join_saved]
    refine congrArg h.saved.setBits (funext fun p => ?_)
    by_cases hid : p.id = n.id <;> simp [hid, hbit]

lemma hasBit_restoring (n : SavedNetwork) :
    wlp (commandOk (siteIo psk script) (restoring n)) (fun ok s' => ok = true →
      HasBit s'.device.host n ∧ ∀ m : SavedNetwork, m.id ≠ n.id → HasBit s.device.host m →
        HasBit s'.device.host m) s := by
  have hadd : restoring n ≠ .addNetwork := by
    unfold restoring
    split_ifs <;> simp
  refine wlp_mono (commandOk_carried hadd) fun ok t ht hok => ?_
  obtain ⟨turn, reply, hcarry⟩ := ht hok
  have hsaved := carry_restoring hcarry
  simp only [HasBit, hsaved, Profiles.setBits, Profiles.change, List.mem_map]
  refine ⟨?_, fun m hne hm => ?_⟩
  · rintro _ ⟨p, -, rfl⟩ hid
    rw [Profile.withBit_id] at hid
    simp [hid]
  rintro _ ⟨p, hp, rfl⟩ hid
  rw [Profile.withBit_id] at hid
  have hpn : p.id ≠ n.id := fun h => hne (hid.symm.trans h)
  simpa [hpn] using hm p hp hid

lemma hasBit_restoreNetworks {networks : List SavedNetwork}
    (hids : networks.Pairwise (·.id ≠ ·.id)) :
    wlp (restoreNetworks (siteIo psk script) none networks) (fun ok s' => ok = true →
      (∀ n ∈ networks, HasBit s'.device.host n) ∧ ∀ m : SavedNetwork,
        (∀ n ∈ networks, m.id ≠ n.id) → HasBit s.device.host m → HasBit s'.device.host m) s := by
  induction networks generalizing s with
  | nil => exact wlp_pure fun _ => ⟨nofun, fun _ _ => id⟩
  | cons n networks ih =>
    obtain ⟨hn, hrest⟩ := List.pairwise_cons.mp hids
    refine wlp_ite nofun fun _ => wlp_bind (wlp_mono (hasBit_restoring n) fun ok t ht =>
      wlp_bind (wlp_mono (ih hrest) fun rest u hu => wlp_pure fun hboth => ?_))
    obtain ⟨hok, hall⟩ := Bool.and_eq_true_iff.mp hboth
    obtain ⟨hbit, hothers⟩ := ht hok
    obtain ⟨hbits, hkeep⟩ := hu hall
    refine ⟨fun m hm => ?_, fun m hm hold => ?_⟩
    · rcases List.mem_cons.mp hm with rfl | hm
      · exact hkeep m (fun n hmem => hn n hmem) hbit
      · exact hbits m hm
    · obtain ⟨hmn, hmrest⟩ := forall_mem_cons.mp hm
      exact hkeep m hmrest (hothers m hmn hold)

lemma list_eq_of_plain {l l₀ : List Profile} (h : l.map plain = l₀.map plain)
    (hbits : ∀ p ∈ l, ∀ q ∈ l₀, p.id = q.id → p.disabled = q.disabled) : l = l₀ := by
  induction l generalizing l₀ with
  | nil => exact (map_eq_nil_iff.mp h.symm).symm
  | cons p l ih =>
    obtain ⟨q, l₀, rfl⟩ := exists_cons_of_ne_nil (l := l₀) (by rintro rfl; simp at h)
    simp only [map_cons, cons.injEq] at h
    obtain ⟨hplain, hrest⟩ := h
    have hid : p.id = q.id := by simpa [plain] using congrArg Profile.id hplain
    have hbit := hbits p mem_cons_self q mem_cons_self hid
    have hpq : p = q := by
      calc p = (plain p).withBit p.disabled := rfl
        _ = (plain q).withBit q.disabled := by rw [hplain, hbit]
        _ = q := rfl
    rw [hpq, ih hrest fun p hp q hq => hbits p (mem_cons_of_mem _ hp) q
      (mem_cons_of_mem _ hq)]

lemma saved_eq_of_bits (hcaptured : Captured h₀ backup)
    (ha : Attempting h₀ none saved P h) (hbits : ∀ n ∈ backup.networks, HasBit h n) :
    h.saved = h₀.saved := by
  have halike : h.saved.list.map plain = h₀.saved.list.map plain := by
    rw [← ha.alike, filter_eq_self.mpr fun p _ => by simp]
  have hlist : h.saved.list = h₀.saved.list := by
    refine list_eq_of_plain halike fun p hp q hq hid => ?_
    exact hbits q.saved (hcaptured.networks ▸ List.mem_map_of_mem hq) p hp hid
  cases hs : h.saved with
  | mk list ordered =>
    cases hs₀ : h₀.saved with
    | mk list₀ ordered₀ =>
      rw [hs, hs₀] at hlist
      obtain rfl : list = list₀ := hlist
      rfl

lemma waitAuthenticated_current (ssid : Text) (id : ℤ) (timeoutMs : ℤ) :
    wlp (waitAuthenticated (siteIo psk script) fuel (some ssid) (some id) timeoutMs)
      (fun ok s' => ok = true → s'.device.host.current = some id) s := by
  have hcurrent (s : State Site) : wlp (authenticated (siteIo psk script) (some ssid) (some id))
      (fun r s' => r.isSome = true → s'.device.host.current = some id) s := by
    refine wlp_bind (wlp_mono (command_asks (c := .status) rfl _) fun reply t ⟨hst, hreply⟩ =>
      wlp_pure fun hsome => ?_)
    obtain ⟨found, hfound⟩ := isSome_iff_exists.mp hsome
    obtain ⟨status, rfl, hcompleted⟩ := bind_eq_some_iff.mp hfound
    obtain ⟨hssid, -, hid⟩ := completedStatus_eq_some.mp hcompleted
    have hany : completedStatus status none none = some found :=
      completedStatus_eq_some.mpr ⟨hssid, nofun, nofun⟩
    obtain rfl | ⟨turn, hcarry⟩ := hreply status rfl
    · exact absurd (hany.symm.trans (by decide : completedStatus "FAIL\n".toList none none = none))
        (by simp)
    simp only [Host.carry] at hcarry
    split_ifs at hcarry with hadmits
    rw [some.injEq, Prod.mk.injEq] at hcarry
    have hname := (current_of_admits (hcarry.2 ▸ hadmits) (by rw [hany]; rfl)).1
    rw [hid id rfl] at hname
    rw [hst.1, hname]
    rfl
  refine wlp_bind fun start t _ => wlp_bind fun budget u _ => wlp_turns (fun _ _ => True)
    (fun _ v _ => wlp_bind fun go w _ => wlp_ite
    (fun _ => wlp_pure fun h : false = true => absurd h (by simp)) fun _ =>
    wlp_bind (wlp_mono (hcurrent w) fun r x hx => wlp_ite (fun hr => wlp_pure fun _ => hx hr)
    fun _ => wlp_bind fun _ _ _ => wlp_pure trivial)) trivial

lemma rejoin_clean (hcaptured : Captured h₀ backup)
    (hcompleted : backup.previousCompleted = true) (dhcpStarted : Bool)
    (hsaved : s.device.host.saved = h₀.saved)
    (hclean : Clean h₀ s.device.host.client s.device.host.address) :
    wlp (rejoin (siteIo psk script) fuel backup dhcpStarted) (fun ok s' => ok = true →
      s'.device.host.saved = h₀.saved ∧
        Clean h₀ s'.device.host.client s'.device.host.address) s := by
  obtain ⟨hcurrent, hnonneg⟩ := hcaptured.previous hcompleted
  unfold rejoin
  rw [if_pos hnonneg]
  refine wlp_bind (wlp_mono (wlp_and (waitAuthenticated_current _ _ _)
    ((steady psk script).keeps_waitAuthenticated _ _ _ s)) fun ok t ⟨hjoined, hst⟩ =>
    wlp_ite (fun _ => wlp_pure nofun) fun hok => ?_)
  have hnow := hjoined (by simpa using hok)
  refine wlp_ite (fun _ => ?_) fun _ => wlp_pure fun _ => ?_
  · refine wlp_bind (wlp_mono ((steady psk script).keeps_remainingMs _ t) fun ms u hu =>
      wlp_mono (dhcp_lease ms) fun leased v ⟨hs, _, _, hlease⟩ hleased => ?_)
    obtain ⟨hclient, haddress⟩ := hlease hleased
    rw [hu.1, hnow, ← hcurrent] at hclient haddress
    rw [hs, hu.1, hst.1, hclient, haddress]
    exact ⟨hsaved, by simp [Clean]⟩
  · rw [hst.1]
    exact ⟨hsaved, hclean⟩

lemma stopDhcp_gone : wlp (stopDhcp (siteIo psk script)) (fun ok s' =>
    s'.device.added = s.device.added ∧ ∃ client,
      s'.device.host = { s.device.host with client := client } ∧ (ok = true → client = none))
        s := by
  have hask : wlp (ask (siteIo psk script).stopDhcp) (fun p t =>
      t.device.added = s.device.added ∧ ∃ client,
        t.device.host = { s.device.host with client := client } ∧
          (p.1 = true → client = none)) s := by
    rintro _ _ ⟨⟩
    exact ⟨rfl, _, rfl, fun h => if_pos (.inl h)⟩
  exact wlp_bind (wlp_mono hask fun ⟨_, _⟩ t ht => wlp_bind (wlp_modify (wlp_pure ht)))

lemma clearAddress_gone : wlp (ask (siteIo psk script).clearAddress) (fun ok s' =>
    s'.device.added = s.device.added ∧ ∃ address,
      s'.device.host = { s.device.host with address := address } ∧
        (ok = true → address = none)) s := by
  rintro _ _ ⟨⟩
  exact ⟨rfl, _, rfl, fun h => if_pos (.inl h)⟩

variable (h₀ fresh saved) in
lemma release_clean (dhcpStarted : Bool) {β : Type} {f : Bool → Bool → Op Site β}
    {Q : β → State Site → Prop}
    (ha : Attempting h₀ fresh saved (Linked h₀ dhcpStarted) s.device.host)
    (hf : ∀ stopped cleared t, ((stopped && cleared) = true →
      Attempting h₀ fresh saved (Clean h₀) t.device.host) → wlp (f stopped cleared) Q t) :
    wlp (do
      let stopped ← (if dhcpStarted then stopDhcp (siteIo psk script) else pure true)
      let cleared ← (if dhcpStarted then ask (siteIo psk script).clearAddress else pure true)
      f stopped cleared) Q s := by
  cases dhcpStarted with
  | false =>
    refine wlp_bind (wlp_pure (wlp_bind (wlp_pure (hf _ _ _ fun _ => ha.mono id fun hlink => ?_))))
    obtain ⟨hclient, haddress⟩ := hlink rfl
    simp [Clean, hclient, haddress]
  | true =>
    refine wlp_bind (wlp_mono stopDhcp_gone fun stopped t ⟨_, client, ht, hclient⟩ =>
      wlp_bind (wlp_mono clearAddress_gone fun cleared u ⟨_, address, hu, haddress⟩ =>
        hf _ _ _ fun hboth => ?_))
    obtain ⟨hstopped, hcleared⟩ := Bool.and_eq_true_iff.mp hboth
    rw [hu, ht]
    exact ⟨ha.alike, ha.config, by simp [Clean, hclient hstopped, haddress hcleared]⟩

lemma remove_alike (id : ℤ) (ha : Attempting h₀ (some id) saved P s.device.host) :
    wlp (commandOk (siteIo psk script) (.removeNetwork id)) (fun ok s' => ok = true →
      Attempting h₀ none saved P s'.device.host) s := by
  have hmoves : moves (some id) saved (.removeNetwork id) := rfl
  refine wlp_mono (commandOk_carried (c := .removeNetwork id) (by simp)) fun ok t ht hok => ?_
  obtain ⟨turn, reply, hcarry⟩ := ht hok
  have ht' := ha.carry hmoves hcarry
  simp only [Host.carry] at hcarry
  split_ifs at hcarry
  have hhost : _ = t.device.host := (Prod.ext_iff.mp (some.inj hcarry)).1
  have hsaved : t.device.host.saved = s.device.host.saved.remove id := by
    rw [← hhost, join_saved, leave_saved]
  have hnone : t.device.host.saved.list.filter (fun p => (none : Option ℤ) ≠ some p.id) =
      t.device.host.saved.list.filter (fun p => some id ≠ some p.id) := by
    rw [filter_eq_self.mpr fun p _ => by simp]
    refine (filter_eq_self.mpr fun p hp => ?_).symm
    rw [hsaved] at hp
    have hne : p.id ≠ id := by simpa using (mem_filter.mp hp).2
    simpa using fun h : id = p.id => hne h.symm
  exact ⟨by rw [hnone]; exact ht'.alike, ht'.config, ht'.link⟩

lemma removed_alike {newId : Option ℤ} {ok : Bool}
    (ha : ok = true → Attempting h₀ newId saved (Clean h₀) s.device.host) :
    wlp (match newId with
      | some id => commandOk (siteIo psk script) (.removeNetwork id)
      | none => pure true) (fun removed t => ok = true → removed = true →
        Attempting h₀ none saved (Clean h₀) t.device.host) s := by
  by_cases hok : ok = true
  · cases newId with
    | none => exact wlp_pure fun _ _ => ha hok
    | some id => exact wlp_mono (remove_alike id (ha hok)) fun _ t ht _ => ht
  · exact fun _ _ _ h => absurd h hok

/-- **A rollback that reports success has restored the networks with their bits**, and has left no
client and no address of the new network. -/
theorem rollbackConnection_restores (hcaptured : Captured h₀ backup)
    (attempt : Attempt)
    (ha : Attempting h₀ attempt.newId attempt.saveAttempted (Linked h₀ attempt.dhcpStarted)
      s.device.host) :
    wlp (rollbackConnection (siteIo psk script) fuel backup attempt) (fun ok s' => ok = true →
      s'.device.host.saved = h₀.saved ∧
        Clean h₀ s'.device.host.client s'.device.host.address) s := by
  have h := holds psk script h₀ none attempt.saveAttempted (Clean h₀)
  have hids : backup.networks.Pairwise (·.id ≠ ·.id) := by
    rw [hcaptured.networks, pairwise_map]
    exact h₀.saved.ordered.imp fun hlt => ne_of_lt hlt
  refine wlp_bind (wlp_modify (wlp_bind (wlp_mono ((steady psk script).keeps_now _) fun t₁ t ht =>
    wlp_bind (wlp_modify (release_clean h₀ attempt.newId attempt.saveAttempted
      attempt.dhcpStarted ?_ fun stopped cleared u hu => ?_)))))
  · rw [ht.1]
    exact ha
  refine wlp_bind (wlp_mono (removed_alike hu) fun removed v hv => ?_)
  have hselect : moves none attempt.saveAttempted (if 0 ≤ backup.previousId then
      .selectNetwork backup.previousId else .disconnect) := by
    split_ifs <;> trivial
  have henable : Keeps (Holds h₀ none attempt.saveAttempted (Clean h₀))
      (restoreEnabled (siteIo psk script) backup none) :=
    restoreNetworks_holds (fun _ => ⟨trivial, trivial⟩) _ _
  refine wlp_bind (wlp_mono (keeps_ite (h.keeps_commandOk hselect) (h.keeps_pure true) v)
    fun selected w hw => wlp_bind (wlp_mono (wlp_and (hasBit_restoreNetworks hids) (henable w))
      fun enabled x hboth => ?_))
  obtain ⟨hbits, hx⟩ := hboth
  -- From here on the networks have their bits, if all has succeeded so far.
  have hrestored : (stopped && cleared && removed && selected && enabled) = true →
      x.device.host.saved = h₀.saved ∧ Clean h₀ x.device.host.client x.device.host.address := by
    simp only [Bool.and_eq_true]
    rintro ⟨⟨⟨⟨h1, h2⟩, h3⟩, -⟩, h5⟩
    have hx' := hx.1 (hw.1 (hv (by simp [h1, h2]) h3))
    exact ⟨saved_eq_of_bits hcaptured hx' (hbits h5).1, hx'.link⟩
  have hdisconnected : wlp (if backup.previousDisconnected then
      commandOk (siteIo psk script) .disconnect else pure true) (fun ok y => ok = true →
        y.device.host.saved = x.device.host.saved ∧
          y.device.host.client = x.device.host.client ∧
          y.device.host.address = x.device.host.address) x := by
    refine wlp_ite (fun _ => ?_) fun _ => wlp_pure fun _ => ⟨rfl, rfl, rfl⟩
    refine wlp_mono (commandOk_carried (c := .disconnect) (by simp)) fun ok y hy hok => ?_
    obtain ⟨turn, reply, hcarry⟩ := hy hok
    have hhost : _ = y.device.host := (Prod.ext_iff.mp (some.inj hcarry)).1
    rw [← hhost]
    exact ⟨rfl, rfl, rfl⟩
  refine wlp_bind (wlp_mono hdisconnected fun disconnected y hy => ?_)
  by_cases hall : (stopped && cleared && removed && selected && enabled && disconnected) = true
  · obtain ⟨hsofar, hdis⟩ := Bool.and_eq_true_iff.mp hall
    obtain ⟨hsaved, hclean⟩ := hrestored hsofar
    obtain ⟨hs, hc, hadd⟩ := hy hdis
    have hclean' : Clean h₀ y.device.host.client y.device.host.address := by
      rw [hc, hadd]
      exact hclean
    have hsaved' := hs.trans hsaved
    have hrejoined : wlp (if attempt.selected ∧ backup.previousCompleted then
        rejoin (siteIo psk script) fuel backup attempt.dhcpStarted else pure true)
        (fun ok z => ok = true → z.device.host.saved = h₀.saved ∧
          Clean h₀ z.device.host.client z.device.host.address) y :=
      wlp_ite (fun hprevious => rejoin_clean hcaptured hprevious.2 _ hsaved' hclean') fun _ =>
        wlp_pure fun _ => ⟨hsaved', hclean'⟩
    exact wlp_bind (wlp_mono hrejoined fun reconnected z hz =>
      wlp_pure fun hdone => hz (Bool.and_eq_true_iff.mp hdone).2)
  · exact wlp_bind fun reconnected z _ => wlp_pure fun hdone =>
      absurd (Bool.and_eq_true_iff.mp hdone).1 hall

lemma keeps_removed {newId : Option ℤ} :
    Keeps (Holds h₀ newId saved fun _ _ => True) (match newId with
      | some id => commandOk (siteIo psk script) (.removeNetwork id)
      | none => pure true) := by
  have h := holds psk script h₀ newId saved fun _ _ => True
  cases newId with
  | none => exact h.keeps_pure _
  | some id => exact h.keeps_commandOk (c := .removeNetwork id) rfl

variable (h₀ saved) in
lemma rollbackConnection_holds (backup : Backup) (attempt : Attempt) :
    Keeps (Holds h₀ attempt.newId saved fun _ _ => True)
      (rollbackConnection (siteIo psk script) fuel backup attempt) := by
  have h := holds psk script h₀ attempt.newId saved fun _ _ => True
  have hstop : Keeps (Holds h₀ attempt.newId saved fun _ _ => True)
      (stopDhcp (siteIo psk script)) := fun s =>
    wlp_mono stopDhcp_gone fun _ t ⟨hadded, client, ht, _⟩ =>
      ⟨fun ha => by rw [ht]; exact ⟨ha.alike, ha.config, trivial⟩, hadded⟩
  have hclear : Keeps (Holds h₀ attempt.newId saved fun _ _ => True)
      (ask (siteIo psk script).clearAddress) := fun s =>
    wlp_mono clearAddress_gone fun _ t ⟨hadded, address, ht, _⟩ =>
      ⟨fun ha => by rw [ht]; exact ⟨ha.alike, ha.config, trivial⟩, hadded⟩
  have hselect : moves attempt.newId saved (if 0 ≤ backup.previousId then
      .selectNetwork backup.previousId else .disconnect) := by
    split_ifs <;> trivial
  have hrejoin : Keeps (Holds h₀ attempt.newId saved fun _ _ => True)
      (rejoin (siteIo psk script) fuel backup attempt.dhcpStarted) := by
    refine h.keeps_bind (h.keeps_waitAuthenticated _ _ _) fun _ => keeps_ite (h.keeps_pure _) ?_
    exact keeps_ite (h.keeps_bind (h.keeps_remainingMs _) fun _ => dhcp_holds _) (h.keeps_pure _)
  exact h.keeps_bind (h.keeps_modify fun _ => ⟨rfl, rfl, rfl, rfl⟩) fun _ =>
    h.keeps_bind h.keeps_now fun _ =>
    h.keeps_bind (h.keeps_modify fun _ => ⟨rfl, rfl, rfl, rfl⟩) fun _ =>
    h.keeps_bind (keeps_ite hstop (h.keeps_pure _)) fun _ =>
    h.keeps_bind (keeps_ite hclear (h.keeps_pure _)) fun _ => h.keeps_bind keeps_removed fun _ =>
    h.keeps_bind (keeps_ite (h.keeps_commandOk hselect) (h.keeps_pure _)) fun _ =>
    h.keeps_bind (restoreNetworks_holds (fun _ => ⟨trivial, trivial⟩) _ _) fun _ =>
    h.keeps_bind (keeps_ite (h.keeps_commandOk (c := .disconnect) trivial)
      (h.keeps_pure _)) fun _ =>
    h.keeps_bind (keeps_ite hrejoin (h.keeps_pure _)) fun _ => h.keeps_pure _

def Reports (s : State Site) : Prop := s.currentState = .error ∧ incomplete s.lastError = true

lemma incomplete_takeBack : incomplete "CONNECT FAILED; RESTORE INCOMPLETE".toList = true := by
  decide

lemma takeBack_restores (hcaptured : Captured h₀ backup) (options : Bool) {attempt : Attempt}
    (hconfig : attempt.saveAttempted = true → config = some h₀.config)
    (ha : Attempting h₀ attempt.newId attempt.saveAttempted (Linked h₀ attempt.dhcpStarted)
      s.device.host) :
    wlp (takeBack (siteIo psk script) fuel options backup config attempt) (fun _ s' =>
      s'.device.added = s.device.added ∧ (Restored h₀ s'.device.host ∨ Reports s')) s := by
  refine wlp_bind (wlp_modify (wlp_bind (wlp_mono (wlp_and
    (rollbackConnection_restores hcaptured attempt ha)
    (rollbackConnection_holds h₀ attempt.saveAttempted backup attempt _))
    fun restored t ⟨hrestored, ht⟩ => ?_)))
  have hfile : wlp (if attempt.saveAttempted then
      ask ((siteIo psk script).restoreConfig (config.getD [])) else pure true) (fun ok u =>
      u.device.added = t.device.added ∧ u.device.host.saved = t.device.host.saved ∧
        u.device.host.client = t.device.host.client ∧
        u.device.host.address = t.device.host.address ∧
        (ok = true → u.device.host.config = h₀.config)) t := by
    refine wlp_ite (fun hsaved => ?_) fun hsaved => wlp_pure ?_
    · rintro _ _ ⟨⟩
      refine ⟨rfl, rfl, rfl, rfl, fun hok => ?_⟩
      rw [hconfig hsaved]
      exact if_pos (.inl hok)
    · refine ⟨rfl, rfl, rfl, rfl, fun _ => ?_⟩
      exact (ht.1 (ha.mono id fun _ => trivial)).config (by simpa using hsaved)
  refine wlp_bind (wlp_mono hfile fun written u ⟨hadded, hs, hc, hadd, hbytes⟩ => ?_)
  refine wlp_ite
    (fun _ => wlp_modify ⟨hadded.trans ht.2, .inr ⟨rfl, incomplete_takeBack⟩⟩) fun hno =>
    wlp_pure ⟨hadded.trans ht.2, .inl ?_⟩
  obtain ⟨hok, hwritten⟩ : restored = true ∧ written = true := by simpa using hno
  obtain ⟨hsaved, hclean⟩ := hrestored hok
  exact ⟨hs.trans hsaved, hbytes hwritten, by rw [hc, hadd]; exact hclean⟩

/-! ### The new network -/

/-- Every network that was added was answered with its id. -/
def Heard (script : ℕ → Turn) (added : List ℕ) : Prop :=
  ∀ t ∈ added, (script t).outcome .addNetwork = .answered

/-- A network was added, and its id is not known. -/
structure Leaked (script : ℕ → Turn) (h₀ : Host) (s : State Site) : Prop where
  added : ¬Heard script s.device.added
  saved : s.device.host.saved ≠ h₀.saved
  state : s.currentState = .error
  silent : incomplete s.lastError = false

lemma parseInteger_answer (h : 0 ≤ id) (hle : id ≤ intMax) :
    parseInteger (firstLine (integer id ++ ['\n'])) 0 intMax = some id := by
  have hline : firstLine (integer id ++ ['\n']) = integer id := by
    unfold firstLine
    rw [takeWhile_append_of_pos]
    · simp
    intro c hc
    have hdigit := isDigit_of_mem_integer h hc
    have hcr : c ≠ '\r' := by
      rintro rfl
      simp at hdigit
    have hlf : c ≠ '\n' := by
      rintro rfl
      simp at hdigit
    simp [hcr, hlf]
  rw [hline, parseInteger_integer h hle]

lemma carry_addNetwork {turn : Turn} {host : Host} {reply : Text}
    (hcarry : h.carry turn .addNetwork = some (host, reply)) :
    reply = integer h.saved.nextId ++ ['\n'] ∧ h.saved.nextId ≤ intMax ∧
      Attempting h (some h.saved.nextId) false (Untouched h) host ∧ host.saved ≠ h.saved := by
  simp only [Host.carry, Profiles.add] at hcarry
  split_ifs at hcarry with hle
  · obtain ⟨hhost, hreply⟩ := Prod.ext_iff.mp (some.inj hcarry)
    dsimp only at hhost hreply
    refine ⟨hreply.symm, hle, ⟨?_, fun _ => by rw [← hhost], by rw [← hhost]; exact ⟨rfl, rfl⟩⟩, ?_⟩
    · rw [← hhost]
      have hold : h.saved.list.filter (fun p => some h.saved.nextId ≠ some p.id) =
          h.saved.list := filter_eq_self.mpr fun p hp => by
        have := Profiles.lt_nextId hp
        simpa using fun heq : h.saved.nextId = p.id => absurd this (by omega)
      rw [filter_append, hold]
      simp
    · rw [← hhost]
      intro heq
      have hlength := congrArg (fun profiles => profiles.list.length) heq
      simp at hlength
  · contradiction

/-- What is known of the device when `connect_profile` has asked for a new network. -/
def AfterAdd (script : ℕ → Turn) (h₀ : Host) (newId : Option ℤ) (s : State Site) : Prop :=
  match newId with
  | some id => id = h₀.saved.nextId ∧ Heard script s.device.added ∧
      Attempting h₀ (some id) false (Untouched h₀) s.device.host
  | none => Heard script s.device.added ∧ s.device.host = h₀ ∨ Leaked script h₀ s

variable (h₀ P) in
lemma settings_holds (id : ℤ) (psk' ssid : Text) (security : Security) :
    wlp (do
      if !(← commandOk (siteIo psk script) (.setNetwork id "ssid".toList
          ((encodeControlSsid ssid).getD []))) then
        setError "SSID REJECTED"
        return (some id, false)
      if !(← commandOk (siteIo psk script) (.setNetwork id "key_mgmt".toList
          (if security = .opened then "NONE" else "WPA-PSK").toList)) then
        setError "SECURITY REJECTED"
        return (some id, false)
      if security = .wpaPsk then
        if !(← commandOk (siteIo psk script) (.setNetwork id "psk".toList psk')) then
          setError "CREDENTIAL REJECTED"
          return (some id, false)
      return (some id, true) : Op Site (Option ℤ × Bool)) (fun r s' => r.1 = some id ∧
        Holds h₀ (some id) false P s s') s := by
  have h := holds psk script h₀ (some id) false P
  have hset (name value : Text) : Keeps (Holds h₀ (some id) false P)
      (commandOk (siteIo psk script) (.setNetwork id name value)) := h.keeps_commandOk rfl
  refine wlp_bind (wlp_mono (hset _ _ s) fun named t ht => wlp_ite
    (fun _ => wlp_bind (wlp_modify (wlp_pure ⟨rfl, ht⟩))) fun _ => ?_)
  refine wlp_bind (wlp_mono (hset _ _ t) fun secured u hu => wlp_ite
    (fun _ => wlp_bind (wlp_modify (wlp_pure ⟨rfl, h.trans ht hu⟩))) fun _ =>
    wlp_ite (fun _ => ?_) fun _ => wlp_pure ⟨rfl, h.trans ht hu⟩)
  exact wlp_bind (wlp_mono (hset _ _ u) fun keyed v hv => wlp_ite
    (fun _ => wlp_bind (wlp_modify (wlp_pure ⟨rfl, h.trans (h.trans ht hu) hv⟩))) fun _ =>
    wlp_pure ⟨rfl, h.trans (h.trans ht hu) hv⟩)

-- Without an id, `connect_profile` only sets an error.
variable (psk) in
lemma addProfile_unknown {reply : Option Text} (ssid psk' : Text) (security : Security)
    (hreply : reply = none ∨ reply = some "FAIL\n".toList)
    (hdevice : (Heard script s.device.added ∧ s.device.host = h₀) ∨
      (¬Heard script s.device.added ∧ s.device.host.saved ≠ h₀.saved)) :
    wlp (match reply with
      | none => do
        setError "ADD NETWORK FAILED"
        return (none, false)
      | some output =>
        match parseInteger (firstLine output) 0 intMax with
        | none => do
          setError "INVALID NETWORK ID"
          return (none, false)
        | some id => do
          if !(← commandOk (siteIo psk script) (.setNetwork id "ssid".toList
              ((encodeControlSsid ssid).getD []))) then
            setError "SSID REJECTED"
            return (some id, false)
          if !(← commandOk (siteIo psk script) (.setNetwork id "key_mgmt".toList
              (if security = .opened then "NONE" else "WPA-PSK").toList)) then
            setError "SECURITY REJECTED"
            return (some id, false)
          if security = .wpaPsk then
            if !(← commandOk (siteIo psk script) (.setNetwork id "psk".toList psk')) then
              setError "CREDENTIAL REJECTED"
              return (some id, false)
          return (some id, true)) (fun r s' => AfterAdd script h₀ r.1 s') s := by
  have hend (message : String) (hsilent : incomplete message.toList = false) :
      AfterAdd script h₀ none
        { s with currentState := .error, lastError := message.toList } := by
    rcases hdevice with hd | ⟨hadd, hsaved⟩
    · exact .inl hd
    · exact .inr ⟨hadd, hsaved, rfl, hsilent⟩
  rcases hreply with rfl | rfl
  · exact wlp_bind (wlp_modify (wlp_pure (hend _ (by decide))))
  · have hparse : parseInteger (firstLine "FAIL\n".toList) 0 intMax = none := by decide
    simp only [hparse]
    exact wlp_bind (wlp_modify (wlp_pure (hend _ (by decide))))

lemma addProfile_spec (ssid psk' : Text) (security : Security) (hadded : s.device.added = []) :
    wlp (addProfile (siteIo psk script) ssid psk' security) (fun r s' =>
      AfterAdd script s.device.host r.1 s') s := by
  refine wlp_bind (wlp_mono (command_sent .addNetwork outputCapacity fun _ => rfl)
    fun reply t ht => ?_)
  have hheard {d : Site} (hd : d.added = s.device.added) : Heard script d.added := by
    rw [hd, hadded]
    exact nofun
  obtain ⟨rfl, hst⟩ | ⟨u, hu, hsent⟩ := ht
  · exact addProfile_unknown psk ssid psk' security (.inl rfl)
      (.inl ⟨hheard hst.2, hst.1⟩)
  · generalize hdevice : t.device = d at hsent
    cases hsent with
    | passed heard =>
      refine addProfile_unknown psk ssid psk' security heard (.inl ?_)
      rw [hdevice]
      exact ⟨hheard hu.2, hu.1⟩
    | unheard carry heard outcome =>
      rw [hu.1] at carry
      obtain ⟨rfl, hle, -, hsaved⟩ := carry_addNetwork carry
      refine addProfile_unknown psk ssid psk' security heard (.inr ?_)
      rw [hdevice]
      refine ⟨fun hall => ?_, hsaved⟩
      have hanswered := hall u.device.turn (by simp [Site.carried])
      have hlength := length_integer (Profiles.nextId_nonneg _) hle
      have hlong := (outcome hanswered).resolve_right (by simp)
      simp only [length_append, length_singleton, outputCapacity] at hlong
      omega
    | answered carry outcome =>
      rw [hu.1] at carry
      obtain ⟨rfl, hle, ha, -⟩ := carry_addNetwork carry
      simp only [parseInteger_answer (Profiles.nextId_nonneg _) hle]
      refine wlp_mono (settings_holds s.device.host (Untouched s.device.host)
        _ _ _ _) fun r v hboth => ?_
      obtain ⟨hr, hv⟩ := hboth
      rw [hr]
      refine ⟨rfl, ?_, hv.1 (hdevice ▸ ha)⟩
      rw [hv.2, hdevice]
      intro turn hturn
      simp only [Site.carried, if_true, mem_cons] at hturn
      rcases hturn with rfl | hturn
      · exact outcome
      · rw [hu.2, hadded] at hturn
        simp at hturn

/-! ### The whole call -/

/-- The SSID of the request, and the id of a network of that name: a saved one, or the new one. -/
def Requested (h₀ : Host) (r : Request) (ssid : Text) (id : ℤ) : Prop :=
  r.ssid = some ssid ∧ if r.useSaved then ∃ p ∈ h₀.saved.list, p.id = id ∧
    decodeScanSsid (printSsid p.ssid) ssidCapacity = some ssid else id = h₀.saved.nextId

/-- What holds where `connect_profile` reaches `end_operation`. -/
def Ended (script : ℕ → Turn) (h₀ : Host) (r : Request) (status : Status) (s : State Site) : Prop :=
  (Heard script s.device.added ∧
    (status = .ok → ∃ ssid id, Requested h₀ r ssid id ∧ Confirmed s.log ssid id r.useSaved) ∧
    (status ≠ .ok → Restored h₀ s.device.host ∨ Reports s)) ∨
  (status ≠ .ok ∧ Leaked script h₀ s)

lemma Restored.of_eq (heq : h = h₀) : Restored h₀ h := by
  rw [heq]
  exact ⟨rfl, rfl, by simp [Clean]⟩

lemma conclude_ended {attempted : Bool × Attempt} (hcaptured : Captured h₀ backup)
    (hconfig : r.useSaved = false → config = some h₀.config)
    (hsave : attempted.2.saveAttempted = true → r.useSaved = false)
    (hheard : Heard script s.device.added) (hrequested : Requested h₀ r ssid id)
    (hconfirmed : attempted.1 = true → Confirmed s.log ssid id r.useSaved)
    (ha : Attempting h₀ attempted.2.newId attempted.2.saveAttempted
      (Linked h₀ attempted.2.dhcpStarted) s.device.host)
    (hback : attempted.2.newId.isSome ∨ attempted.2.selected = true) :
    wlp (conclude (siteIo psk script) fuel r backup config attempted)
      (fun status s' => Ended script h₀ r status s') s := by
  refine wlp_ite (fun hok => wlp_pure (.inl ⟨hheard, fun _ => ?_, fun h => absurd rfl h⟩)) fun _ =>
    ?_
  · exact ⟨ssid, id, hrequested, hconfirmed hok⟩
  refine wlp_bind (wlp_ite (fun _ => ?_) fun hnone => absurd hback hnone)
  refine wlp_mono (takeBack_restores hcaptured _ (fun h => hconfig (hsave h)) ha)
    fun _ t ⟨hadded, ht⟩ => wlp_pure (.inl ⟨?_, fun h => ?_, fun _ => ht⟩)
  · rw [Heard, hadded]
    exact hheard
  · exact absurd h (by simp)

lemma authenticate_saves (ssid : Text) (r : Request) (backup : Backup) (newId : Option ℤ)
    (targetId : ℤ) : wlp (authenticate (siteIo psk script) fuel ssid r backup newId targetId)
      (fun result _ => result.2.saveAttempted = true → r.useSaved = false) s := by
  refine wlp_bind fun ⟨_, ip⟩ t _ => ?_
  cases ip with
  | none => exact wlp_pure nofun
  | some ip =>
    have hcommit : wlp (commit (siteIo psk script) ssid targetId r.useSaved backup)
        (fun result _ => result.1 = true → r.useSaved = false) t :=
      wlp_bind fun _ _ _ => wlp_ite (fun _ => wlp_bind fun _ _ _ => wlp_pure nofun) fun _ =>
        wlp_ite (fun _ => wlp_pure nofun) fun hsaved _ _ _ _ => by simpa using hsaved
    exact wlp_bind (wlp_mono hcommit fun ⟨_, _⟩ u hu => wlp_bind fun _ _ _ => wlp_pure hu)

lemma authenticate_ended {newId : Option ℤ} (hcaptured : Captured h₀ backup)
    (hconfig : r.useSaved = false → config = some h₀.config)
    (hheard : Heard script s.device.added) (hrequested : Requested h₀ r ssid id)
    (ha : Attempting h₀ newId false (Untouched h₀) s.device.host) :
    wlp (do
      let attempted ← authenticate (siteIo psk script) fuel ssid r backup newId id
      conclude (siteIo psk script) fuel r backup config attempted)
      (fun status s' => Ended script h₀ r status s') s := by
  refine wlp_bind (wlp_mono (wlp_and (wlp_and (authenticate_confirmed ssid r backup newId id)
    (authenticate_saves ssid r backup newId id)) (authenticate_holds ssid r backup id ha))
    fun result t ⟨⟨hconfirmed, hsave⟩, hnew, hselected, ht, hadded⟩ => ?_)
  exact conclude_ended hcaptured hconfig hsave (by rw [Heard, hadded]; exact hheard) hrequested
    hconfirmed (hnew ▸ ht) (.inr hselected)

lemma findProfile_named (ssid : Text) (security : Security) (networks : List SavedNetwork) :
    wlp (findProfile (siteIo psk script) ssid security networks) (fun r _ =>
      ∀ id, r = some (some id) → ∃ n ∈ networks, n.id = id ∧ n.ssid = ssid) s := by
  induction networks generalizing s with
  | nil => exact wlp_pure (by simp)
  | cons network networks ih =>
    have hrest {t : State Site} : wlp (findProfile (siteIo psk script) ssid security networks)
        (fun r _ => ∀ id, r = some (some id) →
          ∃ n ∈ network :: networks, n.id = id ∧ n.ssid = ssid) t :=
      wlp_mono ih fun r _ h id hr => by
        obtain ⟨n, hn, hfacts⟩ := h id hr
        exact ⟨n, mem_cons_of_mem _ hn, hfacts⟩
    refine wlp_ite (fun _ => hrest) fun hname => wlp_bind fun found t _ => ?_
    match found with
    | none => exact wlp_pure (by simp)
    | some true =>
      refine wlp_pure fun id hid => ⟨network, mem_cons_self, ?_, by simpa using hname⟩
      simpa using hid
    | some false => exact hrest

lemma establish_ended {psk' : Text}
    (hcaptured : Captured h₀ backup) (hconfig : r.useSaved = false → config = some h₀.config)
    (hssid : r.ssid = some ssid) (hne : ssid ≠ []) (hhost : s.device.host = h₀)
    (hadded : s.device.added = []) :
    wlp (establish (siteIo psk script) fuel ssid psk' r backup config)
      (fun status s' => Ended script h₀ r status s') s := by
  have hheard {t : State Site} (ht : Steady s t) : Heard script t.device.added := by
    rw [ht.2, hadded]
    exact nofun
  refine wlp_ite (fun hsaved => ?_) fun hsaved => ?_
  · have htarget : wlp (savedTarget (siteIo psk script) ssid r backup) (fun found t => Steady s t ∧
        ∀ id ∈ found, Requested h₀ r ssid id) s := by
      refine wlp_and ((steady psk script).keeps_savedTarget ssid r backup s) ?_
      refine wlp_bind (wlp_mono (findProfile_named ssid r.security backup.networks.reverse)
        fun found t ht => ?_)
      split
      · exact wlp_bind (wlp_modify (wlp_pure nofun))
      · exact wlp_bind (wlp_modify (wlp_pure nofun))
      · refine wlp_pure ?_
        rintro id ⟨⟩
        obtain ⟨n, hn, hid, hname⟩ := ht _ rfl
        rw [mem_reverse, hcaptured.networks] at hn
        obtain ⟨p, hp, rfl⟩ := List.mem_map.mp hn
        refine ⟨hssid, ?_⟩
        rw [if_pos hsaved]
        refine ⟨p, hp, hid, ?_⟩
        cases hdecoded : decodeScanSsid (printSsid p.ssid) ssidCapacity with
        | none => simp [Profile.saved, hdecoded, hne.symm] at hname
        | some decoded =>
          simp only [Profile.saved, hdecoded, getD_some] at hname
          rw [hname]
    refine wlp_bind (wlp_mono htarget fun found t hboth => ?_)
    obtain ⟨ht, hfound⟩ := hboth
    have hstart : t.device.host = h₀ := ht.1.trans hhost
    cases found with
    | none => exact wlp_pure (.inl ⟨hheard ht, by simp, fun _ => .inl (.of_eq hstart)⟩)
    | some id =>
      refine authenticate_ended hcaptured hconfig (hheard ht) (hfound id rfl) ?_
      rw [hstart]
      exact ⟨by simp, fun _ => rfl, rfl, rfl⟩
  · refine wlp_bind (wlp_mono (addProfile_spec ssid psk' r.security hadded)
      fun added t ht => ?_)
    rw [hhost] at ht
    obtain ⟨newId, complete⟩ := added
    cases newId with
    | none =>
      refine wlp_bind (wlp_ite (fun h => absurd h (by simp)) fun _ => wlp_pure (wlp_pure ?_))
      rcases ht with ⟨hall, hsame⟩ | hleaked
      · exact .inl ⟨hall, by simp, fun _ => .inl (.of_eq hsame)⟩
      · exact .inr ⟨by simp, hleaked⟩
    | some id =>
      obtain ⟨hid, hall, ha⟩ := ht
      have hrequested : Requested h₀ r ssid id := ⟨hssid, by rw [if_neg hsaved]; exact hid⟩
      cases complete with
      | true => exact authenticate_ended hcaptured hconfig hall hrequested ha
      | false =>
        refine conclude_ended hcaptured hconfig (by simp) hall hrequested (by simp) ?_
          (.inl rfl)
        exact ha.mono (fun h => h) fun hlink _ => hlink

/-- The device, the error and what was seen are still there. -/
structure Quiet (s s' : State Site) : Prop where
  steady : Steady s s'
  error : s'.lastError = s.lastError
  log : s.log <:+ s'.log

lemma Quiet.refl (s : State Site) : Quiet s s := ⟨.refl s, rfl, suffix_rfl⟩

lemma Quiet.trans {s t u : State Site} (h : Quiet s t) (h' : Quiet t u) : Quiet s u :=
  ⟨h.steady.trans h'.steady, h'.error.trans h.error, h.log.trans h'.log⟩

lemma quiet_ask {α : Type} {f : Site → α × Site}
    (h : ∀ site, (f site).2.host = site.host ∧ (f site).2.added = site.added) :
    Keeps Quiet (ask f) := by
  rintro s _ _ ⟨⟩
  exact ⟨h s.device, rfl, suffix_rfl⟩

lemma quiet_modify {f : State Site → State Site} (hd : ∀ s, (f s).device = s.device)
    (he : ∀ s, (f s).lastError = s.lastError) (hl : ∀ s, (f s).log = s.log) :
    Keeps Quiet (modify f) :=
  fun s => wlp_modify ⟨by rw [Steady, hd]; exact ⟨rfl, rfl⟩, he s, hl s ▸ suffix_rfl⟩

lemma quiet (psk : Text → Text → Text) (script : ℕ → Turn) :
    Look (siteIo psk script) Quiet where
  refl := .refl
  trans := .trans
  see {seen} _ := fun s => wlp_modify ⟨.refl s, rfl, suffix_cons seen s.log⟩
  hear _ := quiet_modify (fun _ => rfl) (fun _ => rfl) fun _ => rfl
  askNow := quiet_ask fun _ => ⟨rfl, rfl⟩
  askProgress _ := quiet_ask fun _ => ⟨rfl, rfl⟩
  askAddress := quiet_ask fun _ => ⟨rfl, rfl⟩

lemma quiet_observe (target : Text) (start : ℤ) :
    Keeps Quiet (observe (siteIo psk script) target start) := by
  have h := quiet psk script
  have hstatus (factory : Bool) (ms : ℤ) :
      Keeps Quiet (ask ((siteIo psk script).observeStatus factory ms)) :=
    quiet_ask fun _ => ⟨rfl, rfl⟩
  have hset {f : State Site → State Site} (hd : ∀ s, (f s).device = s.device)
      (he : ∀ s, (f s).lastError = s.lastError) (hl : ∀ s, (f s).log = s.log) :
      Keeps Quiet (modify f) := quiet_modify hd he hl
  have hprobe (start budget : ℤ) : Keeps Quiet (probe (siteIo psk script) start budget) := by
    refine keeps_ite (h.keeps_pure _) (h.keeps_bind (hstatus _ _) fun reply => ?_)
    cases reply with
    | some reply => exact h.keeps_bind (h.see (by simp)) fun _ => h.keeps_pure _
    | none =>
      refine h.keeps_bind h.keeps_now fun t => keeps_ite ?_ (h.keeps_pure _)
      refine h.keeps_bind h.keeps_now fun t => h.keeps_bind (hstatus _ _) fun reply => ?_
      cases reply with
      | none => exact h.keeps_pure _
      | some reply =>
        exact h.keeps_bind (h.see (by simp)) fun _ =>
          h.keeps_bind (hset (fun _ => rfl) (fun _ => rfl) fun _ => rfl) fun _ => h.keeps_pure _
  refine h.keeps_bind h.keeps_get fun s =>
    h.keeps_bind (keeps_ite (h.keeps_remainingMs _) (h.keeps_pure _)) fun budget =>
    h.keeps_bind (hset (fun _ => rfl) (fun _ => rfl) fun _ => rfl) fun _ =>
    h.keeps_bind (hprobe _ _) fun received =>
    h.keeps_bind (keeps_ite h.keeps_interfaceIpv4 (h.keeps_pure _)) fun ip =>
    h.keeps_bind h.keeps_now fun t => hset (fun _ => rfl) (fun _ => rfl) fun _ => rfl

lemma readSnapshot_quiet : wlp (readSnapshot (siteIo psk script)) (fun snapshot s' =>
    Quiet s s' ∧ snapshot.error = s'.lastError) s := by
  have h := quiet psk script
  have hoff : Keeps Quiet (isOff (siteIo psk script)) :=
    h.keeps_bind h.keeps_get fun _ => keeps_ite (h.keeps_pure _) (quiet_ask fun _ => ⟨rfl, rfl⟩)
  have hrefresh (target : Text) : Keeps Quiet (refresh (siteIo psk script) target) :=
    h.keeps_bind h.keeps_now fun _ => h.keeps_bind h.keeps_get fun _ =>
      keeps_ite (quiet_observe _ _) (h.keeps_pure _)
  have hreturn {t : State Site} (ht : Quiet s t) {state : WifiState} {off : Bool}
      {snapshot : Snapshot} (hs : snapshot.error = s.lastError) :
      wlp (returnSnapshot state off snapshot) (fun snapshot s' => Quiet s s' ∧
        snapshot.error = s'.lastError) t := by
    refine wlp_bind (wlp_modify (wlp_pure ⟨{ ht with }, ?_⟩))
    exact hs.trans ht.error.symm
  refine wlp_bind (wlp_get (wlp_bind (wlp_mono (hoff s) fun off t ht => wlp_ite (fun _ => ?_)
    fun _ => ?_)))
  · refine wlp_bind (wlp_modify (hreturn ?_ rfl))
    exact { ht with }
  refine wlp_bind (wlp_mono (hrefresh _ t) fun _ u hu => wlp_bind (wlp_get
    (hreturn (ht.trans hu) ?_)))
  unfold Snapshot.observed
  split_ifs <;> rfl

lemma incomplete_cancelled (error : Text) : incomplete
    (if incomplete error then "CANCELLED; RESTORE INCOMPLETE"
      else "WI-FI OPERATION CANCELLED").toList = incomplete error := by
  cases h : incomplete error with
  | true =>
    rw [if_pos rfl]
    decide
  | false =>
    rw [if_neg (by simp)]
    decide

lemma settle_spec (status : Status) : wlp (settle status : Op Site Status) (fun result s' =>
    s'.device = s.device ∧ s'.log = s.log ∧ (result = .ok ↔ status = .ok) ∧
      (status ≠ .ok → s.currentState = .error →
        incomplete s'.lastError = incomplete s.lastError)) s := by
  refine wlp_bind (wlp_get (wlp_ite (fun hok => ?_) fun hok => wlp_ite (fun _ => ?_) fun _ => ?_))
  · exact wlp_bind (wlp_modify (wlp_pure ⟨rfl, rfl, by simp [hok], fun h => absurd hok h⟩))
  · refine wlp_bind (wlp_modify (wlp_bind (wlp_modify (wlp_pure
      ⟨rfl, rfl, by simp [hok], fun _ _ => ?_⟩))))
    exact incomplete_cancelled s.lastError
  refine wlp_bind (wlp_modify (wlp_bind (wlp_ite (fun hstate => ?_) fun _ => wlp_pure
    (wlp_pure ⟨rfl, rfl, Iff.rfl, fun _ _ => rfl⟩))))
  exact wlp_modify (wlp_pure ⟨rfl, rfl, Iff.rfl, fun _ h => absurd h hstate⟩)

/-- What a call of `connect_profile` owes: a connection that was confirmed, or everything as it was,
or an error that says so. -/
def Fulfilled (h₀ : Host) (r : Request) (result : Status × Option Snapshot) (s : State Site) :
    Prop :=
  (result.1 = .ok → ∃ ssid id, Requested h₀ r ssid id ∧ Confirmed s.log ssid id r.useSaved) ∧
    (result.1 ≠ .ok → Restored h₀ s.device.host ∨ incomplete s.lastError = true ∧
      ∀ snapshot ∈ result.2, incomplete snapshot.error = true)

lemma endOperation_fulfilled {status : Status} (wanted : Bool)
    (h : Ended script h₀ r status s) :
    wlp (endOperation (siteIo psk script) status wanted) (fun result s' =>
      Fulfilled h₀ r result s' ↔ Heard script s'.device.added) s := by
  refine wlp_bind (wlp_mono (settle_spec status) fun result t ⟨hdevice, hlog, hok, herror⟩ => ?_)
  have hread : wlp (if wanted then some <$> readSnapshot (siteIo psk script) else pure none)
      (fun snapshot u => Quiet t u ∧ ∀ x ∈ snapshot, x.error = u.lastError) t := by
    refine wlp_ite (fun _ => ?_) fun _ => wlp_pure ⟨.refl t, nofun⟩
    rw [map_eq_pure_bind]
    refine wlp_bind (wlp_mono readSnapshot_quiet fun x u ⟨hu, hx⟩ => wlp_pure ⟨hu, ?_⟩)
    rintro _ ⟨⟩
    exact hx
  refine wlp_bind (wlp_mono hread fun snapshot u ⟨hu, hsnapshot⟩ =>
    wlp_bind (wlp_modify (wlp_pure ?_)))
  have hhost : u.device.host = s.device.host := hu.steady.1.trans (by rw [hdevice])
  have hadded : u.device.added = s.device.added := hu.steady.2.trans (by rw [hdevice])
  have hnot : result ≠ .ok ↔ status ≠ .ok := not_congr hok
  dsimp only
  rw [hadded]
  rcases h with ⟨hheard, hdone, hback⟩ | ⟨hbad, hleaked⟩
  · refine iff_of_true ⟨fun h => ?_, fun h => ?_⟩ hheard
    · obtain ⟨ssid, id, hrequested, hconfirmed⟩ := hdone (hok.mp h)
      exact ⟨ssid, id, hrequested, hconfirmed.mono (hlog ▸ hu.log)⟩
    rcases hback (hnot.mp h) with hrestored | ⟨hstate, hsaid⟩
    · exact .inl (hhost ▸ hrestored)
    have hword : incomplete u.lastError = true := by
      rw [hu.error, herror (hnot.mp h) hstate, hsaid]
    exact .inr ⟨hword, fun x hx => hsnapshot x hx ▸ hword⟩
  · refine iff_of_false (fun hf => ?_) hleaked.added
    have hword : incomplete u.lastError = false := by
      rw [hu.error, herror hbad hleaked.state, hleaked.silent]
    rcases hf.2 (hnot.mpr hbad) with hrestored | ⟨hsaid, -⟩
    · exact hleaked.saved (hhost ▸ hrestored.saved)
    · exact absurd (hsaid.symm.trans hword) (by simp)

lemma steady_beginOperation (options : Bool) (timeoutMs : ℤ) :
    Keeps Steady (beginOperation (siteIo psk script) options timeoutMs) := by
  have hset {f : State Site → State Site} (hd : ∀ s, (f s).device = s.device) :
      Keeps Steady (modify f) := fun s => wlp_modify (by rw [Steady, hd]; exact ⟨rfl, rfl⟩)
  have h := steady psk script
  exact h.keeps_bind (hset fun _ => rfl) fun _ => h.keeps_bind h.askMarker fun _ =>
    h.keeps_bind (hset fun _ => rfl) fun _ => h.keeps_bind h.keeps_now fun _ => hset fun _ => rfl

lemma checkRequest_ssid (r : Request) : wlp (checkRequest (siteIo psk script) r) (fun checked _ =>
    match checked with
    | .ok target => r.ssid = some target.1 ∧ target.1 ≠ []
    | .error status => status ≠ .ok) s := by
  unfold checkRequest
  split
  · rename_i ssid encoded hssid hencoded
    have hne : ssid ≠ [] := by
      rintro rfl
      rw [hssid] at hencoded
      simp [encodeControlSsid] at hencoded
    refine wlp_ite (fun _ => wlp_bind fun _ _ _ => wlp_pure (by simp)) fun _ =>
      wlp_ite (fun _ => wlp_bind fun _ _ _ => wlp_pure (by simp)) fun _ =>
      wlp_ite (fun _ => wlp_bind fun _ _ _ => wlp_pure (by simp)) fun _ =>
      wlp_ite (fun _ => wlp_bind fun found _ _ => ?_) fun _ => wlp_pure ⟨hssid, hne⟩
    match found with
    | some psk' => exact wlp_pure ⟨hssid, hne⟩
    | none => exact wlp_bind fun _ _ _ => wlp_pure (by simp)
  · exact wlp_bind fun _ _ _ => wlp_pure (by simp)

/-- **A connection that fails leaves everything as it was, or says that it does not, exactly where
every network that was added was answered with its id.** For every list of saved networks, every
state of the supplicant and of the process, every request and every script: which commands take
effect, which replies come, when the caller cancels. And a connection that succeeds was confirmed
after the lease and again before the save. -/
theorem connectProfile_restores (psk : Text → Text → Text) (script : ℕ → Turn) (fuel : ℕ)
    (r : Request) (wanted : Bool) (host : Host) {s s' : State Site}
    {result : Status × Option Snapshot} (hstart : s.device = .start host)
    (hrun : connectProfile (siteIo psk script) fuel r wanted s = some (result, s')) :
    Fulfilled host r result s' ↔ Heard script s'.device.added := by
  have h := steady psk script
  have hsame {t : State Site} (ht : Steady s t) (status : Status) (hbad : status ≠ .ok) :
      Ended script host r status t := by
    refine .inl ⟨?_, fun h => absurd h hbad, fun _ => .inl (.of_eq ?_)⟩
    · rw [Heard, ht.2, hstart]
      exact nofun
    · rw [ht.1, hstart]
      rfl
  have hspec : wlp (connectProfile (siteIo psk script) fuel r wanted) (fun result s' =>
      Fulfilled host r result s' ↔ Heard script s'.device.added) s := by
    refine wlp_bind (wlp_mono (steady_beginOperation _ _ s) fun _ t ht => wlp_bind (wlp_modify ?_))
    refine wlp_bind (wlp_mono (wlp_and (h.keeps_checkRequest r _) (checkRequest_ssid r))
      fun checked u ⟨hu, hssid⟩ => ?_)
    have hsu : Steady s u := ht.trans hu
    cases checked with
    | error status => exact endOperation_fulfilled wanted (hsame hsu _ hssid)
    | ok target =>
      obtain ⟨ssid, psk'⟩ := target
      obtain ⟨hssid, hne⟩ := hssid
      refine wlp_bind (wlp_mono (h.keeps_checkInterface u) fun usable v hv => wlp_ite
        (fun _ => endOperation_fulfilled wanted (hsame (hsu.trans hv) .unavailable (by simp)))
          fun _ => ?_)
      have hsv := hsu.trans hv
      refine wlp_bind (wlp_mono (h.askSetMarker false v) fun _ w' hw => wlp_bind (wlp_modify ?_))
      have hsw : Steady s { w' with explicitlyDisabled := false } := hsv.trans hw
      generalize ({ w' with explicitlyDisabled := false } : State Site) = w at hsw ⊢
      have hconfig : wlp (if r.useSaved then pure none else ask (siteIo psk script).backupConfig)
          (fun config x => Steady w x ∧ ∀ bytes ∈ config, bytes = w.device.host.config) w := by
        refine wlp_ite (fun _ => wlp_pure ⟨.refl w, nofun⟩) fun _ => ?_
        rintro config _ ⟨⟩
        refine ⟨⟨rfl, rfl⟩, fun bytes hbytes => ?_⟩
        simp only [siteIo, Site.read] at hbytes
        split_ifs at hbytes
        · exact (some.inj hbytes).symm
        · contradiction
      have hcapture {x : State Site} (hx : Steady w x) (config : Option Text) :
          wlp (if r.useSaved ∨ config.isSome then captureNetworks (siteIo psk script) fuel
            else pure none) (fun backup y => Steady w y ∧ ∀ b ∈ backup,
              Captured x.device.host b ∧ (r.useSaved = false → config.isSome)) x := by
        refine wlp_ite (fun hor => ?_) fun _ => wlp_pure ⟨hx, nofun⟩
        refine wlp_mono captureNetworks_captured fun backup y ⟨hy, hb⟩ =>
          ⟨hx.trans hy, fun b hmem => ⟨hb b hmem, fun hnew => ?_⟩⟩
        simpa [hnew] using hor
      refine wlp_bind (wlp_mono hconfig fun config x ⟨hx, hbytes⟩ =>
        wlp_bind (wlp_mono (hcapture hx config) fun backup y ⟨hy, hcaptured⟩ => ?_))
      have hsy : Steady s y := hsw.trans hy
      cases backup with
      | none =>
        refine wlp_bind (wlp_modify (endOperation_fulfilled wanted ?_))
        exact hsame (t := { y with
          currentState := .error, lastError := "CANNOT PRESERVE NETWORK CONFIG".toList })
          hsy .ioError (by simp)
      | some backup =>
        obtain ⟨hb, hsome⟩ := hcaptured backup rfl
        have hhost {z : State Site} (hz : Steady s z) : z.device.host = host := by
          rw [hz.1, hstart]
          rfl
        rw [hhost (hsw.trans hx)] at hb
        have hbackup : r.useSaved = false → config = some host.config := fun hnew => by
          obtain ⟨bytes, rfl⟩ := isSome_iff_exists.mp (hsome hnew)
          rw [hbytes bytes rfl, hhost hsw]
        refine wlp_bind (wlp_mono (establish_ended hb hbackup hssid hne (hhost hsy) ?_)
          fun status z hz => endOperation_fulfilled wanted hz)
        rw [hsy.2, hstart]
        rfl
  exact hspec result s' hrun

end

/-! ### A network that leaks -/

def oneNetwork : Host where
  saved := ⟨[⟨0, "home".toList, none, [], false, by decide, by decide, by decide⟩], by simp⟩
  current := none
  config := "home".toList
  client := none
  address := none

/-- A supplicant that answers everything, and is not connected. -/
def idleTurn : Turn where
  outcome _ := .answered
  text _ := "wpa_state=INACTIVE\n".toList
  joins := none
  temporary _ := false
  ok := true
  carried := false
  stop := false
  clock := 0
  ready := ⟨true, none, false, false⟩
  address := none
  client := .kept
  lease := .kept
  event := .none

/-- A supplicant that adds a network and whose answer to that is lost. -/
def leakingTurn : Turn :=
  { idleTurn with outcome := fun c => if c = .addNetwork then .lost true else .answered }

/-- A supplicant that does not find the network. -/
def failingTurn : Turn :=
  { idleTurn with
    outcome := fun c => if c = .selectNetwork 1 then .failed true else .answered }

def openRequest : Request := ⟨some "cafe".toList, some [], .opened, false, false⟩

lemma exists_run (turn : Turn) (P : (Status × Option Snapshot) × State Site → Bool)
    (h : (connectProfile (siteIo (fun _ _ => []) fun _ => turn) 2 openRequest true
      (.start (.start oneNetwork))).any P = true) :
    ∃ result s, connectProfile (siteIo (fun _ _ => []) fun _ => turn) 2 openRequest true
      (.start (.start oneNetwork)) = some (result, s) ∧ P (result, s) = true := by
  obtain ⟨⟨result, s⟩, hs, hP⟩ := (Option.any_eq_true _ _).mp h
  exact ⟨result, s, hs, hP⟩

/-- The selection of the new network fails and takes effect all the same: everything is taken
back. -/
theorem connectProfile_restores_select : ∃ result s,
    connectProfile (siteIo (fun _ _ => []) fun _ => failingTurn) 2 openRequest true
      (.start (.start oneNetwork)) = some (result, s) ∧ result.1 ≠ .ok ∧
      s.device.added ≠ [] ∧ incomplete s.lastError = false ∧
      Fulfilled oneNetwork openRequest result s := by
  obtain ⟨result, s, hrun, hfacts⟩ := exists_run failingTurn (fun p => p.1.1 ≠ .ok ∧
    p.2.device.added ≠ [] ∧ incomplete p.2.lastError = false) (by decide +kernel)
  obtain ⟨hbad, hadded, hsilent⟩ := of_decide_eq_true hfacts
  refine ⟨result, s, hrun, hbad, hadded, hsilent, ?_⟩
  exact (connectProfile_restores _ _ 2 openRequest true oneNetwork rfl hrun).mpr fun t _ => rfl

lemma incomplete_add : incomplete "ADD NETWORK FAILED".toList = false := by decide

/-- **A network whose id is not heard stays**: the call fails with `ADD NETWORK FAILED`, the
supplicant has one network more than before, and nothing is said of an incomplete rollback. -/
theorem connectProfile_restores_fails : ∃ result s,
    connectProfile (siteIo (fun _ _ => []) fun _ => leakingTurn) 2 openRequest true
      (.start (.start oneNetwork)) = some (result, s) ∧ result.1 = .ioError ∧
      s.lastError = "ADD NETWORK FAILED".toList ∧ s.device.host.saved.list.length = 2 ∧
      ¬Fulfilled oneNetwork openRequest result s := by
  obtain ⟨result, s, hrun, hfacts⟩ := exists_run leakingTurn (fun p => p.1.1 = .ioError ∧
    p.2.lastError = "ADD NETWORK FAILED".toList ∧ p.2.device.host.saved.list.length = 2)
    (by decide +kernel)
  obtain ⟨hbad, herror, htwo⟩ := of_decide_eq_true hfacts
  refine ⟨result, s, hrun, hbad, herror, htwo, fun hf => ?_⟩
  rcases hf.2 (by rw [hbad]; simp) with hrestored | ⟨hspoken, -⟩
  · have hone : s.device.host.saved.list.length = 1 := by rw [hrestored.saved]; rfl
    exact absurd (hone.symm.trans htwo) (by decide)
  · rw [herror, incomplete_add] at hspoken
    exact Bool.noConfusion hspoken

end C1auncher.Wifi.Rollback
