import C1auncher.Wifi.Operations

/-!
What holds across the routines of the service that only ask, and set the variables of the process.

A frame is a relation between the states before and after a routine. Whoever has one for each call
of the boundary has one for every routine that is made of these calls.
-/

namespace C1auncher.Wifi.Frames

open CString Routines Wifi.Control Wifi.Service
open Wifi.Operations

def asks : Command → Bool
  | .ping | .status | .listNetworks _ | .getNetwork _ _ | .bss _ => true
  | _ => false

/-- A relation that the clock, the progress callback and the address of the interface keep to. -/
structure Look {D : Type} (io : WifiIo D) (R : State D → State D → Prop) : Prop where
  refl : ∀ s, R s s
  trans : ∀ {s t u}, R s t → R t u → R s u
  see : ∀ {seen}, seen ≠ .called → Keeps R (see seen)
  hear : ∀ stop, Keeps R (Service.hear stop)
  askNow : Keeps R (ask io.now)
  askProgress : ∀ phase, Keeps R (ask (io.progress phase))
  askAddress : Keeps R (ask io.address)

/-- A relation that the calls that only ask keep to, and the commands `sent`. -/
structure Frame {D : Type} (io : WifiIo D) (sent : Command → Prop)
    (R : State D → State D → Prop) : Prop extends Look io R where
  /-- The process sets its own variables. -/
  own : ∀ {s s' : State D}, s'.device = s.device → s'.observation = s.observation →
    s'.reads = s.reads → s'.log = s.log → R s s'
  sleep : ∀ ms, Keeps R (Service.sleep io ms)
  askMarker : Keeps R (ask io.disabledMarker)
  askSetMarker : ∀ disabled, Keeps R (ask (io.setDisabledMarker disabled))
  askReady : Keeps R (ask io.ready)
  askDhcpAvailable : Keeps R (ask io.dhcpAvailable)
  askBackup : Keeps R (ask io.backupConfig)
  askCommand : ∀ {c}, sent c → ∀ factory capacity ms,
    Keeps R (ask (io.command factory c capacity ms))
  sent_of_asks : ∀ {c}, asks c = true → sent c

namespace Look

variable {D : Type} {io : WifiIo D} {R : State D → State D → Prop} (h : Look io R)
include h

lemma keeps_pure {α : Type} (a : α) : Keeps R (pure a : Op D α) := Routines.keeps_pure h.refl

lemma keeps_get : Keeps R (get : Op D (State D)) := Routines.keeps_get h.refl

lemma keeps_bind {α β : Type} {p : Op D α} {f : α → Op D β} (hp : Keeps R p)
    (hf : ∀ a, Keeps R (f a)) : Keeps R (p >>= f) := Routines.keeps_bind h.trans hp hf

lemma keeps_andAlso {p q : Op D Bool} (hp : Keeps R p) (hq : Keeps R q) :
    Keeps R (andAlso p q) := Routines.keeps_andAlso h.refl h.trans hp hq

lemma keeps_onlyIf {b : Prop} [Decidable b] {p : Op D Unit} (hp : Keeps R p) :
    Keeps R (onlyIf b p) := Routines.keeps_onlyIf h.refl hp

lemma keeps_turns {β γ : Type} {body : γ → Op D (γ ⊕ β)} (hbody : ∀ c, Keeps R (body c)) (n : ℕ)
    (c : γ) : Keeps R (turns body n c) := Routines.keeps_turns h.refl h.trans hbody n c

lemma keeps_now : Keeps R (now io) :=
  h.keeps_bind h.askNow fun _ => h.keeps_bind (h.see (by simp)) fun _ => h.keeps_pure _

lemma keeps_continueOperation : Keeps R (continueOperation io) := by
  have hrest : Keeps R (do
      let s ← get
      if s.operationCancelled && !s.restoring then return false
      if s.operationDeadline = 0 then return true
      return (← now io) < s.operationDeadline) := by
    refine h.keeps_bind h.keeps_get fun s => ?_
    split_ifs
    · exact h.keeps_pure _
    · exact h.keeps_pure _
    · exact h.keeps_bind h.keeps_now fun _ => h.keeps_pure _
  refine h.keeps_bind h.keeps_get fun s => ?_
  dsimp only
  split_ifs
  · exact h.keeps_bind (h.askProgress _) fun _ => h.keeps_bind (h.hear _) fun _ => hrest
  · exact hrest

lemma keeps_remainingMs (maximum : ℤ) : Keeps R (remainingMs io maximum) := by
  refine h.keeps_bind h.keeps_continueOperation fun go => ?_
  split_ifs
  · refine h.keeps_bind h.keeps_get fun s => ?_
    split_ifs
    · exact h.keeps_pure _
    · exact h.keeps_bind h.keeps_now fun _ => h.keeps_pure _
  · exact h.keeps_pure _

lemma keeps_interfaceIpv4 : Keeps R (interfaceIpv4 io) := by
  refine h.keeps_bind h.askAddress fun address => ?_
  cases address with
  | none => exact h.keeps_pure _
  | some ip =>
    dsimp only
    split_ifs
    · exact h.keeps_pure _
    · exact h.keeps_bind (h.see (by simp)) fun _ => h.keeps_pure _

end Look

namespace Frame

variable {D : Type} {io : WifiIo D} {sent : Command → Prop} {R : State D → State D → Prop}
variable (h : Frame io sent R) {fuel : ℕ}
include h

lemma keeps_modify {f : State D → State D} (hf : ∀ s, (f s).device = s.device ∧
    (f s).observation = s.observation ∧ (f s).reads = s.reads ∧ (f s).log = s.log) :
    Keeps R (modify f) :=
  fun s => wlp_modify (h.own (hf s).1 (hf s).2.1 (hf s).2.2.1 (hf s).2.2.2)

lemma keeps_setError (message : String) : Keeps R (setError message) :=
  h.keeps_modify fun _ => ⟨rfl, rfl, rfl, rfl⟩

lemma keeps_command {c : Command} (hc : sent c) (capacity : ℕ) :
    Keeps R (command io c capacity) := by
  refine h.keeps_bind (h.keeps_remainingMs _) fun timeout => ?_
  split_ifs
  · exact h.keeps_pure _
  refine h.keeps_bind h.keeps_get fun s =>
    h.keeps_bind (h.askCommand hc _ _ _) fun reply => ?_
  cases reply with
  | none => exact h.keeps_pure _
  | some reply => exact h.keeps_bind (h.see (by simp)) fun _ => h.keeps_pure _

lemma keeps_commandOk {c : Command} (hc : sent c) : Keeps R (commandOk io c) :=
  h.keeps_bind (h.keeps_command hc _) fun _ => h.keeps_pure _

lemma keeps_ready : Keeps R (ready io) := by
  refine h.keeps_bind h.askReady fun result => h.keeps_bind (h.hear _) fun _ =>
    h.keeps_bind (h.keeps_modify fun _ => ⟨rfl, rfl, rfl, rfl⟩) fun _ => ?_
  dsimp only
  split
  · exact h.keeps_bind (h.keeps_modify fun _ => ⟨rfl, rfl, rfl, rfl⟩) fun _ =>
      h.keeps_pure _
  · exact h.keeps_pure _

lemma keeps_waitInterfaceEnabled : Keeps R (waitInterfaceEnabled io fuel) := by
  refine h.keeps_bind h.keeps_now fun start => h.keeps_bind (h.keeps_remainingMs _) fun budget => ?_
  refine h.keeps_bind (h.keeps_turns (fun _ => ?_) _ _) fun ok => ?_
  · refine h.keeps_bind (h.keeps_andAlso h.keeps_continueOperation
      (h.keeps_bind h.keeps_now fun _ => h.keeps_pure _)) fun go => keeps_ite ?_ (h.keeps_pure _)
    refine h.keeps_bind (h.keeps_command (h.sent_of_asks rfl) _) fun reply =>
      keeps_ite (h.keeps_pure _) ?_
    exact h.keeps_bind (h.keeps_remainingMs _) fun _ =>
      h.keeps_bind (h.keeps_onlyIf (h.sleep _)) fun _ => h.keeps_pure _
  · exact keeps_ite (h.keeps_pure _) (h.keeps_bind (h.keeps_setError _) fun _ => h.keeps_pure _)

lemma keeps_captureNetworks : Keeps R (captureNetworks io fuel) := by
  refine h.keeps_bind (h.keeps_command (h.sent_of_asks rfl) _) fun output => ?_
  cases output with
  | none => exact h.keeps_pure _
  | some output =>
    dsimp only
    split_ifs
    · exact h.keeps_pure _
    refine h.keeps_turns (fun ⟨request, backup, lastId⟩ => ?_) _ _
    refine h.keeps_bind h.keeps_continueOperation fun go => ?_
    split_ifs
    · exact h.keeps_pure _
    refine h.keeps_bind (h.keeps_command (h.sent_of_asks rfl) _) fun output => ?_
    split
    · exact h.keeps_pure _
    split
    · exact h.keeps_pure _
    · split_ifs <;> exact h.keeps_pure _

lemma keeps_keysMatch (id : ℤ) (security : Security) (keys : List String) :
    Keeps R (keysMatch io id security keys) := by
  induction keys with
  | nil => exact h.keeps_pure _
  | cons key keys ih =>
    refine h.keeps_bind (h.keeps_command (h.sent_of_asks rfl) _) fun output => ?_
    split
    · exact h.keeps_pure _
    dsimp only
    split_ifs
    · exact h.keeps_pure _
    · exact h.keeps_pure _
    · exact ih

lemma keeps_savedProfileMatches (id : ℤ) (security : Security) :
    Keeps R (savedProfileMatches io id security) := by
  refine h.keeps_bind (h.keeps_command (h.sent_of_asks rfl) _) fun output => ?_
  split
  · exact h.keeps_pure _
  dsimp only
  split_ifs
  · exact h.keeps_pure _
  · exact h.keeps_keysMatch _ _ _

lemma keeps_findProfile (ssid : Text) (security : Security) (networks : List SavedNetwork) :
    Keeps R (findProfile io ssid security networks) := by
  induction networks with
  | nil => exact h.keeps_pure _
  | cons network networks ih =>
    unfold findProfile
    split_ifs
    · exact ih
    refine h.keeps_bind (h.keeps_savedProfileMatches _ _) fun fits => ?_
    split
    · exact h.keeps_pure _
    · exact h.keeps_pure _
    · exact ih

lemma keeps_savedTarget (ssid : Text) (r : Request) (backup : Backup) :
    Keeps R (savedTarget io ssid r backup) := by
  refine h.keeps_bind (h.keeps_findProfile _ _ _) fun found => ?_
  split
  · exact h.keeps_bind (h.keeps_setError _) fun _ => h.keeps_pure _
  · exact h.keeps_bind (h.keeps_setError _) fun _ => h.keeps_pure _
  · exact h.keeps_pure _

lemma keeps_checks (n : ℕ) : Keeps R (checks io n) := by
  induction n with
  | zero => exact h.keeps_pure _
  | succ n ih => exact h.keeps_andAlso h.keeps_continueOperation ih

lemma keeps_checkRequest (r : Request) : Keeps R (checkRequest io r) := by
  have hfail (message : String) (status : Status) : Keeps R (do
      setError message
      return (.error status : Except Status (Text × Text)) : Op D (Except Status (Text × Text))) :=
    h.keeps_bind (h.keeps_setError _) fun _ => h.keeps_pure _
  unfold checkRequest
  split
  · refine keeps_ite (hfail _ _) (keeps_ite (hfail _ _) (keeps_ite (hfail _ _) (keeps_ite ?_ ?_)))
    · refine h.keeps_bind ?_ fun psk => ?_
      · exact keeps_ite (h.keeps_pure _) (h.keeps_bind (h.keeps_checks _) fun _ =>
          keeps_ite (h.keeps_pure _) (h.keeps_pure _))
      split
      · exact h.keeps_pure _
      · exact hfail _ _
    · exact h.keeps_pure _
  · exact hfail _ _

lemma keeps_checkInterface : Keeps R (checkInterface io fuel) := by
  refine h.keeps_bind (h.keeps_andAlso h.keeps_continueOperation h.keeps_ready) fun ready => ?_
  refine keeps_ite (h.keeps_pure _) (h.keeps_bind h.askDhcpAvailable fun available => ?_)
  exact keeps_ite (h.keeps_bind (h.keeps_setError _) fun _ => h.keeps_pure _)
    h.keeps_waitInterfaceEnabled

lemma keeps_authenticated (target : Option Text) (networkId : Option ℤ) :
    Keeps R (authenticated io target networkId) :=
  h.keeps_bind (h.keeps_command (h.sent_of_asks rfl) _) fun _ => h.keeps_pure _

lemma keeps_waitAuthenticated (target : Option Text) (networkId : Option ℤ) (timeoutMs : ℤ) :
    Keeps R (waitAuthenticated io fuel target networkId timeoutMs) := by
  refine h.keeps_bind h.keeps_now fun start => h.keeps_bind (h.keeps_remainingMs _) fun budget =>
    h.keeps_turns (fun _ => ?_) _ _
  refine h.keeps_bind (h.keeps_andAlso h.keeps_continueOperation
    (h.keeps_bind h.keeps_now fun _ => h.keeps_pure _)) fun go => keeps_ite (h.keeps_pure _) ?_
  refine h.keeps_bind (h.keeps_authenticated _ _) fun ssid => keeps_ite (h.keeps_pure _) ?_
  exact h.keeps_bind (h.sleep _) fun _ => h.keeps_pure _

lemma keeps_settle (result : Status) : Keeps R (settle result : Op D Status) := by
  have hphase (phase : Phase) : Keeps R (modify fun s => { s with currentPhase := phase } :
      Op D Unit) := h.keeps_modify fun _ => ⟨rfl, rfl, rfl, rfl⟩
  refine h.keeps_bind h.keeps_get fun s => keeps_ite ?_ (keeps_ite ?_ ?_)
  · exact h.keeps_bind (hphase _) fun _ => h.keeps_pure _
  · exact h.keeps_bind (h.keeps_setError _) fun _ => h.keeps_bind (hphase _) fun _ => h.keeps_pure _
  · exact h.keeps_bind (hphase _) fun _ =>
      h.keeps_bind (h.keeps_onlyIf (h.keeps_setError _)) fun _ => h.keeps_pure _

end Frame

end C1auncher.Wifi.Frames
