import C1auncher.Ui.Pages

/-!
A password is nowhere but on its page.

Eight pages and a dozen events lead away from the page of the password. What an event can do to the
secret is said once, and the rest follows from it.
-/

namespace C1auncher.Ui.Secrets

open Utf8Bytes Ui.Model Ui.Pages List

/-! ### What an event does to the secret -/

structure SameSecret (s s' : State) : Prop where
  secret : s'.secret = s.secret
  secretLength : s'.secretLength = s.secretLength
  secretVisible : s'.secretVisible = s.secretVisible
  returnPage : s'.returnPage = s.returnPage
  frozenLock : s'.frozenLock = s.frozenLock

def Open (page : Page) : Prop := page ≠ .wifiPassword ∧ page ≠ .lock

/-- What an event can do to the secret: nothing, on the same page or from an open page to an open
page; clear it, which may lead to the page of the password; or change it on that page. -/
inductive Effect (s s' : State) : Prop
  | kept (same : SameSecret s s') (page : s'.page = s.page ∨ Open s.page ∧ Open s'.page)
  | cleared (secret : s'.secret = Secret.zero) (returnPage : s'.returnPage = s.returnPage)
      (page : s'.page ≠ .lock) (visible : s'.page ≠ .wifiPassword → s'.secretVisible = false)
  | typed (returnPage : s'.returnPage = s.returnPage) (page : s'.page = .wifiPassword)
      (tail : (∀ i, s.secretLength ≤ i → s.secret.bytes.getD i 0 = 0) →
        ∀ i, s'.secretLength ≤ i → s'.secret.bytes.getD i 0 = 0)

lemma Effect.refl (s : State) : Effect s s := .kept ⟨rfl, rfl, rfl, rfl, rfl⟩ (.inl rfl)

lemma zero_getD (i : ℕ) : Secret.zero.bytes.getD i 0 = 0 := by
  simp only [Secret.zero, getD_eq_getElem?_getD, getElem?_replicate]
  split <;> rfl

lemma getD_set (bytes : Bytes) (i j : ℕ) (b : UInt8) :
    (bytes.set i b).getD j 0 = if i = j ∧ i < bytes.length then b else bytes.getD j 0 := by
  simp only [getD_eq_getElem?_getD, getElem?_set]
  by_cases hij : i = j
  · subst hij
    by_cases hlt : i < bytes.length
    · simp [hlt]
    · simp [hlt]
  · simp [hij]

lemma secretAppend_effect (s : State) (c : UInt8) : Effect s (secretAppend s c).2 := by
  unfold secretAppend
  split_ifs with hrefused
  · exact .refl s
  have hpage : s.page = .wifiPassword := by
    by_contra hp
    exact hrefused (by simp [isPasswordPage, hp])
  refine .typed rfl hpage fun htail i hi => ?_
  simp only [Secret.set] at hi ⊢
  rw [getD_set, getD_set]
  split_ifs with h1 h2
  · rfl
  · omega
  · exact htail i (by omega)

lemma secretDelete_effect (s : State) : Effect s (secretDelete s).2 := by
  unfold secretDelete
  split_ifs with hrefused
  · exact .refl s
  have hpage : s.page = .wifiPassword := by
    by_contra hp
    exact hrefused (by simp [isPasswordPage, hp])
  refine .typed rfl hpage fun htail i hi => ?_
  simp only [Secret.set] at hi ⊢
  rw [getD_set]
  split_ifs with h1
  · rfl
  by_cases hlast : i = s.secretLength - 1
  · have hbeyond : s.secret.bytes.length ≤ i := by
      by_contra hlt
      exact h1 ⟨hlast.symm, by omega⟩
    rw [getD_eq_getElem?_getD, getElem?_eq_none hbeyond]
    rfl
  · exact htail i (by omega)

/-! ### Page by page -/

variable {s : State} {status : Status} {index : ℕ}

lemma activateDesktop_effect (h : Open s.page) (status : Option Status) :
    Effect s (activateDesktop s status).state := by
  unfold activateDesktop
  simp only
  generalize (if s.selection < 5 then s.selection else 0) = row
  split_ifs
  all_goals exact .kept ⟨rfl, rfl, rfl, rfl, rfl⟩ (.inr ⟨h, by simp [quiet, Open]⟩)

lemma stepDesktop_effect (h : s.page = .desktop) (event : Event)
    (status : Option Status) : Effect s (stepDesktop s event status).state := by
  unfold stepDesktop
  split
  · exact activateDesktop_effect (by simp [h, Open]) status
  · exact .kept ⟨rfl, rfl, rfl, rfl, rfl⟩ (.inl rfl)

lemma stepBattery_effect (s : State) (event : Event) (status : Option Status) :
    Effect s (stepBattery s event status).state := by
  unfold stepBattery
  simp only
  split_ifs <;> exact .kept ⟨rfl, rfl, rfl, rfl, rfl⟩ (.inl rfl)

lemma enterUpdate_effect {next : State} (hs : SameSecret s next) (hp : next.page = s.page)
    (h : Open s.page) (language : UInt32) (status : Option Status) :
    Effect s (enterUpdate next language status).state := by
  obtain ⟨h1, h2, h3, h4, h5⟩ := hs
  unfold enterUpdate
  split_ifs
  all_goals
    refine .kept ⟨h1, h2, h3, h4, h5⟩ ?_
  all_goals
    first
      | exact .inl hp
      | exact .inr ⟨h, by simp [Open]⟩

lemma stepSettings_effect (h : s.page = .settings) (event : Event)
    (status : Option Status) : Effect s (stepSettings s event status).state := by
  have hopen : Open s.page := by simp [h, Open]
  unfold stepSettings
  simp only
  split_ifs
  · exact .kept ⟨rfl, rfl, rfl, rfl, rfl⟩ (.inr ⟨hopen, by simp [quiet, Open]⟩)
  · exact .kept ⟨rfl, rfl, rfl, rfl, rfl⟩ (.inl rfl)
  · exact .kept ⟨rfl, rfl, rfl, rfl, rfl⟩ (.inl rfl)
  · have hnext : SameSecret s { s with selection := moveSettings s.selection event } :=
      ⟨rfl, rfl, rfl, rfl, rfl⟩
    exact enterUpdate_effect hnext rfl hopen _ _
  · exact .kept ⟨rfl, rfl, rfl, rfl, rfl⟩ (.inr ⟨hopen, by simp [quiet, openEditor, Open]⟩)
  all_goals exact .kept ⟨rfl, rfl, rfl, rfl, rfl⟩ (.inl rfl)

lemma lockTextMove_same (s : State) (direction : ℤ) :
    SameSecret s (lockTextMove s direction).2 ∧ (lockTextMove s direction).2.page = s.page := by
  unfold lockTextMove
  simp only
  split_ifs <;> exact ⟨⟨rfl, rfl, rfl, rfl, rfl⟩, rfl⟩

lemma moveEditor_same (s : State) (event : Event) :
    SameSecret s (moveEditor s event) ∧ (moveEditor s event).page = s.page := by
  unfold moveEditor
  split_ifs
  · exact lockTextMove_same s (-1)
  · exact lockTextMove_same s 1
  · exact ⟨⟨rfl, rfl, rfl, rfl, rfl⟩, rfl⟩

lemma stepLockText_effect (h : s.page = .lockText) (event : Event) :
    Effect s (stepLockText s event).state := by
  have hopen : Open s.page := by simp [h, Open]
  obtain ⟨⟨h1, h2, h3, h4, h5⟩, hp⟩ := moveEditor_same s event
  unfold stepLockText
  simp only
  split_ifs
  · exact .kept ⟨h1, h2, h3, h4, h5⟩ (.inr ⟨hopen, by simp [quiet, Open]⟩)
  · exact .kept ⟨h1, h2, h3, h4, h5⟩ (.inl hp)
  · exact .kept ⟨h1, h2, h3, h4, h5⟩ (.inl hp)

lemma enterNetwork_effect {next : State} (hs : SameSecret s next) (hp : next.page = s.page)
    (h : s.page = .wifi) (status : Status) (index : ℕ) :
    Effect s (enterNetwork next status index).state := by
  obtain ⟨h1, h2, h3, h4, h5⟩ := hs
  unfold enterNetwork
  simp only
  split_ifs
  · exact .kept ⟨h1, h2, h3, h4, h5⟩ (.inl hp)
  · exact .kept ⟨h1, h2, h3, h4, h5⟩ (.inl hp)
  · exact .cleared rfl h4 (by simp) (by simp)
  · refine .cleared rfl h4 ?_ fun _ => rfl
    simp [clearSecret, hp, h]

lemma stepWifi_effect (h : s.page = .wifi) (event : Event) (status : Option Status) :
    Effect s (stepWifi s event status).state := by
  unfold stepWifi
  simp only
  generalize moveWifi s.selection event (networkCount status) (networkCount status + 2) = selection
  have hnext : SameSecret s { s with selection := selection, wifiNotice := "" } :=
    ⟨rfl, rfl, rfl, rfl, rfl⟩
  split
  · exact .kept ⟨rfl, rfl, rfl, rfl, rfl⟩ (.inl rfl)
  split
  · exact .kept ⟨rfl, rfl, rfl, rfl, rfl⟩ (.inl rfl)
  split
  · exact .kept ⟨rfl, rfl, rfl, rfl, rfl⟩ (.inl rfl)
  split
  · exact .kept ⟨rfl, rfl, rfl, rfl, rfl⟩ (.inl rfl)
  cases status with
  | none => exact .kept ⟨rfl, rfl, rfl, rfl, rfl⟩ (.inl rfl)
  | some status =>
    simp only
    split
    · exact enterNetwork_effect hnext rfl h status _
    · exact .kept ⟨rfl, rfl, rfl, rfl, rfl⟩ (.inl rfl)

lemma activateExtendedSymbol_effect (s : State) : Effect s (activateExtendedSymbol s) := by
  unfold activateExtendedSymbol
  simp only
  split
  · exact secretAppend_effect s _
  · exact .refl s

lemma stepPassword_effect (h : s.page = .wifiPassword) (event : Event)
    (status : Option Status) : Effect s (stepPassword s event status).state := by
  unfold stepPassword
  split_ifs
  · exact .typed rfl h fun htail => htail
  · exact .kept ⟨rfl, rfl, rfl, rfl, rfl⟩ (.inl rfl)
  · exact .kept ⟨rfl, rfl, rfl, rfl, rfl⟩ (.inl rfl)
  · exact .kept ⟨rfl, rfl, rfl, rfl, rfl⟩ (.inl rfl)
  · exact activateExtendedSymbol_effect s
  · exact .kept ⟨rfl, rfl, rfl, rfl, rfl⟩ (.inl rfl)
  · exact .refl s

/-- **One event**: whatever the page is, the secret is kept, cleared or typed. -/
theorem step_effect (s : State) (event : Event) (status : Option Status) :
    Effect s (step s event status).state := by
  unfold step
  split_ifs with hlock
  · exact .refl s
  · refine .cleared ?_ ?_ (by simp [quiet, stepSideKey]) fun _ => ?_
    all_goals
      simp only [quiet, stepSideKey, leave]
      split_ifs <;> rfl
  · refine .cleared ?_ ?_ (by simp [quiet, stepSideKey]) fun _ => ?_
    all_goals
      simp only [quiet, stepSideKey, leave]
      split_ifs <;> rfl
  · refine .cleared ?_ ?_ (by simp [quiet, stepHome]) fun _ => ?_
    all_goals
      simp only [quiet, stepHome, leave]
      split_ifs <;> rfl
  · simp only [quiet, stepBack]
    rcases hpage : s.page <;> exact .cleared rfl rfl (by simp) fun _ => rfl
  rcases hpage : s.page
  case desktop => exact stepDesktop_effect hpage event status
  case wifi => exact stepWifi_effect hpage event status
  case terminal => exact .refl s
  case wifiPassword => exact stepPassword_effect hpage event status
  case lock => exact .refl s
  case battery => exact stepBattery_effect s event status
  case settings => exact stepSettings_effect hpage event status
  case lockText => exact stepLockText_effect hpage event
  case about => exact .refl s

lemma autoconnect_effect (s : State) (status : Option Status) :
    Effect s (autoconnect s status).state := by
  unfold autoconnect
  cases status with
  | none => exact .refl s
  | some status =>
    simp only
    split_ifs with hrefused
    · exact .refl s
    have hpage : s.page = .wifi := by
      by_contra hp
      exact hrefused (.inl hp)
    rcases findSaved status (List.range (networkCount (some status))) with ⟨_ | i, reads⟩
    · exact .refl s
    · exact .cleared rfl rfl (by simp [clearSecret, hpage]) fun _ => rfl

/-! ### The rows that are read -/

lemma networkCount_le (status : Status) : networkCount (some status) ≤ status.networkCount := by
  simp only [networkCount]
  split <;> omega

lemma sameSecurity_reads {n : ℕ} (h : index < n) :
    ∀ {rows : List ℕ}, (∀ i ∈ rows, i < n) → ∀ i ∈ (sameSecurity status index rows).2, i < n
  | [], _ => by simp [sameSecurity]
  | row :: rows, hrows => by
    have hrow : row < n := hrows row (by simp)
    have hmore : ∀ i ∈ (sameSecurity status index rows).2, i < n :=
      sameSecurity_reads h fun i hi => hrows i (mem_cons_of_mem _ hi)
    rw [sameSecurity]
    split
    · simpa using ⟨hrow, h⟩
    intro i hi
    rcases mem_cons.mp hi with rfl | hi
    · exact hrow
    rcases mem_cons.mp hi with rfl | hi
    · exact h
    · exact hmore i hi

lemma networkIsCurrent_reads (h : index < status.networkCount) :
    ∀ i ∈ (networkIsCurrent status index).2, i < status.networkCount := by
  unfold networkIsCurrent
  split_ifs
  · simp
  · simpa using h
  have hrows : ∀ i ∈ List.range (networkCount (some status)), i < status.networkCount :=
    fun i hi => lt_of_lt_of_le (mem_range.mp hi) (networkCount_le status)
  simpa using ⟨h, sameSecurity_reads h hrows⟩

lemma enterNetwork_reads (s : State)
    (h : index < status.networkCount) :
    ∀ i ∈ (enterNetwork s status index).reads, i < status.networkCount := by
  have hcurrent := networkIsCurrent_reads h
  unfold enterNetwork
  simp only
  split_ifs
  · simpa using h
  all_goals simpa using ⟨h, hcurrent⟩

lemma step_reads (s : State) (event : Event) (status : Status) :
    ∀ i ∈ (step s event (some status)).reads, i < status.networkCount := by
  have hnone : ∀ {t : Transition}, t.reads = [] → ∀ i ∈ t.reads, i < status.networkCount :=
    fun h => by simp [h]
  unfold step
  split_ifs
  any_goals exact hnone rfl
  rcases s.page
  case desktop =>
    refine hnone ?_
    simp only [stepDesktop, activateDesktop]
    generalize (if s.selection < 5 then s.selection else 0) = row
    split_ifs <;> rfl
  case wifi =>
    simp only [stepWifi]
    generalize hsel : moveWifi s.selection event (networkCount (some status))
      (networkCount (some status) + 2) = selection
    split_ifs with h1 h2 h3 h4 h5
    any_goals exact hnone rfl
    refine enterNetwork_reads _ ?_
    have hle := networkCount_le status
    have hne0 : selection.toNat ≠ 0 := fun h => h3 (UInt32.toNat_inj.mp h)
    have hne1 : selection.toNat ≠ 1 := fun h => h4 (UInt32.toNat_inj.mp h)
    show selection.toNat - 2 < status.networkCount
    omega
  case settings =>
    refine hnone ?_
    simp only [stepSettings, enterUpdate]
    split_ifs <;> rfl
  case battery =>
    refine hnone ?_
    simp only [stepBattery]
    split_ifs <;> rfl
  case lockText =>
    refine hnone ?_
    simp only [stepLockText]
    split_ifs <;> rfl
  case wifiPassword =>
    refine hnone ?_
    simp only [stepPassword]
    split_ifs <;> rfl
  all_goals exact hnone rfl

lemma findSaved_reads {n : ℕ} : ∀ {rows : List ℕ}, (∀ i ∈ rows, i < n) →
    (∀ i ∈ (findSaved status rows).2, i < n) ∧ ∀ i ∈ (findSaved status rows).1, i < n
  | [], _ => by simp [findSaved]
  | row :: rows, hrows => by
    have hrow : row < n := hrows row (by simp)
    have hrest : ∀ i ∈ rows, i < n := fun i hi => hrows i (mem_cons_of_mem _ hi)
    obtain ⟨hmore, hfound⟩ : (∀ i ∈ (findSaved status rows).2, i < n) ∧
        ∀ i ∈ (findSaved status rows).1, i < n := findSaved_reads hrest
    rw [findSaved]
    split
    · simpa using hrow
    · exact ⟨by simpa using ⟨hrow, hmore⟩, hfound⟩

lemma autoconnect_reads (s : State) (status : Status) :
    ∀ i ∈ (autoconnect s (some status)).reads, i < status.networkCount := by
  have hrows : ∀ i ∈ List.range (networkCount (some status)), i < status.networkCount :=
    fun i hi => lt_of_lt_of_le (mem_range.mp hi) (networkCount_le status)
  have hreads : ∀ i ∈ (findSaved status (List.range (networkCount (some status)))).2,
      i < status.networkCount := (findSaved_reads hrows).1
  simp only [autoconnect]
  split_ifs
  · simp [quiet]
  rcases hfound : findSaved status (List.range (networkCount (some status))) with ⟨_ | i, reads⟩
  all_goals
    rw [hfound] at hreads
    exact hreads

/-! ### Any calls -/

inductive Call
  | step (event : Event) (status : Option Status)
  | autoconnect (status : Option Status)
  | enterLock
  | unlock
  | secretAppend (character : UInt8)
  | secretDelete

/-- The state, and the one from which the lock page was entered last. -/
structure Session where
  state : State
  entered : State

def Session.call (s : Session) : Call → Session
  | .step event status => { s with state := (Pages.step s.state event status).state }
  | .autoconnect status => { s with state := (Pages.autoconnect s.state status).state }
  | .enterLock =>
    ⟨(Model.enterLock s.state).2, if (Model.enterLock s.state).1 then s.state else s.entered⟩
  | .unlock => { s with state := (Model.unlock s.state).2 }
  | .secretAppend character => { s with state := (Model.secretAppend s.state character).2 }
  | .secretDelete => { s with state := (Model.secretDelete s.state).2 }

def run (calls : List Call) : Session := calls.foldl Session.call ⟨initialState, initialState⟩

structure Absent (s : State) : Prop where
  page : s.page ≠ .wifiPassword
  secret : ∀ b ∈ s.secret.bytes, b = 0
  visible : s.secretVisible = false

lemma enterLock_cases (s : State) : Model.enterLock s = (false, s) ∨
    ((Model.enterLock s).1 = true ∧ (Model.enterLock s).2.secret = Secret.zero ∧
      (Model.enterLock s).2.secretVisible = false ∧ (Model.enterLock s).2.page = .lock ∧
      (Model.enterLock s).2.returnPage ≠ .wifiPassword ∧
      ((Model.enterLock s).2.frozenLock = true → Absent s)) := by
  by_cases hlock : s.page = .lock
  · exact .inl (by rw [Model.enterLock, if_pos hlock])
  right
  rw [Model.enterLock, if_neg hlock]
  refine ⟨rfl, rfl, rfl, rfl, ?_, fun hf => ?_⟩
  · show (if s.page = .wifiPassword then Page.wifi else s.page) ≠ .wifiPassword
    split
    · simp
    next hp => exact hp
  · simp only [clearSecret, Bool.and_eq_true, Bool.not_eq_true', Bool.or_eq_false_iff,
      isPasswordPage, beq_eq_false_iff_ne, any_eq_false, decide_eq_true_eq, ne_eq, not_not] at hf
    exact ⟨hf.2.1.1.1, hf.2.2, hf.2.1.2⟩

/-- What holds after any calls. -/
structure Hidden (s : Session) : Prop where
  away : s.state.page ≠ .wifiPassword →
    s.state.secret = Secret.zero ∧ s.state.secretVisible = false
  tail : ∀ i, s.state.secretLength ≤ i → s.state.secret.bytes.getD i 0 = 0
  returnPage : s.state.returnPage ≠ .wifiPassword
  frozen : s.state.page = .lock → s.state.frozenLock = true → Absent s.entered

lemma Hidden.effect {s : Session} (h : Hidden s) {s' : State} (he : Effect s.state s') :
    Hidden ⟨s', s.entered⟩ := by
  cases he with
  | kept same page =>
    obtain ⟨h1, h2, h3, h4, h5⟩ := same
    refine ⟨fun hp => ?_, fun i hi => ?_, by rw [h4]; exact h.returnPage, fun hp hf => ?_⟩
    · rw [h1, h3]
      refine h.away ?_
      rcases page with hpage | ⟨hopen, -⟩
      · rwa [hpage] at hp
      · exact hopen.1
    · rw [h1]
      exact h.tail i (by rwa [h2] at hi)
    · rcases page with hpage | ⟨-, hopen⟩
      · exact h.frozen (by rwa [hpage] at hp) (by rwa [h5] at hf)
      · exact absurd hp hopen.2
  | cleared secret returnPage page visible =>
    refine ⟨fun hp => ⟨secret, visible hp⟩, fun i _ => ?_, by rw [returnPage]; exact h.returnPage,
      fun hp => absurd hp page⟩
    rw [secret]
    exact zero_getD i
  | typed returnPage page tail =>
    refine ⟨fun hp => absurd page hp, tail h.tail, by rw [returnPage]; exact h.returnPage,
      fun hp => ?_⟩
    rw [page] at hp
    exact absurd hp (by simp)

lemma Hidden.enterLock {s : Session} (h : Hidden s) : Hidden (s.call .enterLock) := by
  rcases enterLock_cases s.state with hlock | ⟨htrue, hsecret, hvisible, hpage, hreturn, habsent⟩
  · rw [Session.call, hlock]
    exact h
  rw [Session.call, if_pos htrue]
  refine ⟨fun _ => ⟨hsecret, hvisible⟩, fun i _ => ?_, hreturn, fun _ hf => habsent hf⟩
  rw [hsecret]
  exact zero_getD i

lemma Hidden.unlock {s : Session} (h : Hidden s) : Hidden (s.call .unlock) := by
  simp only [Session.call, Model.unlock]
  split_ifs with hlock
  · exact h
  have hpage : s.state.page ≠ .wifiPassword := by
    rw [not_not.mp hlock]
    simp
  exact ⟨fun _ => h.away hpage, h.tail, h.returnPage, fun _ hf => absurd hf (by simp)⟩

lemma Hidden.call {s : Session} (h : Hidden s) (c : Call) : Hidden (s.call c) := by
  cases c with
  | step event status => exact h.effect (step_effect s.state event status)
  | autoconnect status => exact h.effect (autoconnect_effect s.state status)
  | enterLock => exact h.enterLock
  | unlock => exact h.unlock
  | secretAppend character => exact h.effect (secretAppend_effect s.state character)
  | secretDelete => exact h.effect (secretDelete_effect s.state)

lemma hidden_run (calls : List Call) : Hidden (run calls) := by
  have hgo : ∀ {s : Session}, Hidden s → Hidden (calls.foldl Session.call s) := by
    induction calls with
    | nil => exact id
    | cons c calls ih => exact fun h => ih (h.call c)
  exact hgo ⟨fun _ => ⟨rfl, rfl⟩, fun i _ => zero_getD i, by simp [initialState],
    by simp [initialState]⟩

/-- **A password is nowhere but on its page**, after any calls with any events. Away from it the
whole buffer is zero and nothing is shown; behind the password the buffer is zero everywhere. The
lock page is not frozen if a secret was there when it was entered, and an unlock does not lead back
to the password. The rows of networks that are read are there. -/
theorem password_secrecy (calls : List Call) :
    ((run calls).state.page ≠ .wifiPassword →
      (∀ b ∈ (run calls).state.secret.bytes, b = 0) ∧ (run calls).state.secretVisible = false) ∧
    (∀ i, (run calls).state.secretLength ≤ i → (run calls).state.secret.bytes.getD i 0 = 0) ∧
    ((run calls).state.page = .lock → (run calls).state.frozenLock = true →
      Absent (run calls).entered) ∧
    ((unlock (run calls).state).1 = true →
      (unlock (run calls).state).2.page ≠ .wifiPassword) ∧
    (∀ event status, ∀ i ∈ (step (run calls).state event (some status)).reads,
      i < status.networkCount) ∧
    ∀ status, ∀ i ∈ (autoconnect (run calls).state (some status)).reads,
      i < status.networkCount := by
  have h := hidden_run calls
  refine ⟨fun hp => ⟨?_, (h.away hp).2⟩, h.tail, h.frozen, fun hok => ?_,
    fun event status => step_reads _ event status, fun status => autoconnect_reads _ status⟩
  · rw [(h.away hp).1]
    exact fun b hb => eq_of_mem_replicate hb
  · unfold unlock at hok ⊢
    split_ifs at hok ⊢
    exact h.returnPage

end C1auncher.Ui.Secrets
