import C1auncher.Platform.AppLease

/-!
The terminal belongs to the application that runs.
-/

namespace C1auncher.Platform.TerminalMode

open Platform.AppLease List Option

/-! ### What is claimed -/

/-- The chain that has the run lock from then on. -/
def obtains : Action → Option ℕ
  | .obtained chain => some chain
  | _ => none

/-- The chain that has the run lock, and the old mode is gone. -/
def takes : Action → Option ℕ
  | .took chain => some chain
  | _ => none

def changes : Action → Bool
  | .changed _ => true
  | .cleared => true
  | _ => false

/-- The last chain that came in wrote `terminal`, all of it, after it came in, and the mode was
not changed since; what happened last is the first of the log. -/
def Granted (enters : Action → Option ℕ) (log : List Action) (chain : ℕ) : Prop :=
  ∃ since before, log = since ++ .wrote chain terminal :: before ∧
    before.findSome? enters = some chain ∧
    ∀ action ∈ since, enters action = none ∧ changes action = false

def lastAnswer (i : ℕ) (log : List Action) : Option Bool :=
  log.findSome? fun action => match action with
    | .answered j answer => if j = i then some answer else none
    | _ => none

/-! ### The invariant -/

namespace Place

def lock : Place → Option Lock
  | .idle | .dead | .guarding _ _ => none
  | .looking | .reading _ | .answering _ => some .shared
  | _ => some .exclusive

def mode : Place → Option Bytes
  | .guarding (.write mode) _ => some mode
  | .openingMode mode | .truncating mode _ | .writing mode _ => some mode
  | _ => none

def file : Place → Option ℕ
  | .truncating _ file | .writing _ file | .reading file => some file
  | _ => none

/-- The run lock is there, the old mode may be as well. -/
def enters : Place → Bool
  | .unlinking | .dropping => true
  | _ => false

end Place

structure Fit (s : State) (p : Process) : Prop where
  guard : p.guard = Place.lock p.place
  dead : p.place = .dead → p.run = none
  entering : Place.enters p.place = true → p.run ≠ none
  writer : ∀ mode, Place.mode p.place = some mode →
    p.run ≠ none ∧ (mode = terminal ∨ mode = direct)
  taken : ∀ chain, p.run = some chain → Place.enters p.place = false →
    s.log.findSome? takes = some chain
  file : ∀ file, Place.file p.place = some file → s.modePath = some file
  empty : ∀ mode file, p.place = .writing mode file → (s.mode file).bytes = []

structure Good (s : State) : Prop where
  fit : ∀ (i : ℕ) (p : Process), s.processes[i]? = some p → Fit s p
  alone : ∀ (i j : ℕ) (p q : Process), s.processes[i]? = some p → s.processes[j]? = some q → i ≠ j →
    p.guard = some .exclusive → q.guard = none
  one : ∀ (i j : ℕ) (p q : Process) (c d : ℕ), s.processes[i]? = some p → s.processes[j]? = some q →
    p.run = some c → q.run = some d → c = d
  stands : ∀ file, s.modePath = some file → (s.mode file).bytes = terminal →
    ∃ chain, Granted takes s.log chain
  known : ∀ file, s.modePath = some file → file < s.files.length
  guardFile : ∀ file, s.guardFile = some file → accepted file = true
  runFile : ∀ file, s.runFile = some file → accepted file = true
  told : ∀ (i : ℕ) (p : Process) (answer : Bool), s.processes[i]? = some p →
    p.place = .answering answer → lastAnswer i s.log = some answer

variable {s t : State} {i j : ℕ} {p q r : Process}

lemma accepted_created : accepted created = true := by decide

lemma fit_idle {run : Option ℕ}
    (h : ∀ chain, run = some chain → s.log.findSome? takes = some chain) :
    Fit s ⟨.idle, none, run⟩ :=
  ⟨rfl, nofun, nofun, nofun, fun chain hrun _ => h chain hrun, nofun, nofun⟩

lemma good_initial (n : ℕ) : Good (initial n) := by
  have hidle : ∀ (i : ℕ) (p : Process), (initial n).processes[i]? = some p →
      p = ⟨.idle, none, none⟩ := fun i p h =>
    eq_of_mem_replicate (mem_of_getElem? h)
  refine ⟨fun i p h => ?_, fun i j p q h _ _ hp => ?_, fun i j p q c d h _ hp => ?_, nofun, nofun,
    nofun, nofun, fun i p answer h hp => ?_⟩
  · rw [hidle i p h]
    exact fit_idle nofun
  · rw [hidle i p h] at hp
    cases hp
  · rw [hidle i p h] at hp
    cases hp
  · rw [hidle i p h] at hp
    cases hp

/-! ### Turns -/

lemma Fit.frame (h : Fit s p)
    (hfile : p.guard = none ∨ t.modePath = s.modePath ∧ ∀ file, t.mode file = s.mode file)
    (htaken : ∀ chain, p.run = some chain → s.log.findSome? takes = some chain →
      t.log.findSome? takes = some chain) : Fit t p where
  guard := h.guard
  dead := h.dead
  entering := h.entering
  writer := h.writer
  taken := fun chain hrun hplace => htaken chain hrun (h.taken chain hrun hplace)
  file := fun file hplace => by
    rcases hfile with hnone | ⟨hpath, -⟩
    · rw [h.guard] at hnone
      cases hp : p.place <;> rw [hp] at hplace hnone <;> cases hplace <;> cases hnone
    · exact hpath.trans (h.file file hplace)
  empty := fun mode file hplace => by
    rcases hfile with hnone | ⟨-, hmode⟩
    · rw [h.guard, hplace] at hnone
      cases hnone
    · rw [hmode]
      exact h.empty mode file hplace

lemma Good.turn (h : Good s) (hi : s.processes[i]? = some p) (hprocesses :
      t.processes = s.processes.set i q) (hfit : Fit t q)
    (hexclusive : q.guard = some .exclusive → p.guard = some .exclusive ∨ s.guardFree = true)
    (hshared : q.guard = some .shared → p.guard = some .shared ∨ s.guardShared = true)
    (hrun : ∀ chain, q.run = some chain → p.run = some chain ∨ s.runFree = true)
    (hfile : p.guard = some .exclusive ∨
      t.modePath = s.modePath ∧ ∀ file, t.mode file = s.mode file)
    (htaken : ∀ j r chain, s.processes[j]? = some r → j ≠ i → r.run = some chain →
      s.log.findSome? takes = some chain → t.log.findSome? takes = some chain)
    (hstands : ∀ file, t.modePath = some file → (t.mode file).bytes = terminal →
      ∃ chain, Granted takes t.log chain)
    (hknown : ∀ file, t.modePath = some file → file < t.files.length)
    (hguardFile : ∀ file, t.guardFile = some file → accepted file = true)
    (hrunFile : ∀ file, t.runFile = some file → accepted file = true)
    (htold : ∀ answer, q.place = .answering answer → lastAnswer i t.log = some answer)
    (hothers : ∀ j, j ≠ i → lastAnswer j t.log = lastAnswer j s.log) : Good t := by
  have hlt : i < s.processes.length := (List.getElem?_eq_some_iff.mp hi).1
  have hself : t.processes[i]? = some q := by
    rw [hprocesses, getElem?_set_self hlt]
  have hrest : ∀ j, j ≠ i → t.processes[j]? = s.processes[j]? := fun j hj => by
    rw [hprocesses, getElem?_set_ne (Ne.symm hj)]
  have hmem : ∀ j r, s.processes[j]? = some r → r ∈ s.processes := fun j r hr =>
    mem_of_getElem? hr
  -- a new run lock is the only one
  have hone : ∀ k r c d, k ≠ i → s.processes[k]? = some r → q.run = some c → r.run = some d →
      c = d := by
    intro k r c d hk hr hc hd
    rcases hrun c hc with hold | hfree
    · exact h.one i k p r c d hi hr hold hd
    have := List.all_eq_true.mp hfree r (hmem k r hr)
    rw [hd] at this
    cases this
  refine ⟨fun j r hr => ?_, fun j k r r' hr hr' hjk hlock => ?_,
    fun j k r r' c d hr hr' hc hd => ?_, hstands, hknown, hguardFile, hrunFile,
    fun j r answer hr hplace => ?_⟩
  · by_cases hj : j = i
    · subst hj
      rw [hself] at hr
      exact some.inj hr ▸ hfit
    rw [hrest j hj] at hr
    exact (h.fit j r hr).frame (hfile.imp_left fun hlock => h.alone i j p r hi hr (Ne.symm hj)
      hlock) fun chain => htaken j r chain hr hj
  · by_cases hj : j = i
    · subst hj
      rw [hself] at hr
      cases some.inj hr
      rw [hrest k (Ne.symm hjk)] at hr'
      rcases hexclusive hlock with hold | hfree
      · exact h.alone j k p r' hi hr' hjk hold
      · exact Option.isNone_iff_eq_none.mp (List.all_eq_true.mp hfree r' (hmem k r' hr'))
    rw [hrest j hj] at hr
    by_cases hk : k = i
    · subst hk
      rw [hself] at hr'
      cases some.inj hr'
      have hpnone : p.guard = none := h.alone j k r p hr hi hjk hlock
      -- the other one has the guard for itself
      rcases hq : q.guard with _ | ⟨_ | _⟩
      · rfl
      · rcases hshared hq with hold | hfree
        · rw [hpnone] at hold
          cases hold
        have := List.all_eq_true.mp hfree r (hmem j r hr)
        rw [hlock] at this
        cases this
      · rcases hexclusive hq with hold | hfree
        · rw [hpnone] at hold
          cases hold
        have := List.all_eq_true.mp hfree r (hmem j r hr)
        rw [hlock] at this
        cases this
    · rw [hrest k hk] at hr'
      exact h.alone j k r r' hr hr' hjk hlock
  · by_cases hj : j = i <;> by_cases hk : k = i
    · rw [hj, hself] at hr
      rw [hk, hself] at hr'
      cases some.inj hr
      cases some.inj hr'
      exact some.inj (hc.symm.trans hd)
    · rw [hj, hself] at hr
      cases some.inj hr
      rw [hrest k hk] at hr'
      exact hone k r' c d hk hr' hc hd
    · rw [hk, hself] at hr'
      cases some.inj hr'
      rw [hrest j hj] at hr
      exact (hone j r d c hj hr hd hc).symm
    · rw [hrest j hj] at hr
      rw [hrest k hk] at hr'
      exact h.one j k r r' c d hr hr' hc hd
  · by_cases hj : j = i
    · subst hj
      rw [hself] at hr
      cases some.inj hr
      exact htold answer hplace
    · rw [hrest j hj] at hr
      rw [hothers j hj]
      exact h.told j r answer hr hplace

lemma Granted.cons {enters : Action → Option ℕ} {log : List Action} {chain : ℕ}
    (h : Granted enters log chain) {action : Action} (henters : enters action = none)
    (hchanges : changes action = false) : Granted enters (action :: log) chain := by
  obtain ⟨since, before, rfl, hlast, hsince⟩ := h
  refine ⟨action :: since, before, rfl, hlast, fun a ha => ?_⟩
  rcases mem_cons.mp ha with rfl | ha
  · exact ⟨henters, hchanges⟩
  · exact hsince a ha

lemma Granted.latest {enters : Action → Option ℕ} {log : List Action} {chain : ℕ}
    (h : Granted enters log chain) (hwrote : ∀ c mode, enters (.wrote c mode) = none) :
    log.findSome? enters = some chain := by
  obtain ⟨since, before, rfl, hlast, hsince⟩ := h
  rw [findSome?_append, findSome?_eq_none_iff.mpr fun a ha => (hsince a ha).1,
    none_or, findSome?_cons, hwrote]
  exact hlast

lemma Fit.go (h : Fit s p) {place : Place} {guard : Option Lock} (hguard : guard = Place.lock place)
    (hdead : place ≠ .dead) (hentered : Place.enters p.place = false)
    (henters : Place.enters place = false)
    (hmode : ∀ mode, Place.mode place = some mode → Place.mode p.place = some mode)
    (hfile : ∀ file, Place.file place = some file → s.modePath = some file)
    (hempty : ∀ mode file, place = .writing mode file → (s.mode file).bytes = []) :
    Fit s ⟨place, guard, p.run⟩ where
  guard := hguard
  dead := fun hplace => absurd hplace hdead
  entering := fun hplace => absurd (henters.symm.trans hplace) (by decide)
  writer := fun mode hplace => h.writer mode (hmode mode hplace)
  taken := fun chain hrun _ => h.taken chain hrun hentered
  file := hfile
  empty := hempty

lemma Good.go (h : Good s) (hi : s.processes[i]? = some p) {place : Place} {guard : Option Lock}
    {run : Option ℕ} (hfit : Fit s ⟨place, guard, run⟩) (hguard : guard = none ∨ guard = p.guard)
    (hrun : run = none ∨ run = p.run) (hplace : ∀ answer, place ≠ .answering answer) :
    Good (s.put i ⟨place, guard, run⟩) := by
  have hkept : ∀ lock, guard = some lock → p.guard = some lock := by
    rcases hguard with rfl | rfl
    · exact nofun
    · exact fun _ => id
  have hsame : ∀ chain, run = some chain → p.run = some chain := by
    rcases hrun with rfl | rfl
    · exact nofun
    · exact fun _ => id
  exact h.turn hi rfl { hfit with } (fun hq => .inl (hkept _ hq)) (fun hq => .inl (hkept _ hq))
    (fun chain hq => .inl (hsame chain hq)) (.inr ⟨rfl, fun _ => rfl⟩) (fun _ _ _ _ _ _ => id)
    h.stands h.known h.guardFile h.runFile (fun answer hq => absurd hq (hplace answer))
    fun _ _ => rfl

lemma Good.leave (h : Good s) (hi : s.processes[i]? = some p)
    (hguard : p.guard = some .exclusive) (hentered : Place.enters p.place = false) :
    Good (s.put i { p with place := .leaving }) :=
  h.go hi ((h.fit i p hi).go hguard nofun hentered rfl nofun nofun nofun) (.inr rfl) (.inr rfl)
    nofun

lemma Good.guardTurn (h : Good s) (hi : s.processes[i]? = some p) {call : Call} {attempts : ℕ}
    (hp : p.place = .guarding call attempts) (outcome : Outcome) :
    Good (s.guardTurn i p call attempts outcome) := by
  have hfit := h.fit i p hi
  have hnone : p.guard = none := hfit.guard.trans (by rw [hp]; rfl)
  have hentered : Place.enters p.place = false := by rw [hp]; rfl
  have hidle : Good (s.put i { p with place := .idle }) :=
    h.go hi (hfit.go hnone nofun hentered rfl nofun nofun nofun) (.inr rfl) (.inr rfl) nofun
  unfold State.guardTurn
  by_cases hfailed : outcome = .failed
  · rw [if_pos hfailed]
    exact hidle
  rw [if_neg hfailed]
  by_cases hfree : outcome ≠ .interrupted ∧ s.guardFree = true
  · rw [if_pos hfree]
    have hnext : Fit s ⟨call.next, some .exclusive, p.run⟩ := by
      refine hfit.go (by cases call <;> rfl) (by cases call <;> nofun) hentered
        (by cases call <;> rfl) (fun mode hmode => ?_) (by cases call <;> nofun)
        (by cases call <;> nofun)
      rw [hp]
      cases call <;> exact hmode
    exact h.turn hi rfl { hnext with } (fun _ => .inr hfree.2) nofun (fun _ hrun => .inl hrun)
      (.inr ⟨rfl, fun _ => rfl⟩) (fun _ _ _ _ _ _ => id) h.stands h.known h.guardFile h.runFile
      (fun answer hq => absurd hq (by cases call <;> nofun)) fun _ _ => rfl
  rw [if_neg hfree]
  by_cases hlast : attempts ≤ 1
  · rw [if_pos hlast]
    exact hidle
  rw [if_neg hlast]
  refine h.go hi (hfit.go hnone nofun hentered rfl (fun mode hmode => ?_) nofun nofun)
    (.inr rfl) (.inr rfl) nofun
  rw [hp]
  cases call <;> exact hmode

lemma Good.withRunFile (h : Good s) {file : File} (hfile : accepted file = true) :
    Good { s with runFile := some file } :=
  { h with fit := fun i p hi => { (h.fit i p hi) with }, runFile
    := fun file' h' => by cases h'; exact hfile }

lemma Good.withGuardFile (h : Good s) {file : File} (hfile : accepted file = true) :
    Good { s with guardFile := some file } :=
  ⟨fun i p hi => { (h.fit i p hi) with },
    h.alone, h.one, h.stands, h.known, fun file' h' => by cases h'; exact hfile, h.runFile,
    h.told⟩

lemma accepted_getD {file : Option File} (h : ∀ f, file = some f → accepted f = true) :
    accepted (file.getD created) = true := by
  cases file with
  | none => exact accepted_created
  | some f => exact h f rfl

lemma Good.openTurn (h : Good s) (hi : s.processes[i]? = some p) (hp : p.place = .opening)
    (outcome : Outcome) : Good (s.openTurn i p outcome) := by
  have hopen := h.withRunFile (accepted_getD h.runFile)
  have hfit := hopen.fit i p hi
  have hlock : p.guard = some .exclusive := hfit.guard.trans (by rw [hp]; rfl)
  have hentered : Place.enters p.place = false := by rw [hp]; rfl
  unfold State.openTurn
  dsimp only
  split_ifs
  · exact hopen.go hi (hfit.go hlock nofun hentered rfl nofun nofun nofun) (.inr rfl) (.inr rfl)
      nofun
  · exact hopen.leave hi hlock hentered

lemma Good.lockTurn (h : Good s) (hi : s.processes[i]? = some p) (hp : p.place = .locking)
    (outcome : Outcome) : Good (s.lockTurn i p outcome) := by
  have hlock : p.guard = some .exclusive := (h.fit i p hi).guard.trans (by rw [hp]; rfl)
  unfold State.lockTurn
  split_ifs with hfree
  · refine h.turn hi rfl ⟨hlock, nofun, fun _ => nofun, nofun, nofun, nofun, nofun⟩
      (fun _ => .inl hlock) (fun hq => .inl hq) (fun _ _ => .inr hfree.2) (.inl hlock)
      (fun _ _ _ _ _ _ => id) (fun file hpath hbytes => ?_) h.known h.guardFile h.runFile nofun
      fun _ _ => rfl
    obtain ⟨chain, hgranted⟩ := h.stands file hpath hbytes
    exact ⟨chain, hgranted.cons rfl rfl⟩
  · exact h.leave hi hlock (by rw [hp]; rfl)

lemma Good.unlinkTurn (h : Good s) (hi : s.processes[i]? = some p) (hp : p.place = .unlinking)
    (outcome : Outcome) : Good (s.unlinkTurn i p (p.run.getD 0) outcome) := by
  have hfit := h.fit i p hi
  have hlock : p.guard = some .exclusive := hfit.guard.trans (by rw [hp]; rfl)
  obtain ⟨chain, hrun⟩ := Option.ne_none_iff_exists'.mp (hfit.entering (by rw [hp]; rfl))
  have hchain : p.run.getD 0 = chain := by rw [hrun]; rfl
  unfold State.unlinkTurn
  rw [hchain]
  split_ifs
  · refine h.turn hi rfl ⟨hlock, nofun, nofun, nofun, fun chain' hrun' _ => ?_, nofun, nofun⟩
      (fun _ => .inl hlock) (fun hq => .inl hq) (fun _ hq => .inl hq) (.inl hlock)
      (fun j r chain' hj _ hrun' _ => ?_) nofun nofun h.guardFile h.runFile nofun fun _ _ => rfl
    · exact hrun.symm.trans hrun'
    · exact congrArg some (h.one i j p r chain chain' hi hj hrun hrun')
  · have hdrop : Fit s ⟨.dropping, p.guard, p.run⟩ :=
      ⟨hlock, nofun, fun _ => by rw [hrun]; nofun, nofun, nofun, nofun, nofun⟩
    exact h.go hi hdrop (.inr rfl) (.inr rfl) nofun

lemma mode_setMode (s : State) (file : ℕ) (bytes : Bytes) (hlt : file < s.files.length) :
    ((s.setMode file bytes).mode file).bytes = bytes := by
  unfold State.mode State.setMode
  rw [getD_eq_getElem?_getD, getElem?_modify_eq, getElem?_eq_getElem hlt]
  rfl

lemma length_setMode (s : State) (file : ℕ) (bytes : Bytes) :
    (s.setMode file bytes).files.length = s.files.length :=
  length_modify ..

lemma Good.made (h : Good s) (hi : s.processes[i]? = some p) (hlock : p.guard = some .exclusive)
    {mode : Bytes} (hp : p.place = .openingMode mode) :
    Good { s with modePath := some s.files.length, files := s.files ++ [created] } := by
  have hfit := h.fit i p hi
  have hlt : i < s.processes.length := (List.getElem?_eq_some_iff.mp hi).1
  have hself : s.processes = s.processes.set i p := by
    rw [← (List.getElem?_eq_some_iff.mp hi).2, set_getElem_self hlt]
  refine h.turn hi hself { hfit with file := fun file hf => ?_, empty := fun m file hm => ?_ } (fun
    _ => .inl hlock) (fun hq => .inl hq)
    (fun _ hq => .inl hq) (.inl hlock) (fun _ _ _ _ _ _ => id) (fun file hf hbytes => ?_)
    (fun file hf => ?_) h.guardFile h.runFile (fun answer ha => ?_) fun _ _ => rfl
  · rw [hp] at hf
    cases hf
  · rw [hp] at hm
    cases hm
  · cases hf
    have hempty : ((s.files ++ [created]).getD s.files.length created).bytes = [] := by
      simp [created]
    exact absurd (hempty.symm.trans hbytes) (by decide)
  · cases hf
    rw [length_append, length_singleton]
    exact Nat.lt_succ_self _
  · rw [hp] at ha
    cases ha

lemma Good.openModeTurn (h : Good s) (hi : s.processes[i]? = some p)
    (hlock : p.guard = some .exclusive) {mode : Bytes} (hp : p.place = .openingMode mode)
    (outcome : Outcome) : Good (s.openModeTurn i p mode outcome) := by
  have hfit := h.fit i p hi
  have hentered : Place.enters p.place = false := by rw [hp]; rfl
  have hmode : ∀ m, Place.mode (.openingMode mode) = some m → Place.mode p.place = some m :=
    fun m hm => hp ▸ hm
  unfold State.openModeTurn State.createMode
  rcases hpath : s.modePath with _ | file
  · have hmade := h.made hi hlock hp
    have hfit' := hmade.fit i p hi
    dsimp only
    split_ifs
    · exact hmade.go hi (hfit'.go hlock nofun hentered rfl hmode
        (fun f hf => by cases hf; rfl) nofun) (.inr rfl) (.inr rfl) nofun
    · exact hmade.leave hi hlock hentered
  · dsimp only
    split_ifs
    · exact h.go hi (hfit.go hlock nofun hentered rfl hmode
        (fun f hf => by cases hf; exact hpath) nofun) (.inr rfl) (.inr rfl) nofun
    · exact h.leave hi hlock hentered

lemma Good.truncateTurn (h : Good s) (hi : s.processes[i]? = some p) {mode : Bytes} {file : ℕ}
    (hp : p.place = .truncating mode file) (outcome : Outcome) :
    Good (s.truncateTurn i p (p.run.getD 0) mode file outcome) := by
  have hfit := h.fit i p hi
  have hlock : p.guard = some .exclusive := hfit.guard.trans (by rw [hp]; rfl)
  have hentered : Place.enters p.place = false := by rw [hp]; rfl
  have hpath : s.modePath = some file := hfit.file file (by rw [hp]; rfl)
  have hempty := mode_setMode s file [] (h.known file hpath)
  unfold State.truncateTurn
  split_ifs
  · refine h.turn hi rfl ⟨hlock, nofun, nofun, fun m hm => hfit.writer m (by rw [hp]; exact hm),
      fun chain hrun _ => hfit.taken chain hrun hentered, fun f hf => ?_, fun m f hm => ?_⟩
      (fun _ => .inl hlock) (fun hq => .inl hq) (fun _ hq => .inl hq) (.inl hlock)
      (fun _ _ _ _ _ _ => id) (fun f hf hbytes => ?_) (fun f hf => ?_) h.guardFile h.runFile nofun
      fun _ _ => rfl
    · cases hf
      exact hpath
    · cases hm
      exact hempty
    · cases hpath.symm.trans hf
      rw [show ((((s.setMode file []).put i _).tell _).mode file).bytes = [] from hempty] at hbytes
      cases hbytes
    · exact Nat.lt_of_lt_of_eq (h.known f hf) (length_setMode s file []).symm
  · exact h.leave hi hlock hentered

lemma take_ne_terminal {mode : Bytes} (hmode : mode = terminal ∨ mode = direct) (n : ℕ) :
    mode.take (min n (mode.length - 1)) ≠ terminal := by
  intro h
  have hlen := congrArg List.length h
  rw [length_take] at hlen
  rcases hmode with rfl | rfl <;> simp only [terminal, direct, length_cons,
    length_nil] at hlen <;> omega

lemma Good.writeTurn (h : Good s) (hi : s.processes[i]? = some p) {mode : Bytes} {file : ℕ}
    (hp : p.place = .writing mode file) (outcome : Outcome) :
    Good (s.writeTurn i p (p.run.getD 0) mode file outcome) := by
  have hfit := h.fit i p hi
  have hlock : p.guard = some .exclusive := hfit.guard.trans (by rw [hp]; rfl)
  have hentered : Place.enters p.place = false := by rw [hp]; rfl
  have hpath : s.modePath = some file := hfit.file file (by rw [hp]; rfl)
  obtain ⟨hrun, hmode⟩ := hfit.writer mode (by rw [hp]; rfl)
  obtain ⟨chain, hrun⟩ := Option.ne_none_iff_exists'.mp hrun
  have hlast : s.log.findSome? takes = some chain := hfit.taken chain hrun hentered
  have hempty : (s.mode file).bytes = [] := hfit.empty mode file hp
  have hover : ∀ new, overwrite (s.mode file).bytes new = new := fun new => by
    rw [hempty, overwrite, drop_nil, append_nil]
  have hleft : ∀ (new : Bytes) (log : List Action), log.findSome? takes = s.log.findSome? takes →
      (∀ j, lastAnswer j log = lastAnswer j s.log) →
      (new = terminal → ∃ chain, Granted takes log chain) →
      Good { (s.setMode file new).put i { p with place := .leaving } with log := log } := by
    intro new log htakes hanswers hstands
    have hnew := mode_setMode s file new (h.known file hpath)
    refine h.turn hi rfl ⟨hlock, nofun, nofun, nofun,
        fun c hc _ => htakes.trans (hfit.taken c hc hentered), nofun, nofun⟩
      (fun _ => .inl hlock) (fun hq => .inl hq) (fun _ hq => .inl hq) (.inl hlock)
      (fun _ _ _ _ _ _ hc => htakes.trans hc) (fun f hf hbytes => ?_) (fun f hf => ?_) h.guardFile
      h.runFile nofun fun j _ => hanswers j
    · cases hpath.symm.trans hf
      exact hstands (hnew.symm.trans hbytes)
    · exact Nat.lt_of_lt_of_eq (h.known f hf) (length_setMode s file new).symm
  have hchain : p.run.getD 0 = chain := by rw [hrun]; rfl
  unfold State.writeTurn
  rw [hchain]
  dsimp only
  cases outcome with
  | ok =>
    dsimp only
    rw [hover]
    exact hleft mode (.wrote chain mode :: s.log) rfl (fun _ => rfl) fun hterminal =>
      ⟨chain, [], s.log, by rw [hterminal]; rfl, hlast, nofun⟩
  | short n =>
    dsimp only
    rw [hover]
    exact hleft _ s.log rfl (fun _ => rfl) fun hterminal =>
      absurd hterminal (take_ne_terminal hmode n)
  | interrupted => exact h.leave hi hlock hentered
  | failed => exact h.leave hi hlock hentered

lemma Good.clearTurn (h : Good s) (hi : s.processes[i]? = some p) (hp : p.place = .clearing)
    (outcome : Outcome) : Good (s.clearTurn i p outcome) := by
  have hfit := h.fit i p hi
  have hlock : p.guard = some .exclusive := hfit.guard.trans (by rw [hp]; rfl)
  have hentered : Place.enters p.place = false := by rw [hp]; rfl
  unfold State.clearTurn
  split_ifs
  · exact h.turn hi rfl ⟨hlock, nofun, nofun, nofun,
        fun chain hrun _ => hfit.taken chain hrun hentered, nofun, nofun⟩
      (fun _ => .inl hlock) (fun hq => .inl hq) (fun _ hq => .inl hq) (.inl hlock)
      (fun _ _ _ _ _ _ => id) nofun nofun h.guardFile h.runFile nofun fun _ _ => rfl
  · exact h.leave hi hlock hentered

lemma lastAnswer_self (i : ℕ) (answer : Bool) (log : List Action) :
    lastAnswer i (.answered i answer :: log) = some answer := by
  simp [lastAnswer]

lemma lastAnswer_other (hj : j ≠ i) (answer : Bool) (log : List Action) :
    lastAnswer j (.answered i answer :: log) = lastAnswer j log := by
  simp [lastAnswer, Ne.symm hj]

lemma Good.answer (h : Good s) (hi : s.processes[i]? = some p) (hlock : p.guard = some .shared)
    (hentered : Place.enters p.place = false) (answer : Bool) :
    Good ((s.put i { p with place := .answering answer }).tell (.answered i answer)) := by
  have hfit := h.fit i p hi
  refine h.turn hi rfl ⟨hlock, nofun, nofun, nofun,
      fun chain hrun _ => hfit.taken chain hrun hentered, nofun, nofun⟩
    (fun hq => .inl hq) (fun hq => .inl hq) (fun _ hq => .inl hq) (.inr ⟨rfl, fun _ => rfl⟩)
    (fun _ _ _ _ _ _ => id) (fun file hpath hbytes => ?_) h.known h.guardFile h.runFile
    (fun answer' hq => ?_) fun j hj => ?_
  · obtain ⟨chain, hgranted⟩ := h.stands file hpath hbytes
    exact ⟨chain, hgranted.cons rfl rfl⟩
  · cases hq
    exact lastAnswer_self i answer s.log
  · exact lastAnswer_other hj answer s.log

lemma Good.lookTurn (h : Good s) (hi : s.processes[i]? = some p) (hp : p.place = .looking)
    (outcome : Outcome) : Good (s.lookTurn i p outcome) := by
  have hfit := h.fit i p hi
  have hlock : p.guard = some .shared := hfit.guard.trans (by rw [hp]; rfl)
  have hentered : Place.enters p.place = false := by rw [hp]; rfl
  unfold State.lookTurn
  rcases hpath : s.modePath with _ | file
  · exact h.answer hi hlock hentered false
  dsimp only
  split_ifs
  · exact h.go hi (hfit.go hlock nofun hentered rfl nofun
      (fun f hf => by cases hf; exact hpath) nofun) (.inr rfl) (.inr rfl) nofun
  · exact h.answer hi hlock hentered false

lemma Good.returned (h : Good s) (i : ℕ) (answer : Bool) : Good (s.tell (.returned i answer)) :=
  ⟨fun j p hj => { (h.fit j p hj) with },
    h.alone, h.one, fun file hpath hbytes => by
      obtain ⟨chain, hgranted⟩ := h.stands file hpath hbytes
      exact ⟨chain, hgranted.cons rfl rfl⟩,
    h.known, h.guardFile, h.runFile, h.told⟩

lemma Good.turnOf (h : Good s) (hi : s.processes[i]? = some p) (outcome : Outcome) :
    Good (s.turn i p outcome) := by
  have hfit := h.fit i p hi
  unfold State.turn
  cases hp : p.place with
  | idle => exact h
  | dead => exact h
  | guarding call attempts => exact h.guardTurn hi hp outcome
  | opening => exact h.openTurn hi hp outcome
  | locking => exact h.lockTurn hi hp outcome
  | unlinking => exact h.unlinkTurn hi hp outcome
  | dropping =>
    have hlock : p.guard = some .exclusive := hfit.guard.trans (by rw [hp]; rfl)
    exact h.go hi ⟨hlock, nofun, nofun, nofun, nofun, nofun, nofun⟩ (.inr rfl) (.inl rfl) nofun
  | openingMode mode => exact h.openModeTurn hi (hfit.guard.trans (by rw [hp]; rfl)) hp outcome
  | truncating mode file => exact h.truncateTurn hi hp outcome
  | writing mode file => exact h.writeTurn hi hp outcome
  | clearing => exact h.clearTurn hi hp outcome
  | leaving =>
    exact h.go hi (hfit.go rfl nofun (by rw [hp]; rfl) rfl nofun nofun nofun) (.inl rfl)
      (.inr rfl) nofun
  | looking => exact h.lookTurn hi hp outcome
  | reading file =>
    exact h.answer hi (hfit.guard.trans (by rw [hp]; rfl)) (by rw [hp]; rfl) _
  | answering answer =>
    have hidle : Good (s.put i { p with place := .idle, guard := none }) :=
      h.go hi (hfit.go rfl nofun (by rw [hp]; rfl) rfl nofun nofun nofun) (.inl rfl)
        (.inr rfl) nofun
    exact hidle.returned i answer

/-! ### Between the calls -/

lemma Good.start (h : Good s) (hi : s.processes[i]? = some p) (hp : p.place = .idle) (call : Call)
    (outcome : Outcome) : Good (s.start i p call outcome) := by
  have hopen := h.withGuardFile (accepted_getD h.guardFile)
  have hfit := hopen.fit i p hi
  have hnone : p.guard = none := hfit.guard.trans (by rw [hp]; rfl)
  unfold State.start
  by_cases harguments : (!call.valid || (call.writes && p.run.isNone)) = true
  · rw [if_pos harguments]
    exact h
  rw [if_neg harguments]
  dsimp only
  split_ifs
  · have hwriter : ∀ mode, Place.mode (.guarding call 100) = some mode →
        p.run ≠ none ∧ (mode = terminal ∨ mode = direct) := by
      intro mode hmode
      cases call with
      | acquire => cases hmode
      | clear => cases hmode
      | write mode' =>
        cases hmode
        simp only [Call.valid, Call.writes, Bool.or_eq_true, Bool.not_eq_true', Bool.true_and,
          Bool.or_eq_false_iff, isNone_iff_eq_none, not_or, decide_eq_false_iff_not]
          at harguments
        exact ⟨harguments.2, by simpa only [← not_or, not_not] using harguments.1⟩
    have hwait : Fit _ ⟨.guarding call 100, p.guard, p.run⟩ := ⟨hnone, nofun, nofun, hwriter,
      fun chain hrun _ => hfit.taken chain hrun (by rw [hp]; rfl), nofun, nofun⟩
    exact hopen.go hi hwait (.inr rfl) (.inr rfl) nofun
  · exact hopen

lemma Good.look (h : Good s) (hi : s.processes[i]? = some p) (hp : p.place = .idle)
    (outcome : Outcome) : Good (s.look i p outcome) := by
  have hopen := h.withGuardFile (accepted_getD h.guardFile)
  have hfit := hopen.fit i p hi
  unfold State.look
  dsimp only
  split_ifs with hfree
  · have hlook : Fit _ ⟨.looking, some .shared, p.run⟩ :=
      hfit.go rfl nofun (by rw [hp]; rfl) rfl nofun nofun nofun
    exact hopen.turn hi rfl { hlook with } nofun (fun _ => .inr hfree.2.2) (fun _ hrun => .inl hrun)
      (.inr ⟨rfl, fun _ => rfl⟩) (fun _ _ _ _ _ _ => id) hopen.stands hopen.known
      hopen.guardFile hopen.runFile nofun fun _ _ => rfl
  · exact hopen

lemma Good.fork (h : Good s) (hi : s.processes[i]? = some p) (hp : p.place = .idle) :
    Good { s with processes := s.processes ++ [p] } := by
  have hnone : p.guard = none := (h.fit i p hi).guard.trans (by rw [hp]; rfl)
  have hold : ∀ (j : ℕ) (q : Process), (s.processes ++ [p])[j]? = some q →
      s.processes[j]? = some q ∨ q = p := by
    intro j q hq
    rw [getElem?_append] at hq
    split_ifs at hq
    · exact .inl hq
    · exact .inr (mem_singleton.mp (mem_of_getElem? hq))
  have hwhere : ∀ (j : ℕ) (q : Process), (s.processes ++ [p])[j]? = some q →
      ∃ k : ℕ, s.processes[k]? = some q := by
    intro j q hq
    rcases hold j q hq with hq | rfl
    · exact ⟨j, hq⟩
    · exact ⟨i, hi⟩
  refine ⟨fun j q hq => ?_, fun j k q r hq hr hjk hlock => ?_, fun j k q r c d hq hr hc hd => ?_,
    h.stands, h.known, h.guardFile, h.runFile, fun j q answer hq hplace => ?_⟩
  · obtain ⟨k, hk⟩ := hwhere j q hq
    have hfit := h.fit k q hk
    exact { hfit with }
  · rcases hold j q hq with hq | rfl
    · rcases hold k r hr with hr | rfl
      · exact h.alone j k q r hq hr hjk hlock
      · exact hnone
    · rw [hnone] at hlock
      cases hlock
  · obtain ⟨j', hj⟩ := hwhere j q hq
    obtain ⟨k', hk⟩ := hwhere k r hr
    exact h.one j' k' q r c d hj hk hc hd
  · rcases hold j q hq with hq | rfl
    · exact h.told j q answer hq hplace
    · rw [hp] at hplace
      cases hplace

lemma Good.step (h : Good s) (i : ℕ) (event : Event) : Good (s.step i event) := by
  unfold State.step
  rcases hi : s.processes[i]? with _ | p
  · exact h
  have hfit := h.fit i p hi
  have hidle : ∀ event : Event, Good (if p.place = .idle then s.between i p event else s) := by
    intro event
    by_cases hp : p.place = .idle
    swap
    · rw [if_neg hp]
      exact h
    rw [if_pos hp]
    have hnone : p.guard = none := hfit.guard.trans (by rw [hp]; rfl)
    cases event with
    | start call outcome => exact h.start hi hp call outcome
    | look outcome => exact h.look hi hp outcome
    | turn outcome => exact h
    | fork => exact h.fork hi hp
    | exec =>
      exact h.go hi (hfit.go (by rw [hp]; rfl) (by rw [hp]; nofun) (by rw [hp]; rfl)
        (by rw [hp]; rfl) (fun _ => id) (by rw [hp]; nofun) (by rw [hp]; nofun)) (.inl rfl)
        (.inr rfl) (by rw [hp]; nofun)
    | release =>
      exact h.go hi ⟨hfit.guard, fun _ => rfl, by rw [hp]; nofun, by rw [hp]; nofun, nofun,
        by rw [hp]; nofun, by rw [hp]; nofun⟩ (.inr rfl) (.inl rfl) (by rw [hp]; nofun)
    | die => exact h
  cases event with
  | turn outcome => exact h.turnOf hi outcome
  | die =>
    exact h.go hi ⟨rfl, fun _ => rfl, nofun, nofun, nofun, nofun, nofun⟩ (.inl rfl) (.inl rfl) nofun
  | start call outcome => exact hidle _
  | look outcome => exact hidle _
  | fork => exact hidle _
  | exec => exact hidle _
  | release => exact hidle _

lemma Good.run (events : List (ℕ × Event)) (h : Good s) : Good (run s events) := by
  induction events generalizing s with
  | nil => exact h
  | cons event events ih => exact ih (h.step event.1 event.2)

/-! ### Who has the terminal -/

lemma take_eq_terminal {bytes : Bytes} (h : bytes.take 16 = terminal) : bytes = terminal := by
  have hlen := congrArg List.length h
  simp only [length_take, terminal, length_cons, length_nil] at hlen
  rwa [take_of_length_le (by omega)] at h

variable (s i p) in
/-- What a process at its place may tell: a yes is what it reads, and it returns what it found. -/
def Tells : Action → Prop
  | .answered j answer =>
    j = i ∧ (answer = true → ∃ file, p.place = .reading file ∧ (s.mode file).bytes = terminal)
  | .returned j answer => j = i ∧ p.place = .answering answer
  | _ => True

lemma turn_tells (s : State) (i : ℕ) (p : Process) (outcome : Outcome) :
    (s.turn i p outcome).log = s.log ∨
      ∃ action, (s.turn i p outcome).log = action :: s.log ∧ Tells s i p action := by
  unfold State.turn
  cases hp : p.place with
  | idle => exact .inl rfl
  | dead => exact .inl rfl
  | guarding call attempts =>
    dsimp only [State.guardTurn]
    split_ifs <;> exact .inl rfl
  | opening =>
    dsimp only [State.openTurn]
    split_ifs <;> exact .inl rfl
  | locking =>
    dsimp only [State.lockTurn]
    split_ifs
    · exact .inr ⟨_, rfl, trivial⟩
    · exact .inl rfl
  | unlinking =>
    dsimp only [State.unlinkTurn]
    split_ifs
    · exact .inr ⟨_, rfl, trivial⟩
    · exact .inl rfl
  | dropping => exact .inl rfl
  | openingMode mode =>
    rcases hpath : s.modePath with _ | file <;>
      simp only [State.openModeTurn, State.createMode, hpath] <;> split_ifs <;> exact .inl rfl
  | truncating mode file =>
    dsimp only [State.truncateTurn]
    split_ifs
    · exact .inr ⟨_, rfl, trivial⟩
    · exact .inl rfl
  | writing mode file =>
    cases outcome with
    | ok => exact .inr ⟨_, rfl, trivial⟩
    | _ => exact .inl rfl
  | clearing =>
    dsimp only [State.clearTurn]
    split_ifs
    · exact .inr ⟨_, rfl, trivial⟩
    · exact .inl rfl
  | leaving => exact .inl rfl
  | looking =>
    rcases hpath : s.modePath with _ | file
    · simp only [State.lookTurn, hpath]
      exact .inr ⟨_, rfl, rfl, nofun⟩
    simp only [State.lookTurn, hpath]
    split_ifs
    · exact .inl rfl
    · exact .inr ⟨_, rfl, rfl, nofun⟩
  | reading file =>
    refine .inr ⟨_, rfl, rfl, fun hanswer => ⟨file, hp, ?_⟩⟩
    simp only [Bool.and_eq_true, decide_eq_true_eq] at hanswer
    exact take_eq_terminal hanswer.2
  | answering answer => exact .inr ⟨_, rfl, rfl, hp⟩

lemma step_tells {outcome : Outcome} {action : Action}
    (h : (s.step i (.turn outcome)).log = action :: s.log) :
    ∃ p, s.processes[i]? = some p ∧ Tells s i p action := by
  unfold State.step at h
  rcases hi : s.processes[i]? with _ | p
  · rw [hi] at h
    exact absurd h.symm (cons_ne_self action s.log)
  rw [hi] at h
  rcases turn_tells s i p outcome with hsame | ⟨action', hlog, htells⟩
  · exact absurd (h.symm.trans hsame) (cons_ne_self action s.log)
  · cases (cons.inj (h.symm.trans hlog)).1
    exact ⟨p, rfl, htells⟩

lemma answer_granted (h : Good s) {outcome : Outcome}
    (hanswer : (s.step i (.turn outcome)).log = .answered i true :: s.log) :
    ∃ chain, Granted takes s.log chain ∧
      ∀ (j : ℕ) (q : Process) (c : ℕ), s.processes[j]? = some q → q.run = some c → c = chain := by
  obtain ⟨p, hi, -, hread⟩ := step_tells hanswer
  obtain ⟨file, hp, hbytes⟩ := hread rfl
  have hfit := h.fit i p hi
  have hlock : p.guard = some .shared := hfit.guard.trans (by rw [hp]; rfl)
  obtain ⟨chain, hgranted⟩ := h.stands file (hfit.file file (by rw [hp]; rfl)) hbytes
  refine ⟨chain, hgranted, fun j q c hj hc => ?_⟩
  have hq := h.fit j q hj
  -- who has the run lock and not yet removed the mode has the guard for itself
  have hentered : Place.enters q.place = false := by
    by_contra henters
    rw [Bool.not_eq_false] at henters
    have hexclusive : q.guard = some .exclusive := by
      rw [hq.guard]
      cases hplace : q.place <;> rw [hplace] at henters <;> first | rfl | cases henters
    by_cases hij : j = i
    · subst hij
      rw [hi] at hj
      cases hj
      rw [hlock] at hexclusive
      cases hexclusive
    · have := h.alone j i q p hj hi hij hexclusive
      rw [hlock] at this
      cases this
  exact some.inj ((hq.taken c hc hentered).symm.trans (hgranted.latest fun _ _ => rfl))

/-- The six turns of an acquisition that nothing is against. -/
def acquisition : List Event := [.start .acquire .ok, .turn .ok, .turn .ok, .turn .ok, .turn .ok,
  .turn .ok]

lemma step_put (hlt : i < s.processes.length) (p : Process) (outcome : Outcome) :
    (s.put i p).step i (.turn outcome) = (s.put i p).turn i p outcome := by
  have hself : (s.put i p).processes[i]? = some p := getElem?_set_self hlt
  unfold State.step
  rw [hself]

lemma put_put (s : State) (i : ℕ) (p q : Process) : (s.put i p).put i q = s.put i q := by
  unfold State.put
  rw [set_set]

lemma run_acquisition (h : Good s) (hi : s.processes[i]? = some ⟨.idle, none, none⟩)
    (hfree : ∀ p ∈ s.processes, p.guard = none ∧ p.run = none) :
    run s (acquisition.map (i, ·)) = { s with
      processes := s.processes.set i ⟨.idle, none, some s.chains⟩
      guardFile := some (s.guardFile.getD created)
      runFile := some (s.runFile.getD created)
      modePath := none
      chains := s.chains + 1
      log := .took s.chains :: .obtained s.chains :: s.log } := by
  have hlt : i < s.processes.length := (List.getElem?_eq_some_iff.mp hi).1
  let t : State := { s with guardFile := some (s.guardFile.getD created) }
  let u : State := { t with runFile := some (s.runFile.getD created) }
  let v : State := { u with chains := s.chains + 1, log := .obtained s.chains :: s.log }
  let w : State := { v with modePath := none, log := .took s.chains :: v.log }
  have hguard : (t.put i ⟨.guarding .acquire 100, none, none⟩).guardFree = true := by
    refine List.all_eq_true.mpr fun p hp => ?_
    rcases mem_or_eq_of_mem_set hp with hp | rfl
    · exact Option.isNone_iff_eq_none.mpr (hfree p hp).1
    · rfl
  have hrun : (u.put i ⟨.locking, some .exclusive, none⟩).runFree = true := by
    refine List.all_eq_true.mpr fun p hp => ?_
    rcases mem_or_eq_of_mem_set hp with hp | rfl
    · exact Option.isNone_iff_eq_none.mpr (hfree p hp).2
    · rfl
  have hstart : s.step i (.start .acquire .ok) =
      t.put i ⟨.guarding .acquire 100, none, none⟩ := by
    unfold State.step
    rw [hi]
    change s.start i ⟨.idle, none, none⟩ .acquire .ok = _
    unfold State.start
    rw [if_neg (by decide)]
    exact if_pos ⟨rfl, accepted_getD h.guardFile⟩
  have hlock : (t.put i ⟨.guarding .acquire 100, none, none⟩).step i (.turn .ok) =
      t.put i ⟨.opening, some .exclusive, none⟩ := by
    rw [step_put (s := t) hlt]
    exact (if_pos ⟨by decide, hguard⟩).trans (put_put t i _ _)
  have hopen : (t.put i ⟨.opening, some .exclusive, none⟩).step i (.turn .ok) =
      u.put i ⟨.locking, some .exclusive, none⟩ := by
    rw [step_put (s := t) hlt]
    exact (if_pos ⟨rfl, accepted_getD h.runFile⟩).trans (put_put u i _ _)
  have hobtain : (u.put i ⟨.locking, some .exclusive, none⟩).step i (.turn .ok) =
      v.put i ⟨.unlinking, some .exclusive, some s.chains⟩ := by
    rw [step_put (s := u) hlt]
    exact (if_pos ⟨rfl, hrun⟩).trans (put_put v i _ _)
  have htake : (v.put i ⟨.unlinking, some .exclusive, some s.chains⟩).step i (.turn .ok) =
      w.put i ⟨.leaving, some .exclusive, some s.chains⟩ := by
    rw [step_put (s := v) hlt]
    exact put_put w i _ _
  have hleave : (w.put i ⟨.leaving, some .exclusive, some s.chains⟩).step i (.turn .ok) =
      w.put i ⟨.idle, none, some s.chains⟩ := by
    rw [step_put (s := w) hlt]
    exact put_put w i _ _
  change ((((((s.step i (.start .acquire .ok)).step i (.turn .ok)).step i (.turn .ok)).step i
    (.turn .ok)).step i (.turn .ok)).step i (.turn .ok)) = w.put i ⟨.idle, none, some s.chains⟩
  rw [hstart, hlock, hopen, hobtain, htake, hleave]

/-- **The terminal belongs to the application that runs.** However the processes take turns and
wherever they die: who finds that the terminal may be used finds a mode that the last chain to
come in wrote itself, all of it, and nobody changed since, and no other chain has the run lock;
what is returned is what was found; and when nobody alive has a lock any more, the next
acquisition that the system lets have its files gets the run lock and finds no old mode. -/
theorem terminal_permission (n : ℕ) (events : List (ℕ × Event)) (i : ℕ) :
    let s := run (initial n) events
    (∀ outcome, (s.step i (.turn outcome)).log = .answered i true :: s.log →
      ∃ chain, Granted takes s.log chain ∧
        ∀ (j : ℕ) (q : Process) (c : ℕ), s.processes[j]? = some q → q.run = some c → c = chain) ∧
    (∀ outcome answer, (s.step i (.turn outcome)).log = .returned i answer :: s.log →
      lastAnswer i s.log = some answer) ∧
    (s.processes[i]? = some ⟨.idle, none, none⟩ →
      (∀ p ∈ s.processes, p.place ≠ .dead → p.guard = none ∧ p.run = none) →
      let t := run s (acquisition.map (i, ·))
      t.processes[i]? = some ⟨.idle, none, some s.chains⟩ ∧ t.modePath = none ∧
        t.log = .took s.chains :: .obtained s.chains :: s.log) := by
  intro s
  have h : Good s := (good_initial n).run events
  refine ⟨fun outcome => answer_granted h, fun outcome answer hreturned => ?_,
    fun hi hfree => ?_⟩
  · obtain ⟨p, hi, -, hp⟩ := step_tells hreturned
    exact h.told i p answer hi hp
  · have hall : ∀ p ∈ s.processes, p.guard = none ∧ p.run = none := by
      intro p hp
      by_cases hdead : p.place = .dead
      · obtain ⟨j, hj⟩ := List.mem_iff_getElem?.mp hp
        have hfit := h.fit j p hj
        exact ⟨hfit.guard.trans (by rw [hdead]; rfl), hfit.dead hdead⟩
      · exact hfree p hp hdead
    intro t
    have ht : t = _ := run_acquisition h hi hall
    rw [ht]
    exact ⟨getElem?_set_self (List.getElem?_eq_some_iff.mp hi).1, rfl, rfl⟩

def publication (mode : Bytes) : List Event := [.start (.write mode) .ok, .turn .ok, .turn .ok,
  .turn .ok, .turn .ok, .turn .ok]

/-- An application that runs, and the launcher that looks. -/
theorem terminal_permission_run :
    let s := run (initial 2) (acquisition.map (0, ·) ++ (publication terminal).map (0, ·) ++
      [(1, .look .ok), (1, .turn .ok)])
    ∃ chain, Granted takes s.log chain ∧
      ∀ (j : ℕ) (q : Process) (c : ℕ), s.processes[j]? = some q → q.run = some c → c = chain :=
  (terminal_permission 2 (acquisition.map (0, ·) ++ (publication terminal).map (0, ·) ++
    [(1, .look .ok), (1, .turn .ok)]) 1).1 .ok (by decide +kernel)

/-- A process that dies behind the lock, before it has removed the old mode, leaves the permission
of the application before it. -/
theorem terminal_permission_fails :
    ¬∀ (n : ℕ) (events : List (ℕ × Event)) (i : ℕ) (outcome : Outcome),
      let s := run (initial n) events
      (s.step i (.turn outcome)).log = .answered i true :: s.log →
        ∃ chain, Granted obtains s.log chain := by
  intro h
  obtain ⟨chain, hgranted⟩ := h 3 (acquisition.map (0, ·) ++ (publication terminal).map (0, ·) ++
    [(0, .release)] ++ (acquisition.take 4).map (1, ·) ++ [(1, .die), (2, .look .ok),
      (2, .turn .ok)]) 2 .ok (by decide +kernel)
  have hlast := hgranted.latest fun _ _ => rfl
  obtain ⟨since, before, hlog, -, -⟩ := hgranted
  have hwrote : Action.wrote chain terminal ∈ since ++ .wrote chain terminal :: before :=
    mem_append_right _ mem_cons_self
  rw [← hlog] at hwrote
  rw [show chain = 1 from some.inj (hlast.symm.trans (by decide +kernel))] at hwrote
  exact absurd hwrote (by decide +kernel)

end C1auncher.Platform.TerminalMode
