import Mathlib

/-!
Programs over a durable state whose file operations can fail, and which can die.

A program consumes one reply for each file operation. `ok` performs it, `fail` makes it
return an error and change nothing, `die` ends the process on the spot; once the replies
have run out every operation succeeds. The durable state a dead process leaves behind is
what the next one finds.
-/

namespace C1auncher.Durable

open List

/-- How the environment answers one file operation. -/
inductive Reply
  | ok
  | fail
  | die
  deriving DecidableEq

/-- How a program ended: it returned, it returned an error, or its process died. -/
inductive Outcome (α : Type)
  | done (a : α)
  | failed
  | died
  deriving DecidableEq

/-- A program over durable states `σ` with a result in `α`. -/
def Prog (σ α : Type) : Type := List Reply → σ → Outcome α × σ × List Reply

variable {σ τ α β : Type}

namespace Prog

protected def pure (a : α) : Prog σ α := fun rs d => (.done a, d, rs)

protected def bind (p : Prog σ α) (f : α → Prog σ β) : Prog σ β := fun rs d =>
  match p rs d with
  | (.done a, d', rs') => f a rs' d'
  | (.failed, d', rs') => (.failed, d', rs')
  | (.died, d', rs') => (.died, d', rs')

instance : Monad (Prog σ) where
  pure := Prog.pure
  bind := Prog.bind

/-- Return an error. -/
def fail : Prog σ α := fun rs d => (.failed, d, rs)

/-- One file operation that changes the durable state. -/
def act (f : σ → σ) : Prog σ Unit
  | [], d => (.done (), f d, [])
  | .ok :: rs, d => (.done (), f d, rs)
  | .fail :: rs, d => (.failed, d, rs)
  | .die :: rs, d => (.died, d, rs)

/-- One file operation that only reads. -/
def look (f : σ → α) : Prog σ α
  | [], d => (.done (f d), d, [])
  | .ok :: rs, d => (.done (f d), d, rs)
  | .fail :: rs, d => (.failed, d, rs)
  | .die :: rs, d => (.died, d, rs)

/-- One file operation without effect on the modelled state: a temporary name, a sync. -/
def tick : Prog σ Unit := act id

/-- Go on only if a test holds; a test is no file operation. -/
def require (b : Prop) [Decidable b] : Prog σ Unit := if b then pure () else fail

def when (b : Prop) [Decidable b] (p : Prog σ Unit) : Prog σ Unit := if b then p else pure ()

/-- Go on only with a value. -/
def get : Option α → Prog σ α
  | some a => pure a
  | none => fail

def attempt (p : Prog σ α) : Prog σ (Option α) := fun rs d =>
  match p rs d with
  | (.done a, d', rs') => (.done (some a), d', rs')
  | (.failed, d', rs') => (.done none, d', rs')
  | (.died, d', rs') => (.died, d', rs')

/-- When the program fails, clean up as far as possible, then fail. -/
def orElse (p : Prog σ α) (cleanup : Prog σ Unit) : Prog σ α := do
  match ← attempt p with
  | some a => pure a
  | none =>
    let _ ← attempt cleanup
    fail

def zoom (get : τ → σ) (set : σ → τ → τ) (p : Prog σ α) : Prog τ α := fun rs d =>
  match p rs (get d) with
  | (o, s, rs') => (o, set s d, rs')

/-- The durable state a run leaves behind. -/
def after (p : Prog σ α) (rs : List Reply) (d : σ) : σ := (p rs d).2.1

/-! ### What every run guarantees -/

/-- What a run ended in: `Q` where it returned, `E` where it failed, `C` where it died. -/
def Ends (Q : α → σ → Prop) (E C : σ → Prop) : Outcome α × σ × List Reply → Prop
  | (.done a, d, _) => Q a d
  | (.failed, d, _) => E d
  | (.died, d, _) => C d

/-- On every sequence of replies: `Q` where the program returns, `E` where it fails and
`C` where it dies. -/
def wp (p : Prog σ α) (Q : α → σ → Prop) (E C : σ → Prop) (d : σ) : Prop :=
  ∀ rs, Ends Q E C (p rs d)

variable {p : Prog σ α} {f : α → Prog σ β} {Q : α → σ → Prop} {E C : σ → Prop} {d : σ}

lemma Ends.mono {Q' : α → σ → Prop} {E' C' : σ → Prop} {r : Outcome α × σ × List Reply}
    (h : Ends Q E C r) (hQ : ∀ a d, Q a d → Q' a d) (hE : ∀ d, E d → E' d)
    (hC : ∀ d, C d → C' d) : Ends Q' E' C' r := by
  rcases r with ⟨_ | _ | _, d', rs'⟩
  · exact hQ _ _ h
  · exact hE _ h
  · exact hC _ h

lemma Ends.state {r : Outcome α × σ × List Reply} (h : Ends (fun _ => C) C C r) :
    C r.2.1 := by
  rcases r with ⟨_ | _ | _, d', rs'⟩ <;> exact h

lemma wp_mono {Q' : α → σ → Prop} {E' C' : σ → Prop} (h : wp p Q E C d)
    (hQ : ∀ a d, Q a d → Q' a d) (hE : ∀ d, E d → E' d) (hC : ∀ d, C d → C' d) :
    wp p Q' E' C' d :=
  fun rs => (h rs).mono hQ hE hC

lemma wp_after (h : wp p (fun _ => C) C C d) (rs : List Reply) : C (p.after rs d) :=
  (h rs).state

lemma wp_done {a : α} {rs : List Reply} (h : wp p Q E C d) (hret : (p rs d).1 = .done a) :
    Q a (p.after rs d) := by
  have hends := h rs
  unfold Prog.after
  revert hret hends
  rcases p rs d with ⟨_ | _ | _, d', rs'⟩
  · rintro ⟨⟩ h
    exact h
  · simp
  · simp

lemma wp_pure {a : α} (h : Q a d) : wp (pure a : Prog σ α) Q E C d := fun _ => h

lemma wp_fail (h : E d) : wp (fail : Prog σ α) Q E C d := fun _ => h

lemma wp_bind {Q : β → σ → Prop} (h : wp p (fun a => wp (f a) Q E C) E C d) :
    wp (p >>= f) Q E C d := by
  intro rs
  have hp := h rs
  change Ends Q E C (Prog.bind p f rs d)
  unfold Prog.bind
  revert hp
  rcases p rs d with ⟨_ | _ | _, d', rs'⟩
  · exact fun hp => hp rs'
  · exact id
  · exact id

lemma wp_act {g : σ → σ} {Q : Unit → σ → Prop} (hQ : Q () (g d)) (hE : E d) (hC : C d) :
    wp (act g) Q E C d := by
  rintro (_ | ⟨_ | _ | _, rs⟩) <;> assumption

lemma wp_look {g : σ → α} (hQ : Q (g d) d) (hE : E d) (hC : C d) :
    wp (look g) Q E C d := by
  rintro (_ | ⟨_ | _ | _, rs⟩) <;> assumption

lemma wp_tick {Q : Unit → σ → Prop} (hQ : Q () d) (hE : E d) (hC : C d) :
    wp tick Q E C d :=
  wp_act hQ hE hC

lemma wp_require {b : Prop} [Decidable b] {Q : Unit → σ → Prop} (hQ : b → Q () d)
    (hE : ¬b → E d) : wp (require b) Q E C d := by
  unfold require
  split_ifs with hb
  · exact wp_pure (hQ hb)
  · exact wp_fail (hE hb)

lemma wp_when {b : Prop} [Decidable b] {p : Prog σ Unit} {Q : Unit → σ → Prop}
    (h : b → wp p Q E C d) (h' : ¬b → Q () d) : wp (when b p) Q E C d := by
  unfold when
  split_ifs with hb
  · exact h hb
  · exact wp_pure (h' hb)

lemma wp_get {o : Option α} (hQ : ∀ a, o = some a → Q a d) (hE : o = none → E d) :
    wp (get o) Q E C d := by
  cases o with
  | none => exact wp_fail (hE rfl)
  | some a => exact wp_pure (hQ a rfl)

lemma wp_attempt {Q : Option α → σ → Prop}
    (h : wp p (fun a => Q (some a)) (Q none) C d) : wp (attempt p) Q E C d := by
  intro rs
  have hp := h rs
  unfold attempt
  revert hp
  rcases p rs d with ⟨_ | _ | _, d', rs'⟩ <;> exact id

lemma wp_attempt_then {q : Prog σ β} {Q : β → σ → Prop} {P : σ → Prop}
    (hp : wp p (fun _ => P) P C d) (hq : ∀ d, P d → wp q Q E C d) :
    wp (attempt p >>= fun _ => q) Q E C d :=
  wp_bind (wp_attempt (wp_mono hp (fun _ => hq) hq fun _ h => h))

lemma wp_orElse {cleanup : Prog σ Unit}
    (h : wp p Q (fun d' => wp cleanup (fun _ => E) E C d') C d) :
    wp (orElse p cleanup) Q E C d := by
  refine wp_bind (wp_attempt (wp_mono h (fun a d' hQ => wp_pure hQ) ?_ fun _ h => h))
  intro d' hc
  exact wp_bind (wp_attempt (wp_mono hc (fun _ _ h => wp_fail h) (fun _ h => wp_fail h)
    fun _ h => h))

lemma wp_zoom {view : τ → σ} {set : σ → τ → τ} {Q : α → τ → Prop} {E C : τ → Prop} {d : τ}
    (h : wp p (fun a s => Q a (set s d)) (fun s => E (set s d)) (fun s => C (set s d))
      (view d)) : wp (zoom view set p) Q E C d := by
  intro rs
  have hp := h rs
  unfold zoom
  revert hp
  rcases p rs (view d) with ⟨_ | _ | _, d', rs'⟩ <;> exact id

/-! ### Programs that move along a preorder -/

/-- However it ends, the program leads from a state to one related to it. -/
def Along (R : σ → σ → Prop) (p : Prog σ α) : Prop :=
  ∀ d, wp p (fun _ => R d) (R d) (R d) d

section Along

variable {R : σ → σ → Prop}

lemma Along.pure [Std.Refl R] (a : α) : Along R (pure a : Prog σ α) :=
  fun d => wp_pure (Std.Refl.refl d)

lemma Along.fail [Std.Refl R] : Along R (fail : Prog σ α) := fun d => wp_fail (Std.Refl.refl d)

lemma Along.bind_of [IsTrans σ R] {V : α → Prop}
    (hp : ∀ d, wp p (fun a d' => V a ∧ R d d') (R d) (R d) d) (hf : ∀ a, V a → Along R (f a)) :
    Along R (p >>= f) := by
  intro d
  refine wp_bind (wp_mono (hp d) (fun a d' ⟨hv, h⟩ => ?_) (fun _ h => h) fun _ h => h)
  have htrans : ∀ d'', R d' d'' → R d d'' := fun d'' h' => IsTrans.trans _ _ _ h h'
  exact wp_mono (hf a hv d') (fun _ => htrans) htrans htrans

lemma Along.bind [IsTrans σ R] (hp : Along R p) (hf : ∀ a, Along R (f a)) :
    Along R (p >>= f) :=
  Along.bind_of (V := fun _ => True)
    (fun d => wp_mono (hp d) (fun _ _ h => ⟨trivial, h⟩) (fun _ h => h) fun _ h => h)
    fun a _ => hf a

lemma Along.act [Std.Refl R] {g : σ → σ} (h : ∀ d, R d (g d)) : Along R (act g) :=
  fun d => wp_act (h d) (Std.Refl.refl d) (Std.Refl.refl d)

lemma Along.look [Std.Refl R] (g : σ → α) : Along R (look g) :=
  fun d => wp_look (Std.Refl.refl d) (Std.Refl.refl d) (Std.Refl.refl d)

lemma Along.tick [Std.Refl R] : Along R (tick : Prog σ Unit) :=
  Along.act fun d => Std.Refl.refl d

lemma Along.require_bind [Std.Refl R] {b : Prop} [Decidable b] {f : Unit → Prog σ β}
    (h : b → Along R (f ())) : Along R (require b >>= f) := fun d =>
  wp_bind (wp_require (fun hb => h hb d) fun _ => Std.Refl.refl d)

lemma Along.require [Std.Refl R] (b : Prop) [Decidable b] : Along R (require b : Prog σ Unit) :=
  fun d => wp_require (fun _ => Std.Refl.refl d) fun _ => Std.Refl.refl d

lemma Along.get_bind [Std.Refl R] {o : Option α} (h : ∀ a, o = some a → Along R (f a)) :
    Along R (get o >>= f) := fun d =>
  wp_bind (wp_get (fun a ha => h a ha d) fun _ => Std.Refl.refl d)

lemma Along.when [Std.Refl R] (b : Prop) [Decidable b] {p : Prog σ Unit} (h : Along R p) :
    Along R (when b p) := fun d => wp_when (fun _ => h d) fun _ => Std.Refl.refl d

lemma Along.get [Std.Refl R] (o : Option α) : Along R (get o : Prog σ α) :=
  fun d => wp_get (fun _ _ => Std.Refl.refl d) fun _ => Std.Refl.refl d

lemma Along.attempt (h : Along R p) : Along R (attempt p) := fun d => wp_attempt (h d)

lemma Along.orElse [Std.Refl R] [IsTrans σ R] {cleanup : Prog σ Unit} (h : Along R p)
    (hc : Along R cleanup) : Along R (orElse p cleanup) :=
  h.attempt.bind fun
    | some a => Along.pure a
    | none => hc.attempt.bind fun _ => Along.fail

lemma Along.after (h : Along R p) (rs : List Reply) (d : σ) : R d (p.after rs d) :=
  wp_after (h d) rs

end Along

/-! ### Runs in which every file operation succeeds -/

/-- With every file operation succeeding the program returns `a` and leaves `d'`. -/
def Returns (p : Prog σ α) (d : σ) (a : α) (d' : σ) : Prop := p [] d = (.done a, d', [])

/-- With every file operation succeeding the program still fails, and leaves `d'`. -/
def Refuses (p : Prog σ α) (d d' : σ) : Prop := p [] d = (.failed, d', [])

variable {a : α} {b : β} {d' d'' : σ}

lemma Returns.pure : Returns (pure a : Prog σ α) d a d := rfl

lemma Refuses.fail : Refuses (fail : Prog σ α) d d := rfl

lemma Returns.bind_eq (h : Returns p d a d') : (p >>= f) [] d = f a [] d' := by
  change Prog.bind p f [] d = _
  unfold Prog.bind
  rw [h]

lemma Returns.bind (h : Returns p d a d') (h' : Returns (f a) d' b d'') :
    Returns (p >>= f) d b d'' :=
  h.bind_eq.trans h'

lemma Returns.bind_refuses (h : Returns p d a d') (h' : Refuses (f a) d' d'') :
    Refuses (p >>= f) d d'' :=
  h.bind_eq.trans h'

lemma Refuses.bind (h : Refuses p d d') : Refuses (p >>= f) d d' := by
  change Prog.bind p f [] d = _
  unfold Prog.bind
  rw [h]

lemma Returns.act {g : σ → σ} : Returns (act g) d () (g d) := rfl

lemma Returns.look {g : σ → α} : Returns (look g) d (g d) d := rfl

lemma Returns.tick : Returns (tick : Prog σ Unit) d () d := rfl

lemma Returns.require {b : Prop} [Decidable b] (h : b) :
    Returns (require b : Prog σ Unit) d () d := by
  simp only [Prog.require, if_pos h]
  exact Returns.pure

lemma Refuses.require {b : Prop} [Decidable b] (h : ¬b) :
    Refuses (require b : Prog σ Unit) d d := by
  simp only [Prog.require, if_neg h]
  exact Refuses.fail

lemma Returns.when {b : Prop} [Decidable b] {p : Prog σ Unit} {u : Unit} (hb : b)
    (h : Returns p d u d') : Returns (Prog.when b p) d u d' := by
  simp only [Prog.when, if_pos hb]
  exact h

lemma Returns.when_not {b : Prop} [Decidable b] {p : Prog σ Unit} (hb : ¬b) :
    Returns (Prog.when b p) d () d := by
  simp only [Prog.when, if_neg hb]
  exact Returns.pure

lemma Returns.get {o : Option α} (h : o = some a) : Returns (get o) d a d := by
  subst h
  exact Returns.pure

lemma Refuses.get {o : Option α} (h : o = none) : Refuses (get o) d d := by
  subst h
  exact Refuses.fail

lemma Returns.attempt (h : Returns p d a d') : Returns (attempt p) d (some a) d' := by
  unfold Returns Prog.attempt
  rw [h]

lemma Refuses.attempt (h : Refuses p d d') : Returns (attempt p) d none d' := by
  unfold Returns Prog.attempt
  rw [h]

lemma Returns.orElse {cleanup : Prog σ Unit} (h : Returns p d a d') :
    Returns (orElse p cleanup) d a d' :=
  h.attempt.bind Returns.pure

lemma Returns.zoom {view : τ → σ} {set : σ → τ → τ} {d : τ} {s : σ}
    (h : Returns p (view d) a s) : Returns (zoom view set p) d a (set s d) := by
  unfold Returns Prog.zoom
  rw [h]

lemma Refuses.zoom {view : τ → σ} {set : σ → τ → τ} {d : τ} {s : σ}
    (h : Refuses p (view d) s) : Refuses (zoom view set p) d (set s d) := by
  unfold Refuses Prog.zoom
  rw [h]

lemma Returns.det (h : Returns p d a d') {a' : α} (h' : Returns p d a' d'') :
    a = a' ∧ d' = d'' := by
  unfold Returns at h h'
  simp_all

lemma Refuses.not_returns (h : Refuses p d d') : ¬Returns p d a d'' := by
  intro h'
  unfold Refuses at h
  unfold Returns at h'
  simp_all

lemma Returns.of_wp (h : Returns p d a d') (hw : wp p Q E C d) : Q a d' := by
  have := hw []
  rw [h] at this
  exact this

end Prog

/-! ### Runs of a system -/

/-- The durable states a sequence of steps goes through, the first one included. -/
def visited (exec : τ → σ → σ) : σ → List τ → List σ
  | d, [] => [d]
  | d, t :: ts => d :: visited exec (exec t d) ts

/-- The durable state a sequence of steps ends in. -/
def final (exec : τ → σ → σ) (d : σ) (ts : List τ) : σ := ts.foldl (fun d t => exec t d) d

section Runs

variable {exec : τ → σ → σ} {I : σ → Prop} {R : σ → σ → Prop} {d : σ} {ts : List τ}

lemma final_append (us : List τ) :
    final exec d (ts ++ us) = final exec (final exec d ts) us := by
  simp [final]

lemma visited_append_singleton (t : τ) :
    visited exec d (ts ++ [t]) = visited exec d ts ++ [exec t (final exec d ts)] := by
  induction ts generalizing d with
  | nil => rfl
  | cons u us ih => exact congrArg (d :: ·) ih

lemma final_mem_visited : final exec d ts ∈ visited exec d ts := by
  induction ts generalizing d with
  | nil => exact mem_singleton_self d
  | cons u us ih => exact mem_cons_of_mem _ ih

/-- What holds at first and survives every step of the run holds at its end. -/
theorem final_inv (h0 : I d) (hstep : ∀ t ∈ ts, ∀ d, I d → I (exec t d)) :
    I (final exec d ts) := by
  induction ts generalizing d with
  | nil => exact h0
  | cons t ts ih =>
    exact ih (hstep t mem_cons_self d h0)
      fun u hu => hstep u (mem_cons_of_mem _ hu)

/-- A condition that each step of a run meets in the state it starts from. -/
def Meets (exec : τ → σ → σ) (C : τ → σ → Prop) : σ → List τ → Prop
  | _, [] => True
  | d, t :: ts => C t d ∧ Meets exec C (exec t d) ts

lemma meets_append {C : τ → σ → Prop} {us : List τ} :
    Meets exec C d (ts ++ us) ↔ Meets exec C d ts ∧ Meets exec C (final exec d ts) us := by
  induction ts generalizing d with
  | nil => simp [Meets, final]
  | cons t ts ih =>
    have hfinal : final exec d (t :: ts) = final exec (exec t d) ts := rfl
    rw [cons_append, Meets, Meets, ih, hfinal, and_assoc]

lemma Meets.and {C C' : τ → σ → Prop} (h : Meets exec C d ts) (h' : Meets exec C' d ts) :
    Meets exec (fun t d => C t d ∧ C' t d) d ts := by
  induction ts generalizing d with
  | nil => exact h
  | cons t ts ih => exact ⟨⟨h.1, h'.1⟩, ih h.2 h'.2⟩

/-- What survives every step that meets the condition holds at the end of the run. -/
theorem final_inv_of_meets {C : τ → σ → Prop} (h0 : I d) (hm : Meets exec C d ts)
    (hstep : ∀ t d, C t d → I d → I (exec t d)) : I (final exec d ts) := by
  induction ts generalizing d with
  | nil => exact h0
  | cons t ts ih => exact ih (hstep t d hm.1 h0) hm.2

/-- What every step keeps and a transitive relation of steps, over a whole run. -/
theorem visited_pairwise (h0 : I d) (hstep : ∀ t d, I d → I (exec t d) ∧ R d (exec t d))
    (htrans : ∀ a b c, R a b → R b c → R a c) (ts : List τ) :
    (visited exec d ts).Pairwise R := by
  suffices h : (visited exec d ts).Pairwise R ∧ ∀ e ∈ visited exec d ts, e = d ∨ R d e from h.1
  induction ts generalizing d with
  | nil => exact ⟨pairwise_singleton _ _, by simp [visited]⟩
  | cons t ts ih =>
    obtain ⟨hp, hall⟩ := ih (hstep t d h0).1
    have hR : ∀ e ∈ visited exec (exec t d) ts, R d e := by
      intro e he
      rcases hall e he with rfl | h
      · exact (hstep t d h0).2
      · exact htrans _ _ _ (hstep t d h0).2 h
    refine ⟨List.pairwise_cons.mpr ⟨hR, hp⟩, ?_⟩
    intro e he
    rcases List.mem_cons.mp he with rfl | he
    · exact .inl rfl
    · exact .inr (hR e he)

end Runs

end C1auncher.Durable
