import Mathlib

/-!
Routines that change a state, and may run for ever.

A routine is a function of the state it starts in; where a loop has run out of turns it has no
result. What is stated of its results is thereby stated of the runs that return.
-/

namespace C1auncher.Routines

open Option

/-- A routine over states `σ`. -/
abbrev Routine (σ : Type) : Type → Type := StateT σ Option

variable {σ α β γ : Type}

/-- `p && q`: `q` runs only where `p` returned true. -/
def andAlso (p q : Routine σ Bool) : Routine σ Bool := do
  if ← p then q else pure false

/-- `if (b) p;` -/
def onlyIf (b : Prop) [Decidable b] (p : Routine σ Unit) : Routine σ Unit :=
  if b then p else pure ()

/-- The turns of a loop with a loop variable, at most so many. -/
def turns (body : γ → Routine σ (γ ⊕ β)) : ℕ → γ → Routine σ β
  | 0, _ => fun _ => none
  | n + 1, c => do
    match ← body c with
    | .inl c => turns body n c
    | .inr b => pure b

/-- What holds wherever a routine returns. -/
def wlp (p : Routine σ α) (Q : α → σ → Prop) (s : σ) : Prop :=
  ∀ a s', p s = some (a, s') → Q a s'

variable {p : Routine σ α} {f : α → Routine σ β} {Q : α → σ → Prop} {s : σ}

lemma wlp_mono {Q' : α → σ → Prop} (h : wlp p Q s) (hQ : ∀ a s', Q a s' → Q' a s') :
    wlp p Q' s :=
  fun a s' hrun => hQ a s' (h a s' hrun)

lemma wlp_and {Q' : α → σ → Prop} (h : wlp p Q s) (h' : wlp p Q' s) :
    wlp p (fun a s' => Q a s' ∧ Q' a s') s :=
  fun a s' hrun => ⟨h a s' hrun, h' a s' hrun⟩

lemma wlp_pure {a : α} (h : Q a s) : wlp (pure a) Q s := by
  rintro _ _ ⟨⟩
  exact h

lemma wlp_bind {Q : β → σ → Prop} (h : wlp p (fun a s' => wlp (f a) Q s') s) :
    wlp (p >>= f) Q s := by
  intro b s' hrun
  obtain ⟨⟨a, t⟩, hp, hf⟩ := bind_eq_some_iff.mp hrun
  exact h a t hp b s' hf

lemma wlp_get {Q : σ → σ → Prop} (h : Q s s) : wlp get Q s := by
  rintro _ _ ⟨⟩
  exact h

lemma wlp_modify {g : σ → σ} {Q : PUnit → σ → Prop} (h : Q ⟨⟩ (g s)) : wlp (modify g) Q s := by
  rintro _ _ ⟨⟩
  exact h

lemma wlp_ite {b : Prop} [Decidable b] {q : Routine σ α} (h : b → wlp p Q s)
    (h' : ¬b → wlp q Q s) : wlp (if b then p else q) Q s := by
  split_ifs with hb
  · exact h hb
  · exact h' hb

lemma wlp_andAlso {p q : Routine σ Bool} {Q : Bool → σ → Prop}
    (h : wlp p (fun b s' => if b then wlp q Q s' else Q false s') s) : wlp (andAlso p q) Q s := by
  refine wlp_bind (wlp_mono h ?_)
  rintro (_ | _) s' hs
  · exact wlp_pure hs
  · exact hs

lemma wlp_turns {body : γ → Routine σ (γ ⊕ β)} {Q : β → σ → Prop} (I : γ → σ → Prop)
    (hbody : ∀ c s, I c s → wlp (body c)
      (fun r s' => match r with | .inl c' => I c' s' | .inr b => Q b s') s)
    {n : ℕ} {c : γ} (h : I c s) : wlp (turns body n c) Q s := by
  induction n generalizing c s with
  | zero => rintro _ _ ⟨⟩
  | succ n ih =>
    refine wlp_bind (wlp_mono (hbody c s h) ?_)
    rintro (c' | b) s' hs
    · exact ih hs
    · exact wlp_pure hs

/-! ### What a routine leaves as it is -/

/-- Every return stands in the relation `R` to the start. -/
def Keeps (R : σ → σ → Prop) (p : Routine σ α) : Prop := ∀ s, wlp p (fun _ s' => R s s') s

section
variable {R : σ → σ → Prop}

lemma Keeps.mono {R' : σ → σ → Prop} (h : Keeps R p) (hR : ∀ s s', R s s' → R' s s') :
    Keeps R' p :=
  fun s => wlp_mono (h s) fun _ s' => hR s s'

lemma keeps_ite {b : Prop} [Decidable b] {q : Routine σ α} (hp : Keeps R p) (hq : Keeps R q) :
    Keeps R (if b then p else q) := fun s => wlp_ite (fun _ => hp s) fun _ => hq s

variable (hrefl : ∀ s, R s s) (htrans : ∀ {s t u}, R s t → R t u → R s u)
include hrefl

lemma keeps_pure {a : α} : Keeps R (pure a : Routine σ α) := fun s => wlp_pure (hrefl s)

lemma keeps_get : Keeps R (get : Routine σ σ) := fun s => wlp_get (hrefl s)

lemma keeps_onlyIf {b : Prop} [Decidable b] {p : Routine σ Unit} (hp : Keeps R p) :
    Keeps R (onlyIf b p) := fun s => wlp_ite (fun _ => hp s) fun _ => wlp_pure (hrefl s)

omit hrefl
include htrans

lemma keeps_bind (hp : Keeps R p) (hf : ∀ a, Keeps R (f a)) : Keeps R (p >>= f) := fun s =>
  wlp_bind (wlp_mono (hp s) fun a t hst => wlp_mono (hf a t) fun _ _ htu => htrans hst htu)

include hrefl

lemma keeps_andAlso {p q : Routine σ Bool} (hp : Keeps R p) (hq : Keeps R q) :
    Keeps R (andAlso p q) := by
  refine keeps_bind htrans hp ?_
  rintro (_ | _)
  · exact keeps_pure hrefl
  · exact hq

lemma keeps_turns {body : γ → Routine σ (γ ⊕ β)} (hbody : ∀ c, Keeps R (body c)) (n : ℕ) (c : γ) :
    Keeps R (turns body n c) := by
  intro s
  refine wlp_turns (fun _ => R s) (fun c t hst => ?_) (hrefl s)
  refine wlp_mono (hbody c t) ?_
  rintro (c' | b) u htu <;> exact htrans hst htu

end

/-! ### Routines that return -/

def Total (p : Routine σ α) : Prop := ∀ s, (p s).isSome

section

lemma total_pure (a : α) : Total (pure a : Routine σ α) := fun _ => rfl

lemma total_get : Total (get : Routine σ σ) := fun _ => rfl

lemma total_modify (g : σ → σ) : Total (modify g : Routine σ PUnit) := fun _ => rfl

lemma bind_run (s : σ) : (p >>= f) s = (p s).bind fun r => f r.1 r.2 := rfl

lemma total_bind (hp : Total p) (hf : ∀ a, Total (f a)) : Total (p >>= f) := by
  intro s
  obtain ⟨⟨a, t⟩, hrun⟩ := isSome_iff_exists.mp (hp s)
  rw [bind_run, hrun, bind_some]
  exact hf a t

lemma total_ite {b : Prop} [Decidable b] {q : Routine σ α} (hp : Total p) (hq : Total q) :
    Total (if b then p else q) := by
  split_ifs
  · exact hp
  · exact hq

/-- **A loop returns** where each of its turns does, and each turn that goes on uses up some of
what the turns are enough for. -/
lemma total_turns {body : γ → Routine σ (γ ⊕ β)} (hbody : ∀ c, Total (body c)) (I : γ → Prop)
    (measure : γ → ℕ)
    (hstep : ∀ c s, I c →
      wlp (body c) (fun r _ => ∀ c', r = .inl c' → I c' ∧ measure c' < measure c) s)
    {n : ℕ} {c : γ} (hc : I c) (hn : measure c < n) : Total (turns body n c) := by
  induction n generalizing c with
  | zero => omega
  | succ n ih =>
    intro s
    obtain ⟨⟨r, s'⟩, hrun⟩ := isSome_iff_exists.mp (hbody c s)
    cases r with
    | inl c' =>
      obtain ⟨hc', hless⟩ := hstep c s hc _ s' hrun c' rfl
      rw [turns, bind_run, hrun, bind_some]
      exact ih hc' (by omega) s'
    | inr b =>
      rw [turns, bind_run, hrun, bind_some]
      rfl

end

end C1auncher.Routines
