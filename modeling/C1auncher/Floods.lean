import Mathlib.Data.Finset.Card

/-!
Depth-first filling of a graph, with a state that marks the vertices it has come to: the vertices
it marks are those reachable from its start over vertices that were unmarked before.
-/

namespace C1auncher.Floods

open List

variable {V S : Type*} [DecidableEq V] (closed spreads : S → V → Bool) (next : V → List V)
  (visit : S → V → S)

/-- The fill from a vertex: a closed vertex is left alone, any other one is visited, and a vertex
that spreads passes the fill on to its neighbours. `none` when the calls nest too deeply. -/
def fill : ℕ → S → V → Option S
  | 0, _, _ => none
  | n + 1, s, v =>
    if closed s v then some s
    else if spreads (visit s v) v then (next v).foldlM (fill n) (visit s v)
    else some (visit s v)

/-- A visit closes its vertex and changes nothing else that a fill reads. -/
structure Marks : Prop where
  closed_visit : ∀ s v w, closed (visit s v) w = (closed s w || decide (w = v))
  spreads_visit : ∀ s v w, spreads (visit s v) w = spreads s w

/-- A fill passes from one vertex to the other. -/
def Joins (s : S) (a b : V) : Prop := spreads s a = true ∧ b ∈ next a ∧ closed s b = false

/-- What a fill from the vertices of a list comes to. -/
def Reached (s : S) (starts : List V) (w : V) : Prop :=
  ∃ v ∈ starts, closed s v = false ∧ Relation.ReflTransGen (Joins closed spreads next s) v w

variable {closed spreads next visit}

section

variable (marks : Marks closed spreads visit)
include marks

lemma closed_foldl (vs : List V) (s : S) (w : V) :
    closed (vs.foldl visit s) w = (closed s w || decide (w ∈ vs)) := by
  induction vs generalizing s with
  | nil => simp
  | cons v vs ih =>
    rw [foldl_cons, ih, marks.closed_visit, Bool.or_assoc]
    simp

lemma spreads_foldl (vs : List V) (s : S) (w : V) :
    spreads (vs.foldl visit s) w = spreads s w := by
  induction vs generalizing s with
  | nil => rfl
  | cons v vs ih => rw [foldl_cons, ih, marks.spreads_visit]

lemma Reached.of_foldl {vs starts : List V} {s : S} {w : V}
    (h : Reached closed spreads next (vs.foldl visit s) starts w) :
    Reached closed spreads next s starts w := by
  have hopen : ∀ u, closed (vs.foldl visit s) u = false → closed s u = false := by
    intro u hu
    rw [closed_foldl marks, Bool.or_eq_false_iff] at hu
    exact hu.1
  obtain ⟨v, hv, hc, hpath⟩ := h
  refine ⟨v, hv, hopen v hc, Relation.ReflTransGen.mono (fun a b hab => ?_) _ _ hpath⟩
  exact ⟨spreads_foldl marks vs s a ▸ hab.1, hab.2.1, hopen b hab.2.2⟩

end

omit [DecidableEq V] in
lemma Reached.open_ {s : S} {starts : List V} {w : V}
    (h : Reached closed spreads next s starts w) : closed s w = false := by
  obtain ⟨v, -, hc, hpath⟩ := h
  rcases Relation.ReflTransGen.cases_tail hpath with rfl | ⟨_, _, hstep⟩
  · exact hc
  · exact hstep.2.2

omit [DecidableEq V] in
lemma Reached.step {s : S} {starts : List V} {a b : V}
    (h : Reached closed spreads next s starts a) (hab : Joins closed spreads next s a b) :
    Reached closed spreads next s starts b := by
  obtain ⟨v, hv, hc, hpath⟩ := h
  exact ⟨v, hv, hc, hpath.tail hab⟩

lemma reached_cons (marks : Marks closed spreads visit) {s : S} {v : V} {vs starts : List V}
    (hvs : ∀ w, w ∈ vs ↔ Reached closed spreads next s [v] w) (w : V) :
    Reached closed spreads next s (v :: starts) w ↔
      w ∈ vs ∨ Reached closed spreads next (vs.foldl visit s) starts w := by
  have hclosed : ∀ u, u ∉ vs → closed s u = false → closed (vs.foldl visit s) u = false := by
    intro u hu hc
    rw [closed_foldl marks, hc, decide_eq_false hu]
    rfl
  constructor
  · rintro ⟨u, hu, hc, hpath⟩
    induction hpath with
    | refl =>
      by_cases hin : u ∈ vs
      · exact .inl hin
      rcases List.mem_cons.mp hu with rfl | hu
      · exact .inl ((hvs u).mpr ⟨u, mem_singleton_self u, hc, .refl⟩)
      · exact .inr ⟨u, hu, hclosed u hin hc, .refl⟩
    | @tail a b _ hab ih =>
      rcases ih with ha | ha
      · exact .inl ((hvs b).mpr (((hvs a).mp ha).step hab))
      by_cases hin : b ∈ vs
      · exact .inl hin
      · exact .inr (ha.step
          ⟨(spreads_foldl marks vs s a).trans hab.1, hab.2.1, hclosed b hin hab.2.2⟩)
  · rintro (hw | hw)
    · obtain ⟨u, hu, hc, hpath⟩ := (hvs w).mp hw
      exact ⟨u, List.mem_singleton.mp hu ▸ mem_cons_self, hc, hpath⟩
    · obtain ⟨u, hu, hc, hpath⟩ := hw.of_foldl marks
      exact ⟨u, mem_cons_of_mem _ hu, hc, hpath⟩

/-- What is reached from an open vertex is the vertex itself and, once it is visited, what is
reached from its neighbours. -/
lemma reached_visit (marks : Marks closed spreads visit) {s : S} {v : V}
    (hv : closed s v = false) (w : V) :
    Reached closed spreads next s [v] w ↔
      w = v ∨ spreads s v = true ∧ Reached closed spreads next (visit s v) (next v) w := by
  have hclosed : ∀ u, u ≠ v → closed s u = false → closed (visit s v) u = false := by
    intro u hu hc
    rw [marks.closed_visit, hc, decide_eq_false hu]
    rfl
  constructor
  · rintro ⟨u, hu, -, hpath⟩
    obtain rfl := List.mem_singleton.mp hu
    induction hpath with
    | refl => exact .inl rfl
    | @tail a b _ hab ih =>
      by_cases hb : b = u
      · exact .inl hb
      have hopen := hclosed b hb hab.2.2
      rcases ih with rfl | ⟨hspread, ha⟩
      · exact .inr ⟨hab.1, b, hab.2.1, hopen, .refl⟩
      · exact .inr ⟨hspread, ha.step ⟨(marks.spreads_visit s u a).trans hab.1, hab.2.1, hopen⟩⟩
  · rintro (rfl | ⟨hspread, hw⟩)
    · exact ⟨w, mem_singleton_self w, hv, .refl⟩
    have hw' : Reached closed spreads next ([v].foldl visit s) (next v) w := hw
    obtain ⟨u, hu, hc, hpath⟩ := hw'.of_foldl marks
    exact ⟨v, mem_singleton_self v, hv, .head ⟨hspread, hu, hc⟩ hpath⟩

/-- **With calls to nest for every open vertex, a fill visits each vertex it reaches once, and no
other.** -/
theorem fill_spec (marks : Marks closed spreads visit) (U : Finset V) (n : ℕ) {s : S}
    (hU : ∀ v, closed s v = false → v ∈ U)
    (hn : (U.filter fun v => closed s v = false).card < n) (v : V) :
    ∃ vs : List V, fill closed spreads next visit n s v = some (vs.foldl visit s) ∧ vs.Nodup ∧
      ∀ w, w ∈ vs ↔ Reached closed spreads next s [v] w := by
  induction n generalizing s v with
  | zero => omega
  | succ n ih =>
    rw [fill]
    split_ifs with hc hspread
    · refine ⟨[], rfl, nodup_nil, fun w => ⟨fun hw => absurd hw not_mem_nil, ?_⟩⟩
      rintro ⟨u, hu, hopen, -⟩
      rw [List.mem_singleton.mp hu, hc] at hopen
      exact absurd hopen (by simp)
    · -- the neighbours, one after the other
      have hopen : closed s v = false := by simpa using hc
      have hloop : ∀ (starts : List V) {t : S}, (∀ u, closed t u = false → u ∈ U) →
          (U.filter fun u => closed t u = false).card < n →
          ∃ vs : List V, starts.foldlM (fill closed spreads next visit n) t =
              some (vs.foldl visit t) ∧ vs.Nodup ∧
            ∀ w, w ∈ vs ↔ Reached closed spreads next t starts w := by
        intro starts
        induction starts with
        | nil =>
          intro t _ _
          refine ⟨[], rfl, nodup_nil, fun w => ⟨fun hw => absurd hw not_mem_nil, ?_⟩⟩
          rintro ⟨u, hu, -⟩
          exact absurd hu not_mem_nil
        | cons u starts ihs =>
          intro t hUt hnt
          obtain ⟨vs, hfill, hnodup, hvs⟩ := ih hUt hnt u
          have hsub : ∀ x, closed (vs.foldl visit t) x = false → closed t x = false := by
            intro x hx
            rw [closed_foldl marks, Bool.or_eq_false_iff] at hx
            exact hx.1
          obtain ⟨vs', hloop, hnodup', hvs'⟩ := ihs (t := vs.foldl visit t)
            (fun x hx => hUt x (hsub x hx))
            (lt_of_le_of_lt (Finset.card_le_card fun x hx => by
              rw [Finset.mem_filter] at hx ⊢
              exact ⟨hx.1, hsub x hx.2⟩) hnt)
          refine ⟨vs ++ vs', ?_, ?_, fun w => ?_⟩
          · rw [foldlM_cons, hfill, Option.bind_eq_bind, Option.bind_some, hloop, foldl_append]
          · refine List.nodup_append.mpr ⟨hnodup, hnodup', fun x hx y hy heq => ?_⟩
            have hclosed := ((hvs' y).mp hy).open_
            rw [closed_foldl marks, ← heq, decide_eq_true hx, Bool.or_true] at hclosed
            exact absurd hclosed (by simp)
          · rw [mem_append, reached_cons marks hvs, hvs']
      have hsub : ∀ x, closed (visit s v) x = false → closed s x = false ∧ x ≠ v := by
        intro x hx
        rw [marks.closed_visit, Bool.or_eq_false_iff, decide_eq_false_iff_not] at hx
        exact hx
      obtain ⟨vs, hfill, hnodup, hvs⟩ := hloop (next v) (t := visit s v)
        (fun x hx => hU x (hsub x hx).1)
        (by
          have : (U.filter fun u => closed (visit s v) u = false).card <
              (U.filter fun u => closed s u = false).card := by
            refine Finset.card_lt_card ⟨fun x hx => ?_, fun hsup => ?_⟩
            · rw [Finset.mem_filter] at hx ⊢
              exact ⟨hx.1, (hsub x hx.2).1⟩
            · have := hsup (Finset.mem_filter.mpr ⟨hU v hopen, hopen⟩)
              exact (hsub v (Finset.mem_filter.mp this).2).2 rfl
          omega)
      refine ⟨v :: vs, hfill, List.nodup_cons.mpr ⟨fun hv => ?_, hnodup⟩, fun w => ?_⟩
      · exact (hsub v ((hvs v).mp hv).open_).2 rfl
      · rw [mem_cons, hvs, reached_visit marks hopen, ← marks.spreads_visit s v v, hspread]
        simp
    · have hopen : closed s v = false := by simpa using hc
      refine ⟨[v], rfl, nodup_singleton v, fun w => ?_⟩
      rw [mem_singleton, reached_visit marks hopen, ← marks.spreads_visit s v v]
      simp [hspread]

end C1auncher.Floods
