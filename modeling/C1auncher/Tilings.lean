import Mathlib

/-!
Pieces that follow one another without a gap along a linear order.
-/

namespace C1auncher.Tilings

variable {α β : Type*} [LinearOrder α] {start stop : β → α} {lo hi x y : α} {pieces : List β}

/-- Pieces from one point to another, each beginning where the one before it stops. -/
def Tiles (start stop : β → α) : α → List β → α → Prop
  | lo, [], hi => lo = hi
  | lo, p :: ps, hi => start p = lo ∧ lo ≤ stop p ∧ Tiles start stop (stop p) ps hi

def Holds (start stop : β → α) (x : α) (p : β) : Prop := start p ≤ x ∧ x < stop p

lemma Tiles.le (h : Tiles start stop lo pieces hi) : lo ≤ hi := by
  induction pieces generalizing lo with
  | nil => exact h.le
  | cons p ps ih => exact h.2.1.trans (ih h.2.2)

lemma tiles_append {more : List β} : Tiles start stop lo (pieces ++ more) hi ↔
    ∃ mid, Tiles start stop lo pieces mid ∧ Tiles start stop mid more hi := by
  induction pieces generalizing lo with
  | nil => simp [Tiles]
  | cons p ps ih =>
    constructor
    · rintro ⟨hstart, hle, hrest⟩
      obtain ⟨mid, hps, hmore⟩ := ih.mp hrest
      exact ⟨mid, ⟨hstart, hle, hps⟩, hmore⟩
    · rintro ⟨mid, ⟨hstart, hle, hps⟩, hmore⟩
      exact ⟨hstart, hle, ih.mpr ⟨mid, hps, hmore⟩⟩

lemma Tiles.bounds (h : Tiles start stop lo pieces hi) {p : β} (hp : p ∈ pieces) :
    lo ≤ start p ∧ start p ≤ stop p ∧ stop p ≤ hi := by
  induction pieces generalizing lo with
  | nil => cases hp
  | cons q qs ih =>
    obtain ⟨hstart, hle, hrest⟩ := h
    rcases List.mem_cons.mp hp with rfl | hp
    · exact ⟨hstart.ge, hstart.le.trans hle, hrest.le⟩
    · obtain ⟨h₁, h₂, h₃⟩ := ih hrest hp
      exact ⟨hle.trans h₁, h₂, h₃⟩

/-- **A piece stops before any later one starts.** -/
theorem Tiles.stop_le_start (h : Tiles start stop lo pieces hi) {i j : ℕ} (hij : i < j)
    (hj : j < pieces.length) :
    stop (pieces.get ⟨i, Nat.lt_trans hij hj⟩) ≤ start (pieces.get ⟨j, hj⟩) := by
  induction pieces generalizing lo i j with
  | nil => simp at hj
  | cons p ps ih =>
    obtain ⟨_, _, hrest⟩ := h
    rcases j with _ | j
    · cases hij
    rcases i with _ | i
    · exact (hrest.bounds (List.getElem_mem (by simpa using hj))).1
    · exact ih hrest (Nat.lt_of_succ_lt_succ hij) (by simpa using hj)

/-- **Every point between the two ends lies in a piece.** -/
theorem Tiles.exists_holds (h : Tiles start stop lo pieces hi) (hlo : lo ≤ x) (hhi : x < hi) :
    ∃ p ∈ pieces, Holds start stop x p := by
  induction pieces generalizing lo with
  | nil => exact absurd (hlo.trans_lt hhi) (not_lt_of_ge h.ge)
  | cons p ps ih =>
    obtain ⟨hstart, hle, hrest⟩ := h
    rcases lt_or_ge x (stop p) with hx | hx
    · exact ⟨p, List.mem_cons_self, hstart.le.trans hlo, hx⟩
    · obtain ⟨q, hq, hholds⟩ := ih hrest hx
      exact ⟨q, List.mem_cons_of_mem _ hq, hholds⟩

/-- **Later points lie in later pieces.** -/
theorem Tiles.index_mono (h : Tiles start stop lo pieces hi) {i j : ℕ} (hi' : i < pieces.length)
    (hj : j < pieces.length) (hx : Holds start stop x pieces[i]) (hy : Holds start stop y pieces[j])
    (hxy : x ≤ y) : i ≤ j := by
  by_contra hlt
  have hstop := h.stop_le_start (Nat.lt_of_not_le hlt) hi'
  exact absurd (hy.2.trans_le (hstop.trans (hx.1.trans hxy))) (lt_irrefl y)

end C1auncher.Tilings
