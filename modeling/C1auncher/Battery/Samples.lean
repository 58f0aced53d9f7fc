import C1auncher.CString

/-!
The history of the battery: one real reading a minute, for the latest 1440 minutes.
-/

namespace C1auncher.Battery.Samples

/-- `C1_BATTERY_HISTORY_POINTS` -/
def historyPoints : ℕ := 1440

/-- `C1_BATTERY_MIN_TIME` -/
def minTime : ℤ := 1704067200

/-- `C1_BATTERY_MAX_TIME` -/
def maxTime : ℤ := 4102444800

/-- `C1_BATTERY_PLUGGED`, the last of the states of the power. -/
def plugged : ℕ := 2

/-- `c1_battery_sample` -/
structure Sample where
  timestamp : ℤ
  percent : ℕ
  power : ℕ
  connected : Bool
  deriving DecidableEq

/-- `c1_battery_history`, with the samples that `count` says there are. -/
structure History where
  samples : List Sample
  lastWall : ℤ
  lastMonotonic : ℤ
  continuous : Bool
  deriving DecidableEq

/-- `c1_battery_history_init` -/
def init : History := ⟨[], 0, 0, false⟩

/-! ### `valid_history` -/

def validSample (previous : Option Sample) (p : Sample) : Bool :=
  ¬(p.timestamp < minTime ∨ p.timestamp ≥ maxTime ∨ p.percent > 100 ∨ p.power > plugged ∨
    (previous.isNone ∧ p.connected) ∨
    (previous.any fun q => p.timestamp / 60 ≤ q.timestamp / 60) ∨
    (p.connected ∧ previous.any fun q => p.timestamp / 60 ≠ q.timestamp / 60 + 1))

def validSamples : Option Sample → List Sample → Bool
  | _, [] => true
  | previous, p :: samples => validSample previous p && validSamples (some p) samples

/-- `valid_history` -/
def validHistory (h : History) : Bool :=
  h.samples.length ≤ historyPoints && validSamples none h.samples &&
    match h.samples.head?, h.samples.getLast? with
    | some first, some last => last.timestamp / 60 - first.timestamp / 60 < historyPoints
    | _, _ => true

/-! ### `c1_battery_history_observe` -/

/-- What is given to one call. -/
structure Observation where
  wall : ℤ
  mono : ℤ
  available : Bool
  percent : ℕ
  power : ℕ
  deriving DecidableEq

namespace Observation

variable (o : Observation)

/-- The clocks are set. -/
def inRange : Bool := ¬(o.wall < minTime ∨ o.wall ≥ maxTime ∨ o.mono < 0)

/-- There is a reading. -/
def usable : Bool := ¬(¬o.available ∨ o.percent > 100 ∨ o.power > plugged)

def minute : ℤ := o.wall / 60

end Observation

/-- Clock rollback invalidates the chronological view. -/
def rolledBack (h : History) (o : Observation) : Bool :=
  (h.lastWall ≠ 0 ∧ o.wall < h.lastWall) ∨ h.samples.getLast?.any fun p => o.wall < p.timestamp

/-- Whether the clocks say that nothing was missed since the last observation. -/
def steady (lastWall lastMonotonic : ℤ) (o : Observation) : Bool :=
  let dt := o.wall - lastWall
  let dm := o.mono - lastMonotonic
  ¬(dt > 30 ∨ dm < 0 ∨ dm > 30000 ∨ |dt * 1000 - dm| > 5000)

def disconnectFirst : List Sample → List Sample
  | [] => []
  | p :: samples => { p with connected := false } :: samples

/-- The samples that are left of the latest minutes, and whether some are not. -/
def evict (samples : List Sample) (wall : ℤ) : List Sample × Bool :=
  let oldest := (wall / 60 - (historyPoints - 1)) * 60
  let kept := samples.dropWhile fun p => p.timestamp < oldest
  if kept.length < samples.length then (disconnectFirst kept, true) else (samples, false)

/-- What is left to do once the clocks are accepted. -/
def record (h : History) (o : Observation) (changed : Bool) : Bool × History :=
  if !o.usable then (changed, { h with continuous := false })
  else if h.samples.getLast?.any fun p => p.timestamp / 60 = o.wall / 60 then (changed, h)
  else
    let connected := h.continuous &&
      h.samples.getLast?.any fun p => p.timestamp / 60 + 1 = o.wall / 60
    (true, { h with
      samples := h.samples ++ [⟨o.wall, o.percent, o.power, connected⟩]
      continuous := true })

/-- `c1_battery_history_observe` -/
def observe (h : History) (o : Observation) : Bool × History :=
  if !validHistory h then (false, h)
  else if !o.inRange then (false, { h with continuous := false, lastWall := 0 })
  else
    let rollback := rolledBack h o
    let cleared := rollback && h.samples ≠ []
    let h := if rollback then init else h
    let continuous := h.continuous && h.lastWall ≠ 0 && steady h.lastWall h.lastMonotonic o
    let (samples, evicted) := evict h.samples o.wall
    record ⟨samples, o.wall, o.mono, continuous⟩ o (cleared || evicted)

/-- The history after some calls, the first of which finds it empty. -/
def after (calls : List Observation) : History :=
  calls.foldl (fun h o => (observe h o).2) init

end C1auncher.Battery.Samples
