import AgentOrch.Construction.Kanban.Commands

/-!
# The projection of the quota reader

`observation.py` over the columns of `cli_quota_observation`.  An accepted attempt is an upsert that
keeps, column by column, what the attempt leaves null.  The reader does not trust the row: it builds
one attempt from it, and a second one for the good observation, and has both validated again.
-/

namespace AgentOrch

open Py Json

namespace Kanban

/-! ## The table -/

/-- The columns of `cli_quota_observation`. -/
structure ObservationRow where
  source : Text
  attemptedAtMs : ℤ
  outcome : Text
  error : Option Text
  observedAtMs : Option ℤ
  remainingPercent : Option ℤ
  resetAtMs : Option ℤ
  deriving DecidableEq

/-- `a AND b` in SQL, where `none` is NULL. -/
def sqlAnd : Option Bool → Option Bool → Option Bool
  | some true, b => b
  | some false, _ => some false
  | none, some false => some false
  | none, _ => none

/-- `a OR b` -/
def sqlOr : Option Bool → Option Bool → Option Bool
  | some false, b => b
  | some true, _ => some true
  | none, some true => some true
  | none, _ => none

/-- `a <= b` -/
def sqlLe (a b : Option ℤ) : Option Bool :=
  match a, b with
  | some a, some b => some (decide (a ≤ b))
  | _, _ => none

/-- `a < b` -/
def sqlLt (a b : Option ℤ) : Option Bool :=
  match a, b with
  | some a, some b => some (decide (a < b))
  | _, _ => none

namespace ObservationRow

variable (r : ObservationRow)

/-- The columns of the observation are null together, or describe one window of a week. -/
def windowCheck : Option Bool :=
  sqlOr
    (some (r.observedAtMs.isNone && r.remainingPercent.isNone && r.resetAtMs.isNone))
    (sqlAnd (some (r.observedAtMs.isSome && r.remainingPercent.isSome && r.resetAtMs.isSome))
      (sqlAnd (sqlLt (some 0) r.observedAtMs)
        (sqlAnd (sqlLe r.observedAtMs (some r.attemptedAtMs))
          (sqlAnd (sqlLt r.observedAtMs r.resetAtMs)
            (sqlLe r.resetAtMs (r.observedAtMs.map (· + 604800000)))))))

/-- The CHECK constraints, in the order of the schema. -/
def checks : List (Option Bool) :=
  [some (decide (r.source = ("codex-cli" : Text))),
    some (decide (0 < r.attemptedAtMs)),
    some (decide (r.outcome ∈ (["ok", "failed"] : List Text))),
    r.error.map fun e => decide (e ∈ attemptErrors),
    sqlAnd (sqlLe (some 0) r.remainingPercent) (sqlLe r.remainingPercent (some 100)),
    sqlOr (some (decide (r.outcome ≠ ("ok" : Text)))) (some r.observedAtMs.isSome),
    sqlOr (some (decide (r.outcome = ("ok" : Text)) && r.error.isNone))
      (some (decide (r.outcome = ("failed" : Text)) && r.error.isSome)),
    r.windowCheck,
    some (decide (r.attemptedAtMs ≤ 253402300799999))]

/-- A constraint fails where it is false, and not where it is NULL. -/
def passesChecks : Bool := r.checks.all fun check => decide (check ≠ some false)

end ObservationRow

/-! ## The upsert -/

/-- The values an attempt inserts. -/
def excludedRow (payload : List (Text × Value)) : Option ObservationRow := do
  let attempted ← integer? (getValue "attempted_at_ms" payload)
  let outcome ← textThat (fun _ => true) (getValue "outcome" payload)
  let error ← nullableThat (fun _ => true) (getValue "error" payload)
  let column (key : Text) : Option ℤ :=
    if outcome = ("ok" : Text) then integer? (getValue key payload) else none
  return {
    source := "codex-cli"
    attemptedAtMs := attempted
    outcome := outcome
    error := error
    observedAtMs := column "observed_at_ms"
    remainingPercent := column "remaining_percent"
    resetAtMs := column "reset_at_ms" }

/-- `INSERT … ON CONFLICT(source) DO UPDATE`, with a COALESCE in each column of the observation. -/
def upsert (row : Option ObservationRow) (excluded : ObservationRow) : ObservationRow :=
  match row with
  | none => excluded
  | some row => {
      source := row.source
      attemptedAtMs := excluded.attemptedAtMs
      outcome := excluded.outcome
      error := excluded.error
      observedAtMs := excluded.observedAtMs.or row.observedAtMs
      remainingPercent := excluded.remainingPercent.or row.remainingPercent
      resetAtMs := excluded.resetAtMs.or row.resetAtMs }

/-- `stale`: no later than the last attempt, or no newer than the last observation. -/
def staleColumns (row excluded : ObservationRow) : Bool :=
  decide (excluded.attemptedAtMs ≤ row.attemptedAtMs) ||
    (decide (excluded.outcome = ("ok" : Text)) && row.observedAtMs.isSome &&
      decide (sqlLe excluded.observedAtMs row.observedAtMs = some true))

/-! ## The reader -/

structure ProjectedObservation where
  observedAtMs : Value
  remainingPercent : Value
  windowMinutes : ℤ
  resetAtMs : Value

structure ProjectedAttempt where
  schemaVersion : ℤ
  checkedAtMs : ℤ
  outcome : Text
  error : Option Text

structure Projection where
  available : Bool
  observation : Option ProjectedObservation
  attempt : Option ProjectedAttempt

def Projection.unavailable : Projection := ⟨false, none, none⟩

/-- A column as the driver returns it. -/
def columnValue (n : Option ℤ) : Value := n.elim .null .int

/-- `{k: data[k] for k in SUCCESS}` -/
def successItems (r : ObservationRow) : List (Text × Value) :=
  [("observed_at_ms", columnValue r.observedAtMs),
    ("remaining_percent", columnValue r.remainingPercent),
    ("reset_at_ms", columnValue r.resetAtMs)]

/-- `d.update(other)` -/
def dictUpdate (items other : List (Text × Value)) : List (Text × Value) :=
  other.foldl (fun d p => dictSet p.1 p.2 d) items

/-- The attempt a row stands for. -/
def attemptItems (r : ObservationRow) : List (Text × Value) :=
  let base : List (Text × Value) :=
    [("actor", .str "quota-updater"), ("source", .str r.source),
      ("attempted_at_ms", .int r.attemptedAtMs), ("outcome", .str r.outcome),
      ("error", r.error.elim .null .str)]
  if r.outcome = ("ok" : Text) then dictUpdate base (successItems r) else base

/-- The attempt its observation stands for. -/
def checkItems (r : ObservationRow) : List (Text × Value) :=
  dictUpdate (dictUpdate (attemptItems r) [(("outcome" : Text), .str "ok"), ("error", .null)])
    (successItems r)

/-- `read_projection`, where the schema is the one `ensure_schema` creates. -/
def readProjection : Option ObservationRow → Projection
  | none => ⟨true, none, none⟩
  | some r =>
    if (validateAttempt (attemptItems r)).isNone then .unavailable
    else
      let status : ProjectedAttempt := ⟨1, r.attemptedAtMs, r.outcome, r.error⟩
      if r.observedAtMs.isNone then ⟨true, none, some status⟩
      else if (validateAttempt (checkItems r)).isNone then .unavailable
      else ⟨true, some ⟨columnValue r.observedAtMs, columnValue r.remainingPercent, 10080,
        columnValue r.resetAtMs⟩, some status⟩

/-! ## The columns of a row -/

/-- The columns the row of an attempt is stored in. -/
def QuotaObservation.columns (row : QuotaObservation) : ObservationRow where
  source := "codex-cli"
  attemptedAtMs := row.attemptedAtMs
  outcome := if row.error.isSome then "failed" else "ok"
  error := row.error
  observedAtMs := row.reading.map QuotaReading.observedAtMs
  remainingPercent := row.reading.map QuotaReading.remainingPercent
  resetAtMs := row.reading.map QuotaReading.resetAtMs

/-- The row of the table. -/
def Db.observationRow (db : Db) : Option ObservationRow :=
  db.observation.map QuotaObservation.columns

end Kanban

end AgentOrch
