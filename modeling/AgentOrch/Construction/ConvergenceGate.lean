import AgentOrch.Construction.Controller
import AgentOrch.Construction.Convergence

/-!
# The convergence gate

A branching run of an envelope task is scored against the task's own sealed history.
`convergenceContext` reads that history through its seals and selects the baseline: the last
readable branching run with a committed correction run after it.  `applyConvergence` turns
everything that cannot be scored as an improvement into the reserved hold outcome.
-/

namespace AgentOrch

open Py Json

/-- `CONVERGENCE_UNESTABLISHED_REASONS`. -/
def convergenceUnestablishedReasons : List Text :=
  ["convergence_record_invalid", "convergence_unverifiable"]

/-- `reason.startswith(CONVERGENCE_UNESTABLISHED_REASONS)`. -/
def isUnestablished (reason : Text) : Bool :=
  convergenceUnestablishedReasons.any fun p => p.isPrefixOf reason

/-- A committed run of the history: the stage its transition names, and its row. -/
structure HistoryRun where
  stage : Text
  run : StageRun

namespace TaskStore

/-- `_committed_run_history`: the transitions joined with the committed runs they name, in the
order of their sequence numbers. -/
def committedRunHistory (s : TaskStore) : List HistoryRun :=
  s.transitions.filterMap fun t =>
    match t.runToken.bind s.findRun with
    | some run => if run.status = .committed then some ⟨t.stage.getD [], run⟩ else none
    | none => none

/-- The runs of the history whose stage has the given arity, with their positions. -/
def runsOfArity (s : TaskStore) (a : Arity) : List (ℕ × StageRun) :=
  (s.committedRunHistory.zipIdx.filter fun h => s.profile.stageArity h.1.stage = a).map fun h =>
    (h.2, h.1.run)

/-- What `_sealed_convergence_records` catches around the sealed read. -/
def unreadable : Exc → Bool
  | .controllerError _ | .osError _ => true
  | e => e.isValueError

/-- `_sealed_convergence_records`: the readable records by position, and the first hard
failure.  A run held because its record was never established is skipped. -/
def sealedConvergenceRecords (rt : Runtime) (s : TaskStore) :
    List (ℕ × StageRun) → Except Exc (List (ℕ × ConvergenceRecord) × Option Text)
  | [] => .ok ([], none)
  | (index, run) :: rest =>
    match s.readSealedRun run with
    | .error e =>
      if unreadable e then .ok ([], some ("prior convergence record unreadable: " ++ e.message))
      else .error e
    | .ok sealed_ =>
      match extractConvergence rt sealed_.finalResponse none with
      | .ok record => do
        let (records, error) ← sealedConvergenceRecords rt s rest
        return ((index, record) :: records, error)
      | .error (.convergenceError m) =>
        if isUnestablished sealed_.manifest.reason then sealedConvergenceRecords rt s rest
        else .ok ([], some ("prior convergence record unreadable: " ++ m))
      | .error e => .error e

end TaskStore

/-- What a branching run is scored against. -/
structure ConvergenceContext where
  isRepeat : Bool
  priorLive : List Text
  historicalResolved : List Text
  priorIndex : Option ℕ
  error : Option Text
  deriving DecidableEq

namespace ConvergenceContext

/-- The context before any baseline is found. -/
def first (error : Option Text) : ConvergenceContext := ⟨false, [], [], none, error⟩

/-- The baseline among the usable records: the last one with a correction after it. -/
def select (records : List (ℕ × ConvergenceRecord)) (corrections : List ℕ) :
    Option (ℕ × ConvergenceRecord) :=
  (records.filter fun r => corrections.any (r.1 < ·)).getLast?

/-- The context once the records are read. -/
def ofRecords (records : List (ℕ × ConvergenceRecord)) (corrections : List ℕ)
    (error : Option Text) : ConvergenceContext :=
  match select records corrections, error with
  | some (index, prior), none =>
    ⟨true, prior.live, records.flatMap fun r => r.2.resolved, some index, none⟩
  | _, error => first error

end ConvergenceContext

/-- `_convergence_context`, for a branching stage. -/
def TaskStore.convergenceContext (rt : Runtime) (s : TaskStore) (stage : Text) :
    Except Exc (Option ConvergenceContext) :=
  if s.profile.stageArity stage ≠ .branching then .ok none
  else do
    let (records, error) ← s.sealedConvergenceRecords rt (s.runsOfArity .branching)
    return some (.ofRecords records ((s.runsOfArity .correction).map Prod.fst) error)

/-- `hold(reason)`. -/
def RunResult.hold (result : RunResult) (reason : Text) : RunResult :=
  { result with outcome := some holdOutcome, classification := .success, reason := reason }

/-- The scoring of a repeat run's record. -/
def scoreRepeat (rt : Runtime) (result : RunResult) (context : ConvergenceContext)
    (record : ConvergenceRecord) : Except Exc RunResult :=
  match validateConvergence rt record context.priorLive context.historicalResolved with
  | .error (.convergenceError m) => .ok (result.hold ("convergence_contradictory: " ++ m))
  | .error e => .error e
  | .ok verdict =>
    if result.outcome = some holdOutcome then .ok result
    else if verdict ≠ .improved then .ok (result.hold ("convergence_" ++ verdict.text))
    else .ok result

/-- `_apply_convergence`. -/
def applyConvergence (rt : Runtime) (result : RunResult) (context : ConvergenceContext) :
    Except Exc RunResult :=
  if result.classification ≠ .success then .ok result
  else match context.error with
    | some e => .ok (result.hold ("convergence_unverifiable: " ++ e))
    | none =>
      match extractConvergence rt result.authoritativeText (some context.isRepeat) with
      | .error (.convergenceError m) => .ok (result.hold ("convergence_record_invalid: " ++ m))
      | .error e => .error e
      | .ok record => if context.isRepeat then scoreRepeat rt result context record else .ok result

end AgentOrch
