import AgentOrch.Construction.Seal

/-!
# The transactions of the controller

Each operation of the controller is one transaction over the rows of one task: it returns the
new rows, or raises and leaves the old ones.  The identities and the time an operation draws
come in as a `Stamp`; the keys other tasks hold come in as `Taken`.

The `UPDATE tasks ... WHERE revision=?` of every operation compares with the row read in the same
transaction, so only its lease comparison can fail.
-/

namespace AgentOrch

open Py Json

/-- What one transaction draws: fresh identities and the clock. -/
structure Stamp where
  operationId : Text
  runToken : Text
  leaseToken : Text
  now : ℤ

/-! ## Submission -/

/-- A submission whose profile has loaded and whose input has been read. -/
structure Submission where
  taskType : Text
  frozen : FrozenProfile
  input : Bytes
  operationId : Text

/-- The rows `submit` inserts, before the first transition. -/
def newTask (sub : Submission) : TaskStore where
  task :=
    { type := sub.taskType
      status := .queued
      stopReason := none
      currentStage := sub.frozen.profile.initialStage
      owner := (dictGet sub.frozen.profile.initialStage sub.frozen.profile.stages).bind Stage.owner
      revision := 0
      transitionsCount := 0
      maxTransitions := sub.frozen.profile.maxTransitions
      resumeAllowance := false
      leaseToken := none }
  stageRuns := []
  transitions := []
  edgeCounts := sub.frozen.profile.edgeCaps.map fun e => ⟨e.1, 0, e.2⟩
  frozen := sub.frozen
  input := sub.input
  damaged := []

/-- The transaction of `submit`. -/
def submitTask (others : Taken) (sub : Submission) : Except Exc TaskStore := do
  require (sub.frozen.profile.type = sub.taskType) (.controllerError
    ("--type " ++ sub.taskType ++ " does not match profile type " ++ sub.frozen.profile.type))
  bindInt (some (sub.frozen.profile.maxTransitions : ℤ))
  require (sub.frozen.profile.edgeCaps.all fun e => fitsInt64 e.2) .overflowError
  (newTask sub).insertTransition others sub.operationId none none none none none none .queued
    "submitted"

namespace TaskStore

/-! ## Claiming a stage -/

/-- `_stop_for_cap`. -/
def stopForCap (s : TaskStore) (others : Taken) (stamp : Stamp) (reason : Text) :
    Except Exc TaskStore := do
  let s' ← s.insertTransition others stamp.operationId none s.task.currentStage s.task.owner none
    none (some .queued) .waitingUser reason
  return { s' with task := { s.task with
    status := .waitingUser
    stopReason := some reason
    leaseToken := none
    revision := s.task.revision + 1 } }

/-- What `claim_stage` did: it stopped the task at a cap, or claimed a run. -/
inductive Claim
  | stopped (s : TaskStore)
  | claimed (s : TaskStore)

def Claim.store : Claim → TaskStore
  | stopped s => s
  | claimed s => s

/-- For an envelope task whose profile can score its own loops the caps only observe. -/
def uncapped (s : TaskStore) (envelope : Option Envelope) : Bool :=
  envelope.isSome && s.profile.gateReachable

/-- The run `claim_stage` inserts. -/
def claimedRun (s : TaskStore) (stamp : Stamp) (stage : Stage) (model : Option Text) : StageRun where
  runToken := stamp.runToken
  stage := stage.name
  cycle := (s.nextAttempt stage.name).1
  attempt := (s.nextAttempt stage.name).2
  owner := stage.owner
  status := .running
  leaseToken := some stamp.leaseToken
  exitCode := none
  outcome := none
  manifest := none
  model := model
  durationMs := none
  usage := .empty
  startedAt := stamp.now
  endedAt := none

/-- `claim_stage`. -/
def claimStage (rt : Runtime) (s : TaskStore) (others : Taken) (stamp : Stamp)
    (model : Option Text) : Except Exc Claim := do
  require (s.task.status = .queued) (.controllerError "task is not queued")
  let stage ← s.profile.stage s.task.currentStage
  require stage.terminal.isNone
    (.controllerError ("queued task points at terminal stage " ++ stage.name))
  let envelope ← s.envelopeForTask rt
  if s.task.maxTransitions ≤ s.task.transitionsCount ∧ s.task.resumeAllowance = false ∧
      s.uncapped envelope = false then
    let s' ← s.stopForCap others stamp "transition_cap"
    return .stopped s'
  else if stage.attemptCap.any (· < (s.nextAttempt stage.name).2) ∧
      s.task.resumeAllowance = false then
    let s' ← s.stopForCap others stamp "attempt_cap"
    return .stopped s'
  else
    let s' ← s.insertRun others (s.claimedRun stamp stage model)
    return .claimed { s' with task := { s.task with
      status := .running
      owner := stage.owner
      resumeAllowance := false
      leaseToken := some stamp.leaseToken
      revision := s.task.revision + 1 } }

/-! ## Committing a run -/

/-- `_usage_unavailable_reason`. -/
def storedUsage (usage : Usage) : Usage :=
  { usage with
    unavailableReason :=
      if usage.anyReported then none
      else if (usage.unavailableReason.getD []).isEmpty then
        some ("runner_usage_unavailable" : Text)
      else usage.unavailableReason }

/-- Binding the parameters of the `UPDATE stage_runs` of a commit. -/
def bindRun (result : RunResult) (outcome : Option Text) : Except Exc Unit := do
  bindInt result.exitCode
  bindText outcome
  bindInt result.durationMs
  bindText result.model
  bindInt result.usage.inputTokens
  bindInt result.usage.outputTokens
  bindInt result.usage.totalTokens

/-- The row of a committed run. -/
def settledRun (result : RunResult) (manifest : Manifest) (status : RunStatus)
    (outcome : Option Text) (now : ℤ) (run : StageRun) : StageRun :=
  { run with
    status := status
    exitCode := result.exitCode
    outcome := outcome
    manifest := some manifest
    model := some ((result.model.or run.model).getD "unspecified")
    durationMs := some (result.durationMs.getD (max 0 (now - run.startedAt)))
    usage := storedUsage result.usage
    endedAt := some now }

/-- A commit that keeps the stage: the run is settled, the task parked. -/
def parkRun (s : TaskStore) (others : Taken) (stamp : Stamp) (run : StageRun) (stage : Stage)
    (result : RunResult) (manifest : Manifest) (runStatus : RunStatus) (status : Status)
    (outcome : Option Text) (reason : Text) : Except Exc TaskStore := do
  bindRun result outcome
  let s' ← (s.updateRun run.runToken
    (settledRun result manifest runStatus outcome stamp.now)).insertTransition others
      stamp.operationId run.runToken stage.name stage.owner none outcome (some .running) status reason
  require s.task.leaseToken.isSome (.controllerError "commit_run CAS conflict")
  return { s' with task := { s.task with
    status := status
    stopReason := some reason
    leaseToken := none
    revision := s.task.revision + 1 } }

/-- The status and the stop reason after an outcome that names an edge. -/
def edgeStatus (edgeCapHit : Bool) (outcome : Text) (target : Stage) : Status × Option Text :=
  if edgeCapHit then (.waitingUser, some "edge_cap")
  else if outcome = holdOutcome then (.waitingUser, some holdStopReason)
  else ((target.terminal.map Terminal.status).getD .queued, none)

/-- A commit along an edge of the profile. -/
def followEdge (s : TaskStore) (others : Taken) (stamp : Stamp) (run : StageRun) (stage : Stage)
    (result : RunResult) (manifest : Manifest) (outcome : Text) (envelopePresent : Bool) :
    Except Exc TaskStore :=
  match dictGet outcome stage.outcomes with
  | none => .error (.keyError outcome)
  | some targetName => do
    let target ← s.profile.stage targetName
    let edge := Profile.edgeId stage.name outcome
    match s.edgeRow edge with
    | none => throw (.controllerError ("missing seeded edge counter: " ++ edge))
    | some row =>
      let edgeCapHit := row.cap ≤ row.count && !(envelopePresent && s.profile.gateReachable)
      let (status, stopReason) := edgeStatus edgeCapHit outcome target
      bindRun result outcome
      let bumped := if edgeCapHit then s else s.bumpEdge edge
      let s' ← (bumped.updateRun run.runToken
        (settledRun result manifest .committed outcome stamp.now)).insertTransition others
          stamp.operationId run.runToken stage.name stage.owner edge outcome (some .running) status
          (stopReason.getD "stage_completed")
      require s.task.leaseToken.isSome (.controllerError "commit_run CAS conflict")
      return { s' with task := { s.task with
        status := status
        stopReason := stopReason
        currentStage := targetName
        owner := if target.terminal.isSome then none else target.owner
        leaseToken := none
        transitionsCount := s.task.transitionsCount + 1
        revision := s.task.revision + 1 } }

/-- The statuses of a run and its task for a classification that is no success; the column
check refuses a raw result. -/
def parkedAs : Classification → Option (RunStatus × Status)
  | .blocked => some (.blocked, .blocked)
  | .paused => some (.paused, .paused)
  | .waitingUser => some (.committed, .waitingUser)
  | _ => none

/-- `commit_run`. -/
def commitRun (rt : Runtime) (s : TaskStore) (others : Taken) (stamp : Stamp) (token : Text)
    (result : RunResult) : Except Exc TaskStore :=
  match s.findRun token with
  | none => .error (.controllerError "run/task state conflict")
  | some run => do
    require (run.status = .running && s.task.status = .running)
      (.controllerError "run/task state conflict")
    require (run.leaseToken = s.task.leaseToken) (.controllerError "run/task lease conflict")
    let stage ← s.profile.stage run.stage
    let manifest ← sealRunManifest rt result
    if result.classification = .success then
      match result.outcome with
      | none => throw (.typeError "AssertionError")
      | some outcome =>
        let envelope ← s.envelopeForTask rt
        if outcome = holdOutcome ∧ envelope.isSome then
          s.parkRun others stamp run stage result manifest .committed .waitingUser (some outcome)
            holdStopReason
        else s.followEdge others stamp run stage result manifest outcome envelope.isSome
    else
      match parkedAs result.classification with
      | none => throw .integrityError
      | some (runStatus, status) =>
        s.parkRun others stamp run stage result manifest runStatus status result.outcome
          result.reason

/-! ## Resuming -/

/-- The last transition that stopped at an edge cap. -/
def cappedTransition (s : TaskStore) : Option Transition :=
  (s.transitions.filter fun t => t.reason = ("edge_cap" : Text)).getLast?

/-- The edge a resume grants: the capped one, when an edge cap stopped the task. -/
def resumedEdge (s : TaskStore) : Except Exc (Option (Text × Option Text)) :=
  if s.task.status = .waitingUser ∧ s.task.stopReason = some ("edge_cap" : Text) then
    match s.cappedTransition.bind fun t => t.edge.map fun e => (e, t.outcome) with
    | some granted => .ok (some granted)
    | none => .error (.controllerError "edge_cap task is missing its capped transition")
  else .ok none

/-- The transaction of `resume`. -/
def resumeTask (s : TaskStore) (others : Taken) (operationId : Text) (rerunStage : Bool) :
    Except Exc TaskStore := do
  require (s.task.status ∈ [Status.waitingUser, .paused, .blocked])
    (.controllerError "task cannot resume; expected waiting_user, paused, or blocked")
  require (!(s.task.stopReason.any
      (· ∈ (["workspace_escape", "protected_root_drift"] : List Text))) || rerunStage)
    (.controllerError "containment_review_required")
  let granted ← s.resumedEdge
  let bumped := granted.elim s fun g => s.bumpEdge g.1
  let s' ← bumped.insertTransition others operationId none s.task.currentStage s.task.owner
    (granted.map Prod.fst) (granted.bind Prod.snd) (some s.task.status) .queued
    (if rerunStage then "manual_rerun_stage" else "manual_resume")
  return { s' with task := { s.task with
    status := .queued
    stopReason := none
    leaseToken := none
    resumeAllowance := s.task.status = .waitingUser
    revision := s.task.revision + 1 } }

/-! ## Stops outside a commit -/

/-- `_block_orphaned_running`. -/
def blockOrphanedRunning (s : TaskStore) (others : Taken) (stamp : Stamp) :
    Except Exc TaskStore := do
  let run := s.stageRuns.find? fun r => r.status = .running
  let closed := run.elim s fun r =>
    s.updateRun r.runToken fun r => { r with status := .blocked, endedAt := some stamp.now }
  let s' ← closed.insertTransition others stamp.operationId (run.map StageRun.runToken)
    s.task.currentStage s.task.owner none none (some .running) .blocked "orphaned_running"
  return { s' with task := { s.task with
    status := .blocked
    stopReason := some ("orphaned_running" : Text)
    leaseToken := none
    revision := s.task.revision + 1 } }

/-- A provider preflight that did not pass. -/
structure PreflightStop where
  paused : Bool
  reason : Text
  output : Text
  exitCode : Option ℤ
  model : Option Text
  startedAtMs : ℤ
  endedAtMs : ℤ

/-- The run row a preflight stop leaves. -/
def preflightRun (s : TaskStore) (stamp : Stamp) (stage : Stage) (stop : PreflightStop) :
    StageRun where
  runToken := stamp.runToken
  stage := stage.name
  cycle := (s.nextAttempt stage.name).1
  attempt := (s.nextAttempt stage.name).2
  owner := stage.owner
  status := if stop.paused then .paused else .blocked
  leaseToken := none
  exitCode := stop.exitCode
  outcome := none
  manifest := none
  model := some (stop.model.getD "unspecified")
  durationMs := some (max 0 (stop.endedAtMs - stop.startedAtMs))
  usage := ⟨none, none, none, some "not_applicable_provider_preflight_failed"⟩
  startedAt := stop.startedAtMs
  endedAt := some stop.endedAtMs

/-- `_record_provider_preflight_stop`: the log is written strictly, and a task that is not queued
any more is left alone. -/
def recordPreflightStop (s : TaskStore) (others : Taken) (stamp : Stamp) (stage : Stage)
    (stop : PreflightStop) : Except Exc TaskStore :=
  if s.task.status ≠ .queued then .ok s
  else do
    require (decide (Encodable stop.output)) .unicodeEncodeError
    let status : Status := if stop.paused then .paused else .blocked
    let s' ← s.insertRun others (s.preflightRun stamp stage stop)
    let s' ← s'.insertTransition others stamp.operationId stamp.runToken stage.name stage.owner none
      none (some .queued) status stop.reason
    return { s' with task := { s.task with
      status := status
      stopReason := some stop.reason
      revision := s.task.revision + 1 } }

end TaskStore

end AgentOrch
