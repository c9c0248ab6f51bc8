import AgentOrch.Construction.Lifecycle
import AgentOrch.Framework.Traces

/-!
# The stop gate, and the runs of a task

A task whose routing says so waits for a decision after its execution is done.  `run_gate_run` has
the other provider review it, `run_gate_sync` records the recommendation, `run_gate_decision` decides.
-/

namespace AgentOrch

open Py Json

namespace Lifecycle

variable (rt : Runtime) (id : Text)

/-! ## The pending gate -/

/-- `_require_pending_stop_gate`. -/
def requirePendingStopGate (l : Lifecycle) : Except Exc (Gate × ExecutionResult) := do
  require (l.stage = .waitingUser) (.valueError
    ("task " ++ id ++ " is not waiting on a stop-gate (stage=" ++ l.stage.text ++ ")"))
  require l.stopGate (.valueError ("task " ++ id ++ " is not a stop-gate task"))
  match l.routing.gate.or l.record.gate with
  | some gate =>
    require (!gate.decided) (.valueError ("task " ++ id ++ " has no pending stop-gate summary"))
    match l.routing.executionResult.or l.record.executionResult with
    | some result => do
      require result.gateRequired
        (.valueError ("task " ++ id ++ " has no gate-required execution result"))
      require (result.lifecycleStage = .waitingUser)
        (.valueError ("task " ++ id ++ " execution result is not gate-pending"))
      require (result.controllerLifecycleStage = .done && isText result.controllerStatus "done")
        (.valueError ("task " ++ id ++ " controller execution has not reached done"))
      return (gate, result)
    | none => throw (.valueError ("task " ++ id ++ " has no gate-required execution result"))
  | none => throw (.valueError ("task " ++ id ++ " has no pending stop-gate summary"))

/-! ## The review -/

/-- `_stop_gate_reviewer_profiles`: the owner of the review of what a provider did. -/
def stopGateReviewer : List (Text × Text) := [("codex", "claude"), ("claude", "codex")]

/-- What `run_gate_run` finds outside the files: whether the daemon runs, whether the frozen
envelope verifies, and the identities and paths it draws. -/
structure GateReview where
  daemonRuns : Bool
  envelope : Except Exc Unit
  now : Text
  requestId : Text
  requestPath : Text
  profile : Text
  inputPath : Text
  expectedOutputPath : Text

/-- The provider whose work the gate is about, and its role. -/
def gateSubject (l : Lifecycle) (gate : Gate) : Except Exc (Text × Option Text) :=
  let executor := l.executor.or gate.executor
  if executor.isNone && l.pattern = some ("external_spec_review" : Text) then
    if gate.reviewer = l.reviewer then .ok ("reviewer", l.reviewer)
    else .error (.valueError "inconsistent stop-gate reviewer provenance")
  else .ok ("executor", executor)

/-- `run_gate_run`. -/
def runGateRun (l : Lifecycle) (review : GateReview) :
    Except Exc (Lifecycle × List LifecycleNotice) := do
  require l.gateDecision.isNone
    (.valueError ("stop-gate for task " ++ id ++ " is already decided"))
  require l.gateReviewExecution.isNone
    (.valueError ("stop-gate reviewer for task " ++ id ++ " is already enqueued"))
  let (gate, result) ← l.requirePendingStopGate id
  let (role, provider) ← l.gateSubject gate
  match provider.bind fun p => dictGet p stopGateReviewer with
  | none => throw (.valueError ("unsupported stop-gate " ++ role ++
      " for cross-provider review: " ++ reprOption rt (provider.map Value.str)))
  | some owner => do
    require review.daemonRuns (.valueError
      (("orchestrator daemon is not running; gate-run only enqueues a daemon inbox request " : Text) ++
        "and will not run stop-gate review in-process"))
    review.envelope
    let summary : GateReviewExecution :=
      { createdAt := review.now
        requestId := review.requestId
        requestPath := review.requestPath
        profile := review.profile
        owner := owner
        inputPath := review.inputPath
        expectedOutputPath := review.expectedOutputPath
        originalRequestId := result.requestId
        processedResultPath := result.processedResultPath
        pattern := l.pattern
        executor := l.executor.or gate.executor
        subjectRole := role
        subjectProvider := provider
        reviewer := l.reviewer
        routeSource := l.routeSource }
    return (l.setEntries fun e => { e with
        gateReviewExecution := some summary
        gate := some { gate with reviewExecution := some summary } },
      [⟨"gate-review-enqueued", "warn", "task-" ++ id ++
        " stop-gate reviewer enqueued request " ++ review.requestId ++ " owner=" ++ owner⟩])

/-- `_is_pending_user_decision`. -/
def isPendingUserDecision (result : List (Text × Value)) : Bool :=
  ("error" : Text) ∉ dictKeys result && isText (getValue "status" result) "waiting_user" &&
    isText (getValue "stop_reason" result) "user_decision_required"

/-- The outcomes a list of runs or transitions names. -/
def outcomesOf : List Value → Except Exc (List Text)
  | [] => .ok []
  | .obj item :: rest => do
    let others ← outcomesOf rest
    match getValue "outcome" item with
    | .str outcome => return if outcome.isEmpty then others else outcome :: others
    | _ => return others
  | _ :: _ => .error (.valueError "malformed stop-gate reviewer result: item is not an object")

/-- `_extract_gate_review_outcome`. -/
def extractGateReviewOutcome (result : List (Text × Value)) (requestId : Text) :
    Except Exc Text := do
  let known ← inSet (getValue "request_id" result) [requestId]
  require (known || (match getValue "request_id" result with
      | .null => true
      | _ => false))
    (.valueError "malformed stop-gate reviewer result: request_id does not match")
  require (("error" : Text) ∉ dictKeys result && isText (getValue "status" result) "done")
    (.valueError "malformed stop-gate reviewer result: reviewer did not finish done")
  match getValue "stage_runs" result, getValue "transitions" result with
  | .arr runs, .arr transitions => do
    let runOutcomes ← outcomesOf runs
    let transitionOutcomes ← outcomesOf transitions
    match (runOutcomes ++ transitionOutcomes).dedup with
    | [] => throw (.valueError "malformed stop-gate reviewer result: missing reviewer outcome")
    | [outcome] => do
      require (outcome = ("allow" : Text) || outcome = ("block" : Text))
        (.valueError ("unsupported stop-gate reviewer outcome: " ++ outcome))
      return outcome
    | _ => throw (.valueError "malformed stop-gate reviewer result: ambiguous reviewer outcomes")
  | _, _ => throw (.valueError
      "malformed stop-gate reviewer result: missing stage_runs/transitions")

/-- `{"allow": "ALLOW", "block": "BLOCK"}[outcome]`. -/
def recommendation (outcome : Text) : Text :=
  if outcome = ("allow" : Text) then "ALLOW" else "BLOCK"

/-- What `run_gate_sync` records of a result of the review. -/
def gateSynced (l : Lifecycle) (gate : Gate) (original : ExecutionResult)
    (execution : GateReviewExecution) (requestId path now : Text) (result : List (Text × Value)) :
    Except Exc (Lifecycle × List LifecycleNotice) :=
  if isPendingUserDecision result then
    let pending : GateReviewPending :=
      ⟨now, requestId, path, getValue "status" result, getValue "stop_reason" result⟩
    let gate := { gate with reviewExecution := some execution, reviewPending := some pending }
    .ok ({ l.setEntries fun e => { e with gate := some gate } with stage := .waitingUser },
      [⟨"gate-review-pending", "warn", "task-" ++ id ++
        " stop-gate reviewer requires a user decision; gate still undecided"⟩])
  else do
    let outcome ← extractGateReviewOutcome result requestId
    let controllerStage ← lifecycleStageFromResult result
    let summary : GateReviewResult :=
      { syncedAt := now
        requestId := requestId
        processedResultPath := path
        controllerTaskId := controllerTaskId result requestId
        controllerStatus := getValue "status" result
        stopReason := getValue "stop_reason" result
        controllerLifecycleStage := controllerStage
        outcome := outcome
        recommendation := recommendation outcome
        original := original
        execution := execution }
    let gate := { gate with reviewExecution := some execution, reviewResult := some summary }
    return ({ l.setEntries fun e => { e with
          gate := some gate, gateReviewResult := some summary } with stage := .waitingUser },
      [⟨"gate-review-synced", if outcome = ("allow" : Text) then "warn" else "error",
        "task-" ++ id ++ " stop-gate reviewer recommendation " ++ recommendation outcome ++
          " result=" ++ path⟩])

/-- `run_gate_sync`. -/
def runGateSync (l : Lifecycle) (processed : List ProcessedFile) (now : Text) :
    Except Exc (Lifecycle × List LifecycleNotice) := do
  require l.gateDecision.isNone
    (.valueError ("stop-gate for task " ++ id ++ " is already decided"))
  require l.gateReviewResult.isNone
    (.valueError ("stop-gate review result for task " ++ id ++ " is already synced"))
  let (gate, original) ← l.requirePendingStopGate id
  match l.gateReviewExecution with
  | none => throw (.valueError ("stop-gate reviewer for task " ++ id ++ " has not been enqueued"))
  | some execution => do
    require (!execution.requestId.isEmpty)
      (.valueError ("stop-gate reviewer for task " ++ id ++ " has no request_id"))
    match findProcessedResult processed execution.requestId with
    | none => throw (.valueError ("processed stop-gate reviewer result not found for request_id " ++
        execution.requestId))
    | some seed => do
      let payload ← parseProcessed "stop-gate reviewer result" seed
      match payload with
      | .obj seedResult => do
        let (file, result) ← findLatestProcessedResult processed seed seedResult
        l.gateSynced id gate original execution (processedRequestId result execution.requestId)
          file.name now result
      | _ => throw (.valueError
          "malformed stop-gate reviewer result: root must be an object")

/-! ## The decision -/

/-- The two gate decisions. -/
inductive GateVerdict
  | allow
  | block
  deriving DecidableEq

def GateVerdict.text : GateVerdict → Text
  | .allow => "ALLOW"
  | .block => "BLOCK"

def GateVerdict.finalStage : GateVerdict → LifecycleStage
  | .allow => .done
  | .block => .blocked

/-- `run_gate_decision`. -/
def runGateDecision (l : Lifecycle) (verdict : GateVerdict) (reason : Option Text)
    (now path : Text) : Except Exc (Lifecycle × List LifecycleNotice) := do
  require (l.decisionFile.isNone && l.gateDecision.isNone)
    (.valueError ("stop-gate for task " ++ id ++ " is already decided"))
  let (gate, original) ← l.requirePendingStopGate id
  let request := match l.routing.execution with
    | some (.enqueued _ _ request) => some request
    | _ => none
  let summary : GateDecision :=
    { decision := verdict.text
      reason := reason
      decidedAt := now
      finalStage := verdict.finalStage
      decisionArtifactPath := path
      requestPath := request.map ExecutionRequest.requestPath
      profile := request.map ExecutionRequest.profile
      original := original }
  let gate := { gate with
    decided := true
    stage := verdict.finalStage
    decision := some verdict.text
    decidedAt := some now
    decisionReason := reason
    decisionArtifactPath := some path }
  return ({ l.setEntries fun e => { e with gate := some gate, gateDecision := some summary } with
      stage := verdict.finalStage
      decisionFile := some summary },
    [⟨if verdict = .allow then "gate-allow" else "gate-block",
      if verdict = .allow then "info" else "error",
      "task-" ++ id ++ " stop-gate decision " ++ verdict.text ++ " final_stage=" ++
        verdict.finalStage.text ++ " reason=" ++ reason.getD "(none)"⟩])

/-! ## Runs of one task -/

/-- A command on the task, with what it meets outside its files. -/
inductive Command
  | start (intake : Intake) (attempt : Attempt)
  | startGo (attempt : Attempt)
  | startSync (processed : List ProcessedFile) (processing : Bool) (now : Text)
  | gateRun (review : GateReview)
  | gateSync (processed : List ProcessedFile) (now : Text)
  | gateDecision (verdict : GateVerdict) (reason : Option Text) (now path : Text)

/-- A command that raises leaves the files as they were. -/
def outcomeOf (l : Lifecycle) (r : Except Exc (Lifecycle × List LifecycleNotice)) : Outcome :=
  match r with
  | .ok (state, notices) => ⟨state, notices, none, none⟩
  | .error e => ⟨l, [], none, some e⟩

/-- A command on a task that was started. -/
def perform (l : Lifecycle) : Command → Outcome
  | .start _ _ => ⟨l, [], none, none⟩
  | .startGo attempt => l.runStartGo rt id attempt
  | .startSync processed processing now =>
    outcomeOf l (l.runStartSync rt id processed processing now)
  | .gateRun review => outcomeOf l (l.runGateRun rt id review)
  | .gateSync processed now => outcomeOf l (l.runGateSync id processed now)
  | .gateDecision verdict reason now path =>
    outcomeOf l (l.runGateDecision id verdict reason now path)

/-- The first command starts the task; no other one starts it again, since a start draws a new
identity. -/
inductive Step : Option Lifecycle → Command × Option Text → Option Lifecycle → Prop
  | start (intake : Intake) (attempt : Attempt) :
    Step none (.start intake attempt, (runStart rt id intake attempt).executed)
      (some (runStart rt id intake attempt).state)
  | command (l : Lifecycle) (command : Command) :
    Step (some l) (command, (l.perform rt id command).executed)
      (some (l.perform rt id command).state)

/-- The executions on one task, with the commands and the requests they had executed. -/
abbrev Runs (condition : Option Lifecycle → Command → Prop) :
    Option Lifecycle → List (Command × Option Text) → Prop :=
  Trace (· = none) fun l event l' => condition l event.1 ∧ Step rt id l event l'

end Lifecycle

end AgentOrch
