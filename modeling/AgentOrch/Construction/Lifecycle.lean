import AgentOrch.Construction.Exceptions
import AgentOrch.Framework.Glob

/-!
# The lifecycle of a started task

`orch start` keeps two files for a task: its record and its routing decision.  The commands read
them, ask the resolver or the daemon's results, write them back, and report to `inbox.md`.

What a command finds outside the two files is an argument of it: the routing, the attempt to resolve
and enqueue, the results in `processed/`, and the clock.
-/

namespace AgentOrch

open Py Json

/-! ## The two files -/

/-- The values of `stage`. -/
inductive LifecycleStage
  | intake
  | route
  | execute
  | waitingUser
  | paused
  | blocked
  | done
  | failed
  deriving DecidableEq

def LifecycleStage.text : LifecycleStage → Text
  | .intake => "intake"
  | .route => "route"
  | .execute => "execute"
  | .waitingUser => "waiting_user"
  | .paused => "paused"
  | .blocked => "blocked"
  | .done => "done"
  | .failed => "failed"

inductive IntakeStatus
  | pass
  | waitingUser
  | blocked
  deriving DecidableEq

def IntakeStatus.stage : IntakeStatus → LifecycleStage
  | .pass => .intake
  | .waitingUser => .waitingUser
  | .blocked => .blocked

structure IntakePreflight where
  status : IntakeStatus
  reason : Option Text

/-- The request `_enqueue_for_routing` puts into the inbox of the daemon. -/
structure ExecutionRequest where
  requestId : Text
  requestPath : Text
  type : Text
  profile : Text
  input : Text
  drawn : requestId ≠ []

/-- What `_enqueue_for_routing` returns: a reason to stop, or the request it enqueued. -/
inductive Execution
  | blocked (reason : Text)
  | waitingUser (reason resolverReceipt : Text)
  | enqueued (reason resolverReceipt : Text) (request : ExecutionRequest)

/-- `_execution_result_summary`. -/
structure ExecutionResult where
  syncedAt : Text
  requestId : Text
  processedResultPath : Text
  controllerTaskId : Value
  controllerStatus : Value
  stopReason : Value
  evidencePath : Value
  controllerLifecycleStage : LifecycleStage
  lifecycleStage : LifecycleStage
  gateRequired : Bool
  error : Value

/-- The summary of an enqueued gate review. -/
structure GateReviewExecution where
  createdAt : Text
  requestId : Text
  requestPath : Text
  profile : Text
  owner : Text
  inputPath : Text
  expectedOutputPath : Text
  originalRequestId : Text
  processedResultPath : Text
  pattern : Option Text
  executor : Option Text
  subjectRole : Text
  subjectProvider : Option Text
  reviewer : Option Text
  routeSource : Text
  deriving DecidableEq

/-- A gate review the controller holds for the user. -/
structure GateReviewPending where
  observedAt : Text
  requestId : Text
  processedResultPath : Text
  controllerStatus : Value
  stopReason : Value

/-- The summary of a finished gate review; `original` and `execution` are what it copies from. -/
structure GateReviewResult where
  syncedAt : Text
  requestId : Text
  processedResultPath : Text
  controllerTaskId : Value
  controllerStatus : Value
  stopReason : Value
  controllerLifecycleStage : LifecycleStage
  outcome : Text
  recommendation : Text
  original : ExecutionResult
  execution : GateReviewExecution

/-- `_stop_gate_summary`, with what later commands add to it. -/
structure Gate where
  decided : Bool
  stage : LifecycleStage
  requestId : Text
  processedResultPath : Text
  controllerTaskId : Value
  controllerStatus : Value
  controllerLifecycleStage : LifecycleStage
  pattern : Option Text
  executor : Option Text
  reviewer : Option Text
  routeSource : Text
  decision : Option Text
  decidedAt : Option Text
  decisionReason : Option Text
  decisionArtifactPath : Option Text
  reviewExecution : Option GateReviewExecution
  reviewPending : Option GateReviewPending
  reviewResult : Option GateReviewResult

/-- `_gate_decision_summary`; `original` is the execution result it copies from. -/
structure GateDecision where
  decision : Text
  reason : Option Text
  decidedAt : Text
  finalStage : LifecycleStage
  decisionArtifactPath : Text
  requestPath : Option Text
  profile : Option Text
  original : ExecutionResult

/-- The entries the two files have in common. -/
structure Entries where
  execution : Option Execution
  executionResult : Option ExecutionResult
  gate : Option Gate
  gateReviewExecution : Option GateReviewExecution
  gateReviewResult : Option GateReviewResult
  gateDecision : Option GateDecision

def Entries.empty : Entries := ⟨none, none, none, none, none, none⟩

/-- What `_preflight` and `_route` decide about a new task. -/
structure Intake where
  preflight : IntakePreflight
  pattern : Option Text
  executor : Option Text
  reviewer : Option Text
  routeSource : Text
  stopGate : Bool
  autoStart : Bool
  dryRun : Bool

/-- The task record and the routing decision of one task, and its decision artifact. -/
structure Lifecycle where
  stage : LifecycleStage
  record : Entries
  preflight : IntakePreflight
  pattern : Option Text
  executor : Option Text
  reviewer : Option Text
  routeSource : Text
  stopGate : Bool
  autoStart : Bool
  routing : Entries
  decisionFile : Option GateDecision

/-- A line of `inbox.md`. -/
structure LifecycleNotice where
  type : Text
  severity : Text
  summary : Text

/-- A result file of the daemon, as `json.loads(path.read_text())` reads it. -/
structure ProcessedFile where
  name : Text
  mtime : ℕ
  content : Except Exc Value

namespace Lifecycle

variable (rt : Runtime) (id : Text)

/-- Both files at once. -/
def setEntries (l : Lifecycle) (f : Entries → Entries) : Lifecycle :=
  { l with record := f l.record, routing := f l.routing }

/-! ## Enqueueing -/

/-- `_tracked_execution_patterns`: the type of each pattern. -/
def trackedPatterns : List (Text × Text) :=
  [("propose_spec", "propose"), ("spec_review", "spec-review"),
    ("external_spec_review", "spec-review"), ("codex_implement_claude_review", "apply"),
    ("claude_apply_codex_review", "apply"), ("provider_smoke", "provider-smoke"),
    ("provider_smoke_gated", "provider-smoke")]

/-- What an attempt comes to: a check that fails before anything is enqueued, a resolver that leaves
the envelope open, or a request under a fresh identity. -/
inductive Attempt
  | rejected (reason : Text)
  | unresolved (reason resolverReceipt : Text)
  | resolved (requestId requestPath profile input resolverReceipt : Text) (drawn : requestId ≠ [])

/-- `_enqueue_for_routing`. -/
def enqueueForRouting (pattern : Option Text) (reason : Text) (attempt : Attempt) : Execution :=
  match pattern.bind fun p => dictGet p trackedPatterns with
  | none => .blocked ("no tracked profile for pattern " ++
      reprOption rt (pattern.map Value.str))
  | some type =>
    match attempt with
    | .rejected message => .blocked message
    | .unresolved message receipt => .waitingUser message receipt
    | .resolved requestId requestPath profile input receipt drawn =>
      .enqueued reason receipt ⟨requestId, requestPath, type, profile, input, drawn⟩

/-- The notice of an enqueued request. -/
def enqueuedNotice (request : ExecutionRequest) : LifecycleNotice :=
  ⟨"execute", "info", "task-" ++ id ++ " enqueued daemon request " ++ request.requestId⟩

def stoppedNotice (stage : LifecycleStage) (severity reason : Text) : LifecycleNotice :=
  ⟨stage.text, severity, "task-" ++ id ++ " " ++ stage.text ++ ": " ++ reason⟩

/-- What a command did: the files it leaves, what it reported, the request it had executed, and the
exception it raised. -/
structure Outcome where
  state : Lifecycle
  notices : List LifecycleNotice
  executed : Option Text
  raised : Option Exc

/-- The files of a new task. -/
def opened (intake : Intake) (stage : LifecycleStage) : Lifecycle where
  stage := stage
  record := .empty
  preflight := intake.preflight
  pattern := intake.pattern
  executor := intake.executor
  reviewer := intake.reviewer
  routeSource := intake.routeSource
  stopGate := intake.stopGate
  autoStart := intake.autoStart
  routing := .empty
  decisionFile := none

/-- The reason an operator reads, `None` when there is none. -/
def reasonText (reason : Option Text) : Text := reason.getD "None"

/-- `run_start`, once the task is recorded and routed. -/
def runStart (intake : Intake) (attempt : Attempt) : Outcome :=
  let queued : LifecycleNotice := ⟨"queued", "info", "task-" ++ id ++ " queued, pattern TBD"⟩
  let parked : LifecycleNotice := ⟨"waiting_user", "warn", "task-" ++ id ++ " waiting go/no-go"⟩
  if intake.preflight.status ≠ .pass then
    let stage := intake.preflight.status.stage
    let severity := if stage = .blocked then "error" else "warn"
    ⟨opened intake stage,
      [queued, stoppedNotice id stage severity (reasonText intake.preflight.reason)], none, none⟩
  else if intake.autoStart = false then
    ⟨opened intake .waitingUser, [queued, parked], none, none⟩
  else if intake.dryRun then ⟨opened intake .route, [queued], none, none⟩
  else
    let execution := enqueueForRouting rt intake.pattern "auto_start=true" attempt
    let record (e : Entries) : Entries := { e with execution := some execution }
    match execution with
    | .enqueued _ _ request =>
      ⟨(opened intake .execute).setEntries record, [queued, enqueuedNotice id request],
        some request.requestId, none⟩
    | .waitingUser reason _ =>
      ⟨{ (opened intake .waitingUser).setEntries record with
          autoStart := false, preflight := ⟨.waitingUser, some reason⟩ },
        [queued, stoppedNotice id .waitingUser "warn" reason], none, none⟩
    | .blocked reason =>
      ⟨{ (opened intake .blocked).setEntries record with autoStart := false },
        [queued, stoppedNotice id .blocked "error" reason], none, none⟩

/-- The checks of `run_start_go`. -/
def checkGo (l : Lifecycle) : Except Exc Unit := do
  require (l.stage ≠ .blocked && l.preflight.status ≠ .blocked) (.valueError
    ("task " ++ id ++ " is blocked before execution: " ++
      l.preflight.reason.getD l.stage.text))
  require (l.preflight.status = .pass && l.pattern.any fun p => !p.isEmpty) (.valueError
    ("task " ++ id ++ " cannot start-go from preflight waiting_user: " ++
      l.preflight.reason.getD "route did not produce an executable pattern"))
  require (l.stage = .waitingUser) (.valueError
    ("task " ++ id ++ " is not waiting for post-route go/no-go (stage=" ++ l.stage.text ++ ")"))

/-- `run_start_go`. -/
def runStartGo (l : Lifecycle) (attempt : Attempt) : Outcome :=
  match l.checkGo id with
  | .error e => ⟨l, [], none, some e⟩
  | .ok () =>
    let execution := enqueueForRouting rt l.pattern "explicit start-go" attempt
    let recorded := l.setEntries fun e => { e with execution := some execution }
    match execution with
    | .waitingUser reason _ =>
      ⟨{ recorded with
          stage := .waitingUser
          autoStart := false
          preflight := ⟨.waitingUser, some reason⟩ },
        [stoppedNotice id .waitingUser "warn" reason], none, some (.valueError reason)⟩
    | .blocked reason =>
      ⟨{ recorded with stage := .blocked }, [], none, some (.valueError reason)⟩
    | .enqueued _ _ request =>
      ⟨{ recorded with stage := .execute }, [enqueuedNotice id request], some request.requestId,
        none⟩

/-! ## Reading results -/

/-- The request of an execution. -/
def requestOf : Execution → Option Text
  | .enqueued _ _ request => if request.requestId.isEmpty then none else some request.requestId
  | _ => none

/-- `_execution_request_id`. -/
def executionRequestId (l : Lifecycle) : Option Text :=
  (l.routing.execution.bind requestOf).or (l.record.execution.bind requestOf)

/-- `_find_processed_result`: the last of the matching names. -/
def findProcessedResult (processed : List ProcessedFile) (requestId : Text) :
    Option ProcessedFile :=
  (processed.filter fun f => fnmatch f.name ("*" ++ requestId ++ "*.result.json")).foldl
    (fun best f => match best with
      | some b => if b.name < f.name then some f else some b
      | none => some f) none

/-- `json.loads(result_path.read_text())`, where a text that is no JSON is a `ValueError`. -/
def parseProcessed (what : Text) (f : ProcessedFile) : Except Exc Value :=
  match f.content with
  | .error (.jsonDecodeError message) =>
    .error (.valueError ("cannot parse processed " ++ what ++ ": " ++ message))
  | content => content

/-- The request a result is the result of, if it says so. -/
def processedRequestId (result : List (Text × Value)) (requestId : Text) : Text :=
  match getValue "request_id" result with
  | .str r => if r.isEmpty then requestId else r
  | _ => requestId

/-- `payload.get`, which a value that is no object does not have. -/
def asObject : Value → Except Exc (List (Text × Value))
  | .obj items => .ok items
  | _ => .error (.attributeError "object has no attribute 'get'")

/-- A file that is newer than another, by its time and then its name. -/
def isLater (f g : ProcessedFile) : Bool :=
  g.mtime < f.mtime || (f.mtime = g.mtime && decide (g.name < f.name))

/-- The loop of `_find_latest_processed_result_for_task`; a file that cannot be read as JSON is no
candidate. -/
def latestResult (taskId : Text) : ProcessedFile × List (Text × Value) → List ProcessedFile →
    Except Exc (ProcessedFile × List (Text × Value))
  | latest, [] => .ok latest
  | latest, f :: rest =>
    match f.content with
    | .error (.osError _) | .error (.jsonDecodeError _) => latestResult taskId latest rest
    | .error e => .error e
    | .ok payload => do
      let items ← asObject payload
      if (getValue "task_id" items).eqv (.str taskId) && isLater f latest.1 then
        latestResult taskId (f, items) rest
      else latestResult taskId latest rest

/-- `_find_latest_processed_result_for_task`. -/
def findLatestProcessedResult (processed : List ProcessedFile) (seed : ProcessedFile)
    (seedResult : List (Text × Value)) : Except Exc (ProcessedFile × List (Text × Value)) :=
  match getValue "task_id" seedResult with
  | .str taskId =>
    if taskId.isEmpty then .ok (seed, seedResult)
    else latestResult taskId (seed, seedResult)
      (processed.filter fun f => fnmatch f.name "*.result.json" && f.name ≠ seed.name)
  | _ => .ok (seed, seedResult)

/-- `value == name`. -/
def isText (v : Value) (name : Text) : Bool := v.eqv (.str name)

/-- `value in {...}`, which hashes the value. -/
def inSet (v : Value) (names : List Text) : Except Exc Bool :=
  match v with
  | .arr _ => .error (.typeError "unhashable type: 'list'")
  | .obj _ => .error (.typeError "unhashable type: 'dict'")
  | v => .ok (names.any (isText v))

/-- `_lifecycle_stage_from_result`. -/
def lifecycleStageFromResult (result : List (Text × Value)) : Except Exc LifecycleStage :=
  if ("error" : Text) ∈ dictKeys result then .ok .failed
  else
    let status := getValue "status" result
    if isText status "done" then .ok .done
    else if isText status "blocked" then .ok .blocked
    else if isText status "paused" then .ok .paused
    else do
      let waits ← inSet status ["waiting_user", "round_cap"]
      if waits || isText (getValue "stop_reason" result) "round_cap" then return .waitingUser
      else return .failed

/-- `result.get("task_id") or result.get("request_id") or request_id`. -/
def controllerTaskId (result : List (Text × Value)) (requestId : Text) : Value :=
  if (getValue "task_id" result).truthy then getValue "task_id" result
  else if (getValue "request_id" result).truthy then getValue "request_id" result
  else .str requestId

/-- `_execution_result_summary`. -/
def executionResultSummary (l : Lifecycle) (requestId path now : Text)
    (result : List (Text × Value)) : Except Exc ExecutionResult := do
  let controllerStage ← lifecycleStageFromResult result
  let gateRequired := controllerStage = .done && l.stopGate
  return {
    syncedAt := now
    requestId := requestId
    processedResultPath := path
    controllerTaskId := controllerTaskId result requestId
    controllerStatus := getValue "status" result
    stopReason := getValue "stop_reason" result
    evidencePath := getValue "evidence_path" result
    controllerLifecycleStage := controllerStage
    lifecycleStage := if gateRequired then .waitingUser else controllerStage
    gateRequired := gateRequired
    error := getValue "error" result }

/-- `_is_stop_gate_pending`. -/
def isStopGatePending (r : ExecutionResult) : Bool :=
  r.gateRequired && r.lifecycleStage = .waitingUser

/-- `_same_execution_result_except_synced_at`. -/
def sameExecutionResult (r r' : ExecutionResult) : Bool :=
  r.requestId = r'.requestId && r.processedResultPath = r'.processedResultPath &&
    r.controllerTaskId.eqv r'.controllerTaskId && r.controllerStatus.eqv r'.controllerStatus &&
    r.stopReason.eqv r'.stopReason && r.controllerLifecycleStage = r'.controllerLifecycleStage &&
    r.lifecycleStage = r'.lifecycleStage && r.gateRequired = r'.gateRequired &&
    r.error.eqv r'.error && r.evidencePath.eqv r'.evidencePath

/-- What `_gate_decision` reads off the decision, or off a decided gate. -/
structure Decided where
  decision : Option Text
  reason : Option Text
  decidedAt : Option Text
  finalStage : Option LifecycleStage
  decisionArtifactPath : Option Text

def GateDecision.decided (d : GateDecision) : Decided :=
  ⟨some d.decision, d.reason, some d.decidedAt, some d.finalStage, some d.decisionArtifactPath⟩

/-- A gate has no final stage of its own, and its reason is that of the gate. -/
def Gate.asDecided (g : Gate) : Option Decided :=
  if g.decided then some ⟨g.decision,
    some ("routing.stop_gate=true and controller result is done" : Text), g.decidedAt, none,
    g.decisionArtifactPath⟩
  else none

/-- `_gate_decision`. -/
def gateDecision (l : Lifecycle) : Option Decided :=
  (l.routing.gateDecision.map GateDecision.decided).or
    ((l.record.gateDecision.map GateDecision.decided).or
      ((l.routing.gate.bind Gate.asDecided).or (l.record.gate.bind Gate.asDecided)))

/-- `_gate_review_execution`. -/
def gateReviewExecution (l : Lifecycle) : Option GateReviewExecution :=
  l.routing.gateReviewExecution.or (l.record.gateReviewExecution.or
    ((l.routing.gate.bind Gate.reviewExecution).or (l.record.gate.bind Gate.reviewExecution)))

/-- `_gate_review_result`. -/
def gateReviewResult (l : Lifecycle) : Option GateReviewResult :=
  l.routing.gateReviewResult.or (l.record.gateReviewResult.or
    ((l.routing.gate.bind Gate.reviewResult).or (l.record.gate.bind Gate.reviewResult)))

/-- `_stop_gate_summary`. -/
def stopGateSummary (l : Lifecycle) (r : ExecutionResult) : Gate where
  decided := false
  stage := .waitingUser
  requestId := r.requestId
  processedResultPath := r.processedResultPath
  controllerTaskId := r.controllerTaskId
  controllerStatus := r.controllerStatus
  controllerLifecycleStage := r.controllerLifecycleStage
  pattern := l.pattern
  executor := l.executor
  reviewer := l.reviewer
  routeSource := l.routeSource
  decision := none
  decidedAt := none
  decisionReason := none
  decisionArtifactPath := none
  reviewExecution := none
  reviewPending := none
  reviewResult := none

/-- `existing_gate == gate_summary`, for a summary without a decision or a review result. -/
def sameGate (g summary : Gate) : Bool :=
  !g.decided && g.stage = summary.stage && g.requestId = summary.requestId &&
    g.processedResultPath = summary.processedResultPath &&
    g.controllerTaskId.eqv summary.controllerTaskId &&
    g.controllerStatus.eqv summary.controllerStatus &&
    g.controllerLifecycleStage = summary.controllerLifecycleStage &&
    g.pattern = summary.pattern && g.executor = summary.executor &&
    g.reviewer = summary.reviewer && g.routeSource = summary.routeSource &&
    g.reviewExecution = summary.reviewExecution && g.decision.isNone && g.reviewPending.isNone &&
    g.reviewResult.isNone

/-! ## Synchronising -/

/-- `_sync_severity`. -/
def syncSeverity (stage : LifecycleStage) : Text :=
  if stage = .done then "info"
  else if stage = .waitingUser ∨ stage = .paused then "warn"
  else "error"

/-- `str(v)`. -/
def strValue (v : Value) : Text :=
  match v with
  | .str s => s
  | v => reprValue rt v

def syncNotice (r : ExecutionResult) : LifecycleNotice :=
  ⟨r.lifecycleStage.text, syncSeverity r.lifecycleStage,
    "task-" ++ id ++ " synced daemon result " ++ r.requestId ++ ": controller_task_id=" ++
      strValue rt r.controllerTaskId ++ " controller_status=" ++ strValue rt r.controllerStatus ++
      " stop_reason=" ++ strValue rt r.stopReason ++
      (if isStopGatePending r then " stop-gate approval required" else "")⟩

/-- A decision that was made stays in force when the result it was made about is read again: the
decision, and the stage it led to. -/
def redecided (l : Lifecycle) (summary : ExecutionResult) : Option (Decided × LifecycleStage) :=
  if isStopGatePending summary then l.gateDecision.map fun d => (d, d.finalStage.getD l.stage)
  else none

/-- The result as a sync sees it, under the decision in force. -/
def projectedResult (l : Lifecycle) (summary : ExecutionResult) : ExecutionResult :=
  match l.redecided summary with
  | some (_, stage) => { summary with lifecycleStage := stage, gateRequired := false }
  | none => summary

/-- `same_result`. -/
def sameResult (l : Lifecycle) (summary : ExecutionResult) : Bool :=
  l.routing.executionResult.any fun r => sameExecutionResult r (l.projectedResult summary)

/-- The result that is recorded: an unchanged one keeps the time it was synced at. -/
def recordedResult (l : Lifecycle) (summary : ExecutionResult) : ExecutionResult :=
  match l.routing.executionResult with
  | some r =>
    if l.sameResult summary then { l.projectedResult summary with syncedAt := r.syncedAt }
    else l.projectedResult summary
  | none => l.projectedResult summary

def recordResult (l : Lifecycle) (r : ExecutionResult) : Lifecycle :=
  { l.setEntries fun e => { e with executionResult := some r } with stage := r.lifecycleStage }

def recordGate (l : Lifecycle) (g : Gate) : Lifecycle :=
  l.setEntries fun e => { e with gate := some g }

/-- A gate under the decision in force. -/
def redecideGate (g : Gate) (d : Decided) (stage : LifecycleStage) : Gate :=
  { g with
    decided := true
    stage := stage
    decision := d.decision
    decidedAt := d.decidedAt
    decisionReason := d.reason
    decisionArtifactPath := d.decisionArtifactPath }

/-- The summary of a gate that is pending. -/
def pendingGate (l : Lifecycle) (r : ExecutionResult) : Gate :=
  { l.stopGateSummary r with reviewExecution := l.gateReviewExecution }

/-- What `run_start_sync` records of a result, given what the files already say. -/
def synced (l : Lifecycle) (summary : ExecutionResult) : Lifecycle × List LifecycleNotice :=
  let result := l.recordedResult summary
  let recorded := l.recordResult result
  let notice := if l.sameResult summary then [] else [syncNotice rt id result]
  match l.redecided summary with
  | some (d, stage) =>
    match l.record.gate.or l.routing.gate with
    | some gate => (recorded.recordGate (redecideGate gate d stage), [])
    | none => (recorded, notice)
  | none =>
    if isStopGatePending result then
      (recorded.recordGate (l.pendingGate result),
        if l.routing.gate.any fun g => sameGate g (l.pendingGate result) then []
        else [syncNotice rt id result])
    else (recorded, notice)

/-- `run_start_sync`. -/
def runStartSync (l : Lifecycle) (processed : List ProcessedFile) (processing : Bool)
    (now : Text) : Except Exc (Lifecycle × List LifecycleNotice) :=
  match l.executionRequestId with
  | none => .error (.valueError ("task " ++ id ++ " has no execution request_id to sync"))
  | some requestId =>
    match findProcessedResult processed requestId with
    | none => .error (.valueError
        ((if processing then "daemon request still processing for request_id "
          else "processed daemon result not found for request_id ") ++ requestId))
    | some seed => do
      let payload ← parseProcessed "daemon result" seed
      let seedResult ← asObject payload
      let (file, result) ← findLatestProcessedResult processed seed seedResult
      let summary ← l.executionResultSummary (processedRequestId result requestId) file.name now
        result
      return l.synced rt id summary

end Lifecycle

end AgentOrch
