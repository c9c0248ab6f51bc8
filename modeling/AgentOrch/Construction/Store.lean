import AgentOrch.Construction.Envelope
import AgentOrch.Construction.Review
import AgentOrch.Construction.StageGraph

/-!
# The store

The rows of the database, kept apart by task: every statement of the controller names one task,
and the only constraints that cross tasks are the unique run tokens and operation identities.
Beside its rows a task has its two frozen snapshots and the sealed artifacts of its runs.

Column constraints are part of the types where they enumerate values, and checks of the insert
functions where they compare rows.
-/

namespace AgentOrch

open Py Json

/-! ## Rows -/

/-- The statuses of `tasks`. -/
inductive Status
  | queued
  | running
  | waitingUser
  | blocked
  | done
  | failed
  | paused
  deriving DecidableEq

/-- The statuses of `stage_runs`. -/
inductive RunStatus
  | running
  | committed
  | paused
  | blocked
  deriving DecidableEq

/-- A status as the columns spell it. -/
def Status.text : Status → Text
  | .queued => "queued"
  | .running => "running"
  | .waitingUser => "waiting_user"
  | .blocked => "blocked"
  | .done => "done"
  | .failed => "failed"
  | .paused => "paused"

def RunStatus.text : RunStatus → Text
  | .running => "running"
  | .committed => "committed"
  | .paused => "paused"
  | .blocked => "blocked"

def Terminal.status : Terminal → Status
  | .done => .done
  | .failed => .failed

/-- What a sealed run manifest and the artifacts it names hold: the verdict on the run, what it
would have been without a containment stop, the boundary metadata, and the two texts as they were
written.  `containmentEvidence` tells whether a drift file lay beside the log. -/
structure Manifest where
  classification : Classification
  reason : Text
  outcome : Option Text
  exitCode : Option ℤ
  timedOut : Bool
  candidate : Option Candidate
  containmentEvidence : Bool
  outputBytes : Bytes
  finalBytes : Bytes
  separate : Bool
  source : Protocol
  error : Option FinalResponseError
  executionReceipt : Option Receipt

structure StageRun where
  runToken : Text
  stage : Text
  cycle : ℕ
  attempt : ℕ
  owner : Option Owner
  status : RunStatus
  leaseToken : Option Text
  exitCode : Option ℤ
  outcome : Option Text
  manifest : Option Manifest
  model : Option Text
  durationMs : Option ℤ
  usage : Usage
  startedAt : ℤ
  endedAt : Option ℤ

structure Transition where
  seq : ℕ
  operationId : Text
  runToken : Option Text
  stage : Option Text
  owner : Option Owner
  edge : Option Text
  outcome : Option Text
  fromStatus : Option Status
  toStatus : Status
  reason : Text

structure EdgeCount where
  edge : Text
  count : ℕ
  cap : ℕ

structure TaskRow where
  type : Text
  status : Status
  stopReason : Option Text
  currentStage : Text
  owner : Option Owner
  revision : ℕ
  transitionsCount : ℕ
  maxTransitions : ℕ
  resumeAllowance : Bool
  leaseToken : Option Text

/-- One task: its row, the rows that refer to it, its frozen snapshots, and the runs whose
sealed artifacts no longer verify. -/
structure TaskStore where
  task : TaskRow
  stageRuns : List StageRun
  transitions : List Transition
  edgeCounts : List EdgeCount
  frozen : FrozenProfile
  input : Bytes
  damaged : List Text

/-- The unique keys the other tasks hold. -/
structure Taken where
  runTokens : List Text
  operationIds : List Text

/-! ## Statements -/

/-- `SQLite INTEGER` holds signed 64-bit values. -/
def fitsInt64 (n : ℤ) : Bool := -(2 ^ 63) ≤ n && n < 2 ^ 63

/-- Binding an integer parameter. -/
def bindInt (n : Option ℤ) : Except Exc Unit := require (n.all fitsInt64) .overflowError

/-- Binding a text parameter encodes it. -/
def bindText (t : Option Text) : Except Exc Unit :=
  require (t.all fun t => decide (Encodable t)) .unicodeEncodeError

namespace TaskStore

def profile (s : TaskStore) : Profile := s.frozen.profile

def runTokens (s : TaskStore) : List Text := s.stageRuns.map StageRun.runToken

def operationIds (s : TaskStore) : List Text := s.transitions.map Transition.operationId

/-- `SELECT * FROM stage_runs WHERE run_token=?`. -/
def findRun (s : TaskStore) (token : Text) : Option StageRun :=
  s.stageRuns.find? fun r => r.runToken = token

/-- `SELECT COALESCE(MAX(seq),0)+1 FROM transitions`. -/
def nextSeq (s : TaskStore) : ℕ := (s.transitions.map Transition.seq).foldr max 0 + 1

/-- `INSERT INTO stage_runs`, with its primary key, `owner NOT NULL`, `UNIQUE(task_id, stage,
cycle, attempt)` and the one-active-run index. -/
def insertRun (s : TaskStore) (others : Taken) (run : StageRun) : Except Exc TaskStore := do
  require run.owner.isSome .integrityError
  require (run.runToken ∉ others.runTokens && run.runToken ∉ s.runTokens) .integrityError
  require (s.stageRuns.all fun r =>
    !(r.stage = run.stage && r.cycle = run.cycle && r.attempt = run.attempt)) .integrityError
  require (!(run.status = .running) || s.stageRuns.all fun r => !(r.status = .running))
    .integrityError
  return { s with stageRuns := s.stageRuns ++ [run] }

/-- `_insert_transition`: the next sequence number, and a unique operation identity. -/
def insertTransition (s : TaskStore) (others : Taken) (operationId : Text)
    (runToken stage : Option Text) (owner : Option Owner) (edge outcome : Option Text)
    (fromStatus : Option Status) (toStatus : Status) (reason : Text) : Except Exc TaskStore := do
  require (operationId ∉ others.operationIds && operationId ∉ s.operationIds) .integrityError
  bindText reason
  return { s with transitions := s.transitions ++ [⟨s.nextSeq, operationId, runToken, stage, owner,
    edge, outcome, fromStatus, toStatus, reason⟩] }

/-- `UPDATE stage_runs SET ... WHERE run_token=?`. -/
def updateRun (s : TaskStore) (token : Text) (f : StageRun → StageRun) : TaskStore :=
  { s with stageRuns := s.stageRuns.map fun r => if r.runToken = token then f r else r }

/-- `SELECT count,cap FROM edge_counts WHERE edge=?`. -/
def edgeRow (s : TaskStore) (edge : Text) : Option EdgeCount :=
  s.edgeCounts.find? fun e => e.edge = edge

/-- `UPDATE edge_counts SET count=count+1 WHERE edge=?`. -/
def bumpEdge (s : TaskStore) (edge : Text) : TaskStore :=
  { s with edgeCounts := s.edgeCounts.map fun e =>
      if e.edge = edge then { e with count := e.count + 1 } else e }

/-- `_read_verified_input`. -/
def inputText (s : TaskStore) : Text := universalNewlines (decodeReplace s.input)

/-- `_envelope_for_task`: the strict read of the same snapshot. -/
def envelopeForTask (rt : Runtime) (s : TaskStore) : Except Exc (Option Envelope) :=
  match decodeStrict s.input with
  | none => .error .unicodeDecodeError
  | some text => extractEnvelope rt (universalNewlines text)

/-- A later run by `(started_at, run_token)`. -/
def laterRun (r s : StageRun) : Bool :=
  r.startedAt < s.startedAt || (r.startedAt = s.startedAt && textLe r.runToken s.runToken)

/-- The last run of a stage: `ORDER BY started_at DESC,run_token DESC LIMIT 1`. -/
def lastRun (s : TaskStore) (stage : Text) : Option StageRun :=
  (s.stageRuns.filter fun r => r.stage = stage).foldl
    (fun best r => match best with
      | none => some r
      | some b => if laterRun b r then some r else some b) none

/-- `_next_attempt`. -/
def nextAttempt (s : TaskStore) (stage : Text) : ℕ × ℕ :=
  match s.lastRun stage with
  | none => (1, 1)
  | some r => if r.status = .paused then (r.cycle, r.attempt + 1) else (r.cycle + 1, 1)

end TaskStore

/-- The database: the tasks by their identity. -/
abbrev Db := List (Text × TaskStore)

namespace Db

/-- The keys held by tasks other than `id`. -/
def takenBeside (db : Db) (id : Text) : Taken where
  runTokens := (db.filter fun t => t.1 ≠ id).flatMap fun t => t.2.runTokens
  operationIds := (db.filter fun t => t.1 ≠ id).flatMap fun t => t.2.operationIds

end Db

end AgentOrch
