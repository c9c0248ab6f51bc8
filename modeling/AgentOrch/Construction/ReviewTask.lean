import AgentOrch.Construction.Database
import AgentOrch.Construction.StopGate
import AgentOrch.Construction.Trajectory

/-!
# The task of a stop-gate reviewer

The two profiles a reviewer runs under, and the result the service writes when a task has stopped:
the rows of the task as `Controller.status` reads them, and what `_handle` adds to them.

The columns of paths, of hashes and of the preflight are left out.
-/

namespace AgentOrch

open Py Json Trajectory

/-! ## The profiles -/

/-- The graph of a stop-gate profile: one review, which ends the task either way. -/
def stopGateProfile (owner : Owner) (prompt : Text) : Profile where
  version := 1
  type := "stop-gate"
  initialStage := "review"
  maxTransitions := 2
  stages := [
    ("review", ⟨"review", some owner, some 2, some 600, some prompt,
      [("allow", "done"), ("block", "done")], none⟩),
    ("done", ⟨"done", none, none, none, none, [], some .done⟩)]
  edgeCaps := [("review.allow", 1), ("review.block", 1)]

/-- `stop_gate_claude.yaml` -/
def stopGateClaude (prompt : Text) : Profile := stopGateProfile .claude prompt

/-- `stop_gate_codex.yaml` -/
def stopGateCodex (prompt : Text) : Profile := stopGateProfile .codex prompt

/-! ## Rows -/

def Owner.text : Owner → Text
  | .claude => "claude"
  | .codex => "codex"

/-- A row of `stage_runs`. -/
def StageRun.row (r : StageRun) : List (Text × Value) :=
  [("run_token", .str r.runToken), ("lease_token", optText r.leaseToken), ("stage", .str r.stage),
    ("cycle", .int r.cycle), ("attempt", .int r.attempt),
    ("owner", optText (r.owner.map Owner.text)), ("status", .str r.status.text),
    ("exit_code", optInt r.exitCode), ("outcome", optText r.outcome), ("model", optText r.model),
    ("duration_ms", optInt r.durationMs), ("usage_input_tokens", optInt r.usage.inputTokens),
    ("usage_output_tokens", optInt r.usage.outputTokens),
    ("usage_total_tokens", optInt r.usage.totalTokens),
    ("usage_unavailable_reason", optText r.usage.unavailableReason),
    ("started_at", .int r.startedAt), ("ended_at", optInt r.endedAt)]

/-- A row of `transitions`. -/
def Transition.row (t : Transition) : List (Text × Value) :=
  [("seq", .int t.seq), ("run_token", optText t.runToken), ("stage", optText t.stage),
    ("owner", optText (t.owner.map Owner.text)), ("edge", optText t.edge),
    ("outcome", optText t.outcome), ("from_status", optText (t.fromStatus.map Status.text)),
    ("to_status", .str t.toStatus.text), ("reason", .str t.reason)]

/-- A row of `edge_counts`. -/
def EdgeCount.row (e : EdgeCount) : List (Text × Value) :=
  [("edge", .str e.edge), ("count", .int e.count), ("cap", .int e.cap)]

/-- A row of `tasks`. -/
def TaskRow.row (id : Text) (task : TaskRow) : List (Text × Value) :=
  [("id", .str id), ("type", .str task.type), ("status", .str task.status.text),
    ("stop_reason", optText task.stopReason), ("current_stage", .str task.currentStage),
    ("owner", optText (task.owner.map Owner.text)), ("revision", .int task.revision),
    ("transitions_count", .int task.transitionsCount),
    ("max_transitions", .int task.maxTransitions),
    ("resume_allowance", .int (if task.resumeAllowance then 1 else 0)),
    ("lease_token", optText task.leaseToken)]

/-! ## The result -/

namespace TaskStore

/-- `ORDER BY started_at,rowid` -/
def runsByStart (s : TaskStore) : List StageRun :=
  s.stageRuns.insertionSort fun r r' => r.startedAt ≤ r'.startedAt

/-- `ORDER BY seq` -/
def transitionsBySeq (s : TaskStore) : List Transition :=
  s.transitions.insertionSort fun t t' => t.seq ≤ t'.seq

/-- `ORDER BY edge` -/
def edgesByName (s : TaskStore) : List EdgeCount :=
  s.edgeCounts.insertionSort fun e e' => ¬e'.edge < e.edge

/-- `Controller.status` -/
def statusResult (s : TaskStore) (id : Text) (notifications : Value) : List (Text × Value) :=
  [("task", .obj (s.task.row id)),
    ("edge_counts", .arr (s.edgesByName.map fun e => .obj e.row)),
    ("stage_runs", .arr (s.runsByStart.map fun r => .obj r.row)),
    ("transitions", .arr (s.transitionsBySeq.map fun t => .obj t.row)),
    ("notifications", notifications)]

/-- What `_handle` writes for a request whose task has stopped. -/
def handledResult (s : TaskStore) (id requestId : Text) (request notifications : Value)
    (evidencePath : Option Text) : List (Text × Value) :=
  s.statusResult id notifications ++
    [(("request" : Text), request), ("request_id", .str requestId), ("task_id", .str id),
      ("status", .str s.task.status.text), ("stop_reason", optText s.task.stopReason),
      ("evidence_path", optText evidencePath)]

end TaskStore

end AgentOrch
