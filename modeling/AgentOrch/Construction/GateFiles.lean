import AgentOrch.Construction.Lifecycle
import AgentOrch.Construction.Trajectory
import AgentOrch.Construction.Yaml
import AgentOrch.Framework.PosixPath

/-!
# The files of a gate decision

`run_gate_decision` on the files themselves.  It reads the record and the routing of a task, and
writes the decision and both of them back, each file as a whole; between two writes the process may
end.
-/

namespace AgentOrch

open Py Json

namespace GateFiles

open Lifecycle (isText strValue)
open Trajectory (optText)

/-- What stands at each path. -/
abbrev Files := Text → Option Bytes

/-! ## Where the files are -/

/-- `home / "tasks" / name` -/
def tasksFile (home name : Text) : Text :=
  (((PurePath.ofText home).joinpath "tasks").joinpath name).text

def taskPath (home id : Text) : Text := tasksFile home (id ++ (".yaml" : Text))

def routingPath (home id : Text) : Text := tasksFile home (id ++ ("-routing.yaml" : Text))

def decisionPath (home id : Text) : Text := tasksFile home (id ++ ("-gate-decision.yaml" : Text))

/-! ## The pending gate -/

/-- `items.get(key)`, where a mapping stands there. -/
def dictAt (key : Text) (items : List (Text × Value)) : Option (List (Text × Value)) :=
  match getValue key items with
  | .obj found => some found
  | _ => none

/-- `_gate_decision` -/
def gateDecision (task routing : List (Text × Value)) : Option (List (Text × Value)) :=
  let decided (source : List (Text × Value)) := isText (getValue "status" source) "decided"
  ((dictAt "gate_decision" routing).or (dictAt "gate_decision" task)).or
    (((dictAt "gate" routing).filter decided).or ((dictAt "gate" task).filter decided))

/-- `a or b` -/
def firstOf (a b : Value) : Value := if a.truthy then a else b

/-- `value is True` -/
def isTrue : Value → Bool
  | .bool b => b
  | _ => false

section
variable (rt : Runtime) (id : Text)

/-- `_require_pending_stop_gate` -/
def requirePendingStopGate (task routing : List (Text × Value)) :
    Except Exc (List (Text × Value) × List (Text × Value)) := do
  require (isText (getValue "stage" task) "waiting_user") (.valueError
    ("task " ++ id ++ " is not waiting on a stop-gate (stage=" ++
      strValue rt (getValue "stage" task) ++ ")"))
  require (isTrue (getValue "stop_gate" routing))
    (.valueError ("task " ++ id ++ " is not a stop-gate task"))
  match firstOf (getValue "gate" routing) (getValue "gate" task) with
  | .obj gate => do
    require (isText (getValue "type" gate) "stop_gate" &&
      isText (getValue "status" gate) "pending")
      (.valueError ("task " ++ id ++ " has no pending stop-gate summary"))
    match firstOf (getValue "execution_result" routing) (getValue "execution_result" task) with
    | .obj result => do
      require (isTrue (getValue "gate_required" result))
        (.valueError ("task " ++ id ++ " has no gate-required execution result"))
      require (isText (getValue "lifecycle_stage" result) "waiting_user")
        (.valueError ("task " ++ id ++ " execution result is not gate-pending"))
      require (isText (getValue "controller_lifecycle_stage" result) "done" &&
        isText (getValue "controller_status" result) "done")
        (.valueError ("task " ++ id ++ " controller execution has not reached done"))
      return (gate, result)
    | _ => throw (.valueError ("task " ++ id ++ " has no gate-required execution result"))
  | _ => throw (.valueError ("task " ++ id ++ " has no pending stop-gate summary"))

end

/-! ## The decision -/

/-- What `orch gate-allow` and `orch gate-block` are given, and the time they read. -/
structure Decision where
  decision : Text
  reason : Option Text
  decidedAt : Text

namespace Decision

variable (d : Decision) (home id : Text)

def finalStage : Text := if d.decision = ("ALLOW" : Text) then "done" else "blocked"

/-- `_gate_decision_summary` -/
def summary (routing gate result : List (Text × Value)) : List (Text × Value) :=
  let execution := (dictAt "execution" routing).getD []
  [("type", .str "stop_gate_decision"),
    ("task_id", .str id),
    ("decision", .str d.decision),
    ("reason", optText d.reason),
    ("decided_at", .str d.decidedAt),
    ("final_stage", .str d.finalStage),
    ("decision_artifact_path", .str (decisionPath home id)),
    ("gate_status_before", getValue "status" gate),
    ("request_id", getValue "request_id" result),
    ("request_path", getValue "request_path" execution),
    ("processed_result_path", getValue "processed_result_path" result),
    ("controller_task_id", getValue "controller_task_id" result),
    ("controller_status", getValue "controller_status" result),
    ("controller_lifecycle_stage", getValue "controller_lifecycle_stage" result),
    ("stop_reason", getValue "stop_reason" result),
    ("pattern", getValue "pattern" routing),
    ("profile", getValue "profile" execution),
    ("executor", getValue "executor" routing),
    ("reviewer", getValue "reviewer" routing),
    ("route_source", getValue "route_source" routing)]

/-- What `decided_gate.update` sets. -/
def updates : List (Text × Value) :=
  [("status", .str "decided"),
    ("decision", .str d.decision),
    ("decided_at", .str d.decidedAt),
    ("decision_reason", optText d.reason),
    ("stage", .str d.finalStage),
    ("decision_artifact_path", .str (decisionPath home id))]

def decidedGate (gate : List (Text × Value)) : List (Text × Value) :=
  (d.updates home id).foldl (fun items p => dictSet p.1 p.2 items) gate

/-- The task record with the decision. -/
def decidedTask (task routing gate result : List (Text × Value)) : List (Text × Value) :=
  dictSet "gate_decision" (.obj (d.summary home id routing gate result))
    (dictSet "gate" (.obj (d.decidedGate home id gate)) (dictSet "stage" (.str d.finalStage) task))

/-- The routing with the decision. -/
def decidedRouting (routing gate result : List (Text × Value)) : List (Text × Value) :=
  dictSet "gate_decision" (.obj (d.summary home id routing gate result))
    (dictSet "gate" (.obj (d.decidedGate home id gate)) routing)

end Decision

section
variable (rt : Runtime) (home id : Text)

/-- `path.read_bytes()` -/
def readBytes (files : Files) (path : Text) : Except Exc Bytes :=
  match files path with
  | some bytes => .ok bytes
  | none => .error (.osError "No such file or directory")

/-- `path.read_text(encoding="utf-8")` -/
def readText (files : Files) (path : Text) : Except Exc Text := do
  let bytes ← readBytes files path
  match decodeStrict bytes with
  | some text => return universalNewlines text
  | none => throw .unicodeDecodeError

/-- `_read_yaml` -/
def readRecord (depth : ℕ) (files : Files) (path : Text) : Except Exc Value := do
  let text ← readText files path
  Yaml.readYaml rt depth text

/-- `run_gate_decision` up to its first write: the files it is to write, in order. -/
def decisionWrites (depth : ℕ) (d : Decision) (files : Files) :
    Except Exc (List (Text × List (Text × Value))) := do
  require (d.decision = ("ALLOW" : Text) || d.decision = ("BLOCK" : Text))
    (.valueError ("unsupported gate decision: " ++ d.decision))
  require (files (taskPath home id)).isSome
    (.valueError ("orch start task not found: " ++ id))
  require (files (routingPath home id)).isSome
    (.valueError ("routing decision not found for orch start task: " ++ id))
  let task ← readRecord rt depth files (taskPath home id)
  let routing ← readRecord rt depth files (routingPath home id)
  match task, routing with
  | .obj task, .obj routing => do
    require ((files (decisionPath home id)).isNone && (gateDecision task routing).isNone)
      (.valueError ("stop-gate for task " ++ id ++ " is already decided"))
    let (gate, result) ← requirePendingStopGate rt id task routing
    return [(decisionPath home id, d.summary home id routing gate result),
      (taskPath home id, d.decidedTask home id task routing gate result),
      (routingPath home id, d.decidedRouting home id routing gate result)]
  | _, _ => throw (.valueError ("invalid orch start state for task: " ++ id))

/-- One file after another, up to one that cannot be rendered. -/
def writeAll (room : ℕ) (files : Files) : List (Text × List (Text × Value)) → Files × Except Exc Unit
  | [] => (files, .ok ())
  | (path, data) :: rest =>
    match Yaml.writeYaml rt room data with
    | .ok bytes => writeAll room (Function.update files path (some bytes)) rest
    | .error e => (files, .error e)

/-- What a call leaves behind that ends after its first `reach` writes, and what it raises. -/
def runGateDecision (room depth : ℕ) (d : Decision) (reach : ℕ) (files : Files) :
    Files × Except Exc Unit :=
  match decisionWrites rt home id depth d files with
  | .ok writes => writeAll rt room files (writes.take reach)
  | .error e => (files, .error e)

/-- The files after some calls, each with the writes it reached. -/
def runDecisions (room depth : ℕ) (files : Files) (calls : List (Decision × ℕ)) : Files :=
  calls.foldl (fun files call => (runGateDecision rt home id room depth call.1 call.2 files).1) files

end

end GateFiles

end AgentOrch
