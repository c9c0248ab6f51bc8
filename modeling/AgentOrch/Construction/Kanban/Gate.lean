import AgentOrch.Construction.Kanban.Commands
import AgentOrch.Construction.Yaml
import AgentOrch.Framework.PosixPath

/-!
# The gate of a closeout

`_validate_gate` reads what a closeout left on the disk: the decision, the record and the routing of
its task, and the input of its gate review.  They have to agree with each other, with the binding of
the request and with the journal.
-/

namespace AgentOrch

open Py Json

namespace Kanban

def bindingBegin : Text := "<!-- kanban-closeout-binding:v1 -->"

def bindingEnd : Text := "<!-- /kanban-closeout-binding -->"

/-- `render_closeout_binding` -/
def renderCloseoutBinding (rt : Runtime) (binding : List (Text × Value)) : Text :=
  join "\n" (bindingBegin :: bindingBlockFields.map
    (fun f => f ++ (": " : Text) ++ strValue rt (getValue f binding)) ++ [bindingEnd])

/-- `_embedded_task_summary` -/
def embeddedTaskSummary (rt : Runtime) (text : Text) : Except Exc (Option Text) :=
  match splitFirst "\n## Routing Decision\n" text with
  | none => .ok none
  | some (_, rest) =>
    match find "```json\n" rest with
    | none => .ok none
    | some start =>
      match find "\n```" (rest.drop start) with
      | none => .ok none
      | some stop =>
        match rt.loads false (slice 8 stop (rest.drop start)) with
        | .ok (.obj routing) => .ok (textThat (fun _ => true) (getValue "task_summary" routing))
        | .ok _ => .ok none
        | .error (.jsonDecodeError _) => .ok none
        | .error e => .error e

def isAcceptedDone (e : Event) : Bool :=
  decide (e.kind = ("done" : Text)) && decide (e.result = .accepted)

/-- `json.loads(row["metadata_delta"] or "{}")` -/
def loadsDelta (rt : Runtime) (e : Event) : Except Exc Value :=
  if e.metadataDelta = .null ∨ e.metadataDelta = .text [] then .ok (.obj [])
  else e.metadataDelta.loads rt

/-- `_closeout_already_used`, from the first event on. -/
def closeoutAlreadyUsed (rt : Runtime) (closeoutTaskId : Text) : List Event → Except Exc Bool
  | [] => .ok false
  | e :: rest =>
    if !isAcceptedDone e then closeoutAlreadyUsed rt closeoutTaskId rest
    else match loadsDelta rt e with
      | .ok (.obj delta) =>
        match getValue "binding" delta with
        | .obj binding =>
          if (getValue "closeout_task_id" binding).eqv (.str closeoutTaskId) then .ok true
          else closeoutAlreadyUsed rt closeoutTaskId rest
        | _ => closeoutAlreadyUsed rt closeoutTaskId rest
      | .ok _ => .error (.attributeError "object has no attribute 'get'")
      | .error (.jsonDecodeError _) => closeoutAlreadyUsed rt closeoutTaskId rest
      | .error e => .error e

/-- What `done` meets beside the tables: the files, the clock, `str.lower`, the home of the engine,
and how far a block of YAML may nest. -/
structure Moment where
  disk : Disk
  clock : Clock
  lower : Text → Text
  home : Text
  yamlDepth : ℕ

/-- `value is True` -/
def isTrue : Value → Bool
  | .bool b => b
  | _ => false

/-- `value is False` -/
def isFalse : Value → Bool
  | .bool b => !b
  | _ => false

/-- The `dict` that stands there; anything else is a reason to refuse. -/
def dictOr (reason : Text) : Value → Except Stop (List (Text × Value))
  | .obj items => .ok items
  | _ => .error (.refused reason)

section
variable (pf : Platform) (instant : Text → Option ℤ) (m : Moment)

/-- `home / "tasks" / name` -/
def Moment.tasksFile (name : Text) : Text :=
  (((PurePath.ofText m.home).joinpath "tasks").joinpath name).text

/-- `_read_yaml` of a file; what it raises, `OSError` and `ValueError`, is a reason to refuse. -/
def readYamlFile (reason path : Text) : Except Stop Value :=
  let parsed : Except Exc Value := do
    let text ← m.disk.readText path
    Yaml.readYaml pf.toRuntime m.yamlDepth text
  match parsed with
  | .ok v => .ok v
  | .error (.osError _) => .error (.refused reason)
  | .error e => if e.isValueError then .error (.refused reason) else .error (.raised e)

/-- `canonical_json(a) != canonical_json(b)` is a reason to refuse. -/
def refuseUnlessSame (a b : List (Text × Value)) (reason : Text) : Except Stop Unit := do
  let first ← raising (canonicalJson pf.toRuntime (.obj a))
  let second ← raising (canonicalJson pf.toRuntime (.obj b))
  refuseUnless (decide (first = second)) reason

/-- `_parse_time`; `instant` is the moment `datetime.fromisoformat` reads, where the text has an
offset. -/
def parseTime : Value → Option ℤ
  | .str t => if t.isEmpty then none else instant t
  | _ => none

/-- The decision artifact: its path, the task it names, and what it says. -/
def checkDecision (payload : List (Text × Value)) :
    Except Stop (Text × Text × List (Text × Value)) := do
  match getValue "gate_decision_path" payload with
  | .str path =>
    refuseUnless (!path.isEmpty) "gate_decision_missing"
    refuseUnless (m.disk.isFile path) "gate_decision_missing"
    let supplied := getValue "gate_decision_hash" payload
    refuseUnless (textThat (fun t => !t.isEmpty) supplied).isSome "gate_decision_hash_missing"
    let bytes ← raising (m.disk.readBytes path)
    refuseUnless (supplied.eqv (.str (pf.sha256 bytes))) "gate_decision_hash_mismatch"
    let decision ← dictOr "gate_decision_invalid" (← readYamlFile pf m "gate_decision_invalid" path)
    refuseUnless ((getValue "type" decision).eqv (.str "stop_gate_decision"))
      "gate_decision_invalid"
    match getValue "task_id" decision with
    | .str closeoutTaskId =>
      refuseUnless (!closeoutTaskId.isEmpty) "gate_decision_invalid"
      let found ← raising (m.disk.resolve path)
      let due ← raising (m.disk.resolve
        (m.tasksFile (closeoutTaskId ++ ("-gate-decision.yaml" : Text))))
      refuseUnless (decide (found = due)) "gate_binding_mismatch"
      refuseUnless ((getValue "decision" decision).eqv (.str "ALLOW")) "gate_not_decided"
      return (path, closeoutTaskId, decision)
    | _ => .error (.refused "gate_decision_invalid")
  | _ => .error (.refused "gate_decision_missing")

/-- The record and the routing of the closeout task. -/
def readRecords (closeoutTaskId : Text) :
    Except Stop (List (Text × Value) × List (Text × Value)) := do
  let taskPath := m.tasksFile (closeoutTaskId ++ (".yaml" : Text))
  let routingPath := m.tasksFile (closeoutTaskId ++ ("-routing.yaml" : Text))
  refuseUnless (m.disk.isFile taskPath && m.disk.isFile routingPath) "gate_binding_mismatch"
  let taskValue ← readYamlFile pf m "gate_binding_mismatch" taskPath
  let routingValue ← readYamlFile pf m "gate_binding_mismatch" routingPath
  let task ← dictOr "gate_binding_mismatch" taskValue
  let routing ← dictOr "gate_binding_mismatch" routingValue
  refuseUnless ((getValue "task_id" task).eqv (.str closeoutTaskId) &&
    (getValue "task_id" routing).eqv (.str closeoutTaskId)) "gate_binding_mismatch"
  return (task, routing)

/-- The gate of both records: decided, allowed and done. -/
def checkGate (task routing : List (Text × Value)) : Except Stop (List (Text × Value)) := do
  refuseUnless (isTrue (getValue "stop_gate" routing)) "gate_not_required_route"
  let taskGate ← dictOr "gate_binding_mismatch" (getValue "gate" task)
  let gate ← dictOr "gate_binding_mismatch" (getValue "gate" routing)
  refuseUnlessSame pf taskGate gate "gate_binding_mismatch"
  refuseUnless ((getValue "type" gate).eqv (.str "stop_gate")) "gate_binding_mismatch"
  refuseUnless ((getValue "status" gate).eqv (.str "decided")) "gate_not_decided"
  refuseUnless ((getValue "decision" gate).eqv (.str "ALLOW") &&
    (getValue "stage" gate).eqv (.str "done") && (getValue "stage" task).eqv (.str "done"))
    "gate_not_decided"
  return gate

/-- The decision of both records is that of the artifact. -/
def checkRecordedDecision (path : Text) (decision task routing : List (Text × Value)) :
    Except Stop Unit := do
  let taskDecision ← dictOr "gate_binding_mismatch" (getValue "gate_decision" task)
  let gateDecision ← dictOr "gate_binding_mismatch" (getValue "gate_decision" routing)
  refuseUnlessSame pf taskDecision gateDecision "gate_binding_mismatch"
  refuseUnlessSame pf gateDecision decision "gate_binding_mismatch"
  refuseUnless ((getValue "final_stage" gateDecision).eqv (.str "done")) "gate_not_decided"
  match getValue "decision_artifact_path" gateDecision with
  | .str recorded =>
    let first ← raising (m.disk.resolve recorded)
    let second ← raising (m.disk.resolve path)
    refuseUnless (decide (first = second)) "gate_binding_mismatch"
  | _ => .error (.refused "gate_binding_mismatch")

/-- `provenance`: what the decision has to repeat of the routing. -/
def provenance (routing execution result : List (Text × Value)) : List (Text × Value) :=
  [(("request_id" : Text), getValue "request_id" result),
    ("processed_result_path", getValue "processed_result_path" result),
    ("controller_task_id", getValue "controller_task_id" result),
    ("controller_status", getValue "controller_status" result),
    ("controller_lifecycle_stage", getValue "controller_lifecycle_stage" result),
    ("pattern", getValue "pattern" routing),
    ("profile", getValue "profile" execution),
    ("executor", getValue "executor" routing),
    ("reviewer", getValue "reviewer" routing),
    ("route_source", getValue "route_source" routing)]

/-- The execution of both records is over, and the decision is about it. -/
def checkExecution (gate decision task routing : List (Text × Value)) : Except Stop Unit := do
  let taskResult ← dictOr "gate_binding_mismatch" (getValue "execution_result" task)
  let result ← dictOr "gate_binding_mismatch" (getValue "execution_result" routing)
  refuseUnlessSame pf taskResult result "gate_binding_mismatch"
  refuseUnless ((getValue "controller_lifecycle_stage" result).eqv (.str "done") &&
    (getValue "controller_status" result).eqv (.str "done")) "gate_binding_mismatch"
  let required := getValue "gate_required" result
  let stage := getValue "lifecycle_stage" result
  refuseUnless (if isTrue required then stage.eqv (.str "waiting_user")
    else isFalse required && stage.eqv (getValue "stage" gate)) "gate_binding_mismatch"
  let execution ← dictOr "gate_binding_mismatch" (getValue "execution" routing)
  refuseUnless ((provenance routing execution result).all fun p =>
    (getValue p.1 decision).eqv p.2) "gate_binding_mismatch"

/-- The input of the gate review carries the binding in the summary of the task. -/
def checkReviewInput (closeoutTaskId : Text) (binding : List (Text × Value)) :
    Except Stop Unit := do
  let path := m.tasksFile (closeoutTaskId ++ ("-gate-review-input.md" : Text))
  refuseUnless (m.disk.isFile path) "gate_binding_mismatch"
  let text ← raising (m.disk.readText path)
  match ← raising (embeddedTaskSummary pf.toRuntime text) with
  | none => .error (.refused "gate_binding_mismatch")
  | some summary =>
    refuseUnless (contains (renderCloseoutBinding pf.toRuntime binding) summary)
      "gate_binding_mismatch"

/-- The decision came after the terminal result and the last seal. -/
def checkTimes (decision binding : List (Text × Value)) : Except Stop Unit :=
  match parseTime instant (getValue "decided_at" decision),
      parseTime instant (getValue "terminal_done_at" binding),
      parseTime instant (getValue "last_seal_at" binding) with
  | some decided, some terminal, some last =>
    refuseUnless (decide (terminal < decided) && decide (last < decided)) "gate_stale_candidate"
  | _, _, _ => .error (.refused "gate_stale_candidate")

/-- `_validate_gate` up to its answer. -/
def checkCloseout (db : Db) (payload binding : List (Text × Value)) : Except Stop Unit := do
  let (path, closeoutTaskId, decision) ← checkDecision pf m payload
  let (task, routing) ← readRecords pf m closeoutTaskId
  let gate ← checkGate pf task routing
  checkRecordedDecision pf m path decision task routing
  checkExecution pf gate decision task routing
  checkReviewInput pf m closeoutTaskId binding
  checkTimes instant decision binding
  refuseUnless ((getValue "closeout_task_id" binding).eqv (.str closeoutTaskId))
    "gate_binding_mismatch"
  refuseUnless (!((getValue "night_task_id" binding).eqv (.str closeoutTaskId) ||
    (getValue "night_request_id" binding).eqv (.str closeoutTaskId))) "gate_binding_mismatch"
  let used ← raising (closeoutAlreadyUsed pf.toRuntime closeoutTaskId db.events)
  refuseUnless (!used) "closeout_task_id_reused"

/-- `_validate_gate` -/
def validateGate (db : Db) (_card : Card) (payload binding : List (Text × Value)) :
    Except Exc (Option Text) :=
  match checkCloseout pf instant m db payload binding with
  | .ok _ => .ok none
  | .error (.refused reason) => .ok (some reason)
  | .error (.raised e) => .error e

/-- What a command meets at the moment. -/
def Moment.environment : Environment where
  disk := m.disk
  clock := m.clock
  lower := m.lower
  gate := validateGate pf instant m

end

end Kanban

end AgentOrch
