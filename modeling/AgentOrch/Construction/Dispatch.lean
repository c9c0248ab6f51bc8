import AgentOrch.Construction.Intake

/-!
# From a resolution to the queue

Around the checks of a reply stand its receipt, which says of the reply only its shape, and the
writing of the input: the envelope is rendered from the accepted axes with the engine's own write
targets, and read back before anything is enqueued.
-/

namespace AgentOrch

open Py Json

namespace Intake

section
variable (m : Machine)

/-! ## The receipt of a reply -/

/-- What the receipt says of one proposed axis. -/
def axisShape (entry : Value) : Value :=
  match entry with
  | .obj items => .obj [("object", .bool true),
      ("missing_keys", .arr ((sorted (resolverAxisKeys.filter (· ∉ dictKeys items))).map .str)),
      ("unexpected_key_count",
        .int ((dictKeys items).filter (· ∉ resolverAxisKeys)).length)]
  | _ => .obj [("object", .bool false)]

/-- What the receipt says of a proposal. -/
def proposalShape (payload : List (Text × Value)) : List (Text × Value) :=
  [("missing_axes", .arr ((sorted (envelopeAxes.filter (· ∉ dictKeys payload))).map .str)),
    ("unexpected_axis_count", .int ((dictKeys payload).filter (· ∉ allowedKeys)).length),
    ("axes", .obj (envelopeAxes.filterMap fun axis =>
      match (dictGet axis payload).getD .null with
      | .null => none
      | entry => some (axis, axisShape entry)))]

/-- The first proposal of a framed reply; what follows it is cut off at the first end marker. -/
def framedBody (reply : Text) : Option Text :=
  if count resolverBegin reply = 1 ∧ count resolverEnd reply = 1 then
    (splitFirst resolverBegin reply).map fun (_, rest) =>
      ((splitFirst resolverEnd rest).map Prod.fst).getD rest
  else none

/-- What the receipt says of a reply that is there. -/
def replyShape (reply : Text) : Except Exc (List (Text × Value)) :=
  let invalid : List (Text × Value) := [(("shape" : Text), .str "invalid_framing_or_json_object")]
  if resolverReplyMaxChars < reply.length then .ok [(("shape" : Text), .str "oversized")]
  else match framedBody reply with
    | none => .ok invalid
    | some body =>
      match m.loads false body with
      | .ok (.obj payload) => .ok (proposalShape payload)
      | .ok _ => .ok invalid
      | .error e => if e.isValueError then .ok invalid else .error e

/-- `_resolver_shape` -/
def resolverShape (reply : Option Text) : Except Exc (List (Text × Value)) :=
  match reply with
  | none => .ok [("reply_available", .bool false)]
  | some reply => do
    let bytes ← encoded reply
    let shape ← replyShape m reply
    return [(("reply_available" : Text), .bool true), ("reply_chars", .int reply.length),
      ("reply_sha256", .str (m.sha256 bytes))] ++ shape

/-- The receipt of a resolution; no key of its own is one of the shape's. -/
def resolverReceipt (status : Text) (duration : ℕ) (readOnlyReview : Bool)
    (reply : Option Text) : Except Exc Value := do
  let shape ← resolverShape m reply
  return .obj ([(("schema_version" : Text), .int 1), ("status", .str status),
    ("duration_ms", .int duration),
    ("authority_policy",
      .str (if readOnlyReview then "tool-less-external-review-v1" else "source-grounded-v1")),
    ("provider_reported_model", .null), ("provider_usage", .null),
    ("identity_unavailable_reason",
      .str "resolver text transport does not report model or usage"),
    ("raw_reply_retained", .bool false)] ++ shape)

/-! ## The resolution -/

/-- `EnvelopeResolution` -/
structure EnvelopeResolution where
  axes : Option (List (Text × EnvelopeAxis))
  stopReason : Option Text
  candidates : List Text

/-- What the steps around a resolution answer: the resolver's process, the guidance for an operator
whose write targets are not determined, the clock and the file of the receipt. -/
structure Answers where
  invoke : Except Failure Text
  guidance : List Text → Except Failure Text
  duration : ℕ
  receipt : Except Exc Unit

/-- `_envelope_stop_reason` -/
def envelopeStopReason (a : Answers) (axes : List (Text × EnvelopeAxis)) (candidates : List Text) :
    Except Failure Text := do
  let parts := (unresolvedAxes axes).map fun axis =>
    "axis " ++ axis ++ ": " ++ (((dictGet axis axes).bind (·.detail)).getD "None")
  let guidance ← if isUnresolved axes envelopeWriteAxis then (a.guidance candidates).map ([·])
    else .ok []
  return join "; " ((("interpretation envelope unresolved before any provider runs; restate the " ++
    "requirement and re-run orch start") : Text) :: parts ++ guidance)

/-- The sources a resolution reads. -/
def reviewSources (sources : Sources) (readOnlyReview : Bool) : Sources :=
  if readOnlyReview then sources.filter fun s => s.1 ∈ (["task text", "scope"] : List Text)
  else sources

/-- What the checks of a reply give: the axes and the candidates. -/
abbrev Parsed := Except Failure (List (Text × EnvelopeAxis) × List Text)

/-- The status in the receipt. -/
def statusOf (parsed : Parsed) : Text :=
  match parsed with
  | .ok (axes, _) => if unresolvedAxes axes = [] then "accepted" else "unresolved"
  | .error _ => "unresolved"

/-- What a resolution returns once its receipt is written. -/
def resolutionOf (a : Answers) (parsed : Parsed) : Except Failure EnvelopeResolution :=
  match parsed with
  | .error (.envelopeResolverError e) => .ok ⟨none, some
      ("interpretation envelope unresolved before any provider runs; the intake resolver " ++
        "produced nothing the engine may act on: " ++ e), []⟩
  | .error e => .error e
  | .ok (axes, candidates) =>
    if unresolvedAxes axes = [] then .ok ⟨some axes, none, []⟩
    else (envelopeStopReason a axes candidates).map fun reason => ⟨none, some reason, candidates⟩

/-- `_resolve_envelope` of the sources.  The receipt is written before the resolution returns or
raises, and what it raises itself takes the place of that. -/
def resolveEnvelope (a : Answers) (sources : Sources) (task : TaskRecord)
    (readOnlyReview : Bool) : Except Failure EnvelopeResolution := do
  let parsed : Parsed := a.invoke >>= fun reply =>
    parseResolverReply m reply (reviewSources sources readOnlyReview) task readOnlyReview
  let _ ← escaping
    (resolverReceipt m (statusOf parsed) a.duration readOnlyReview a.invoke.toOption)
  escaping a.receipt
  resolutionOf a parsed

/-! ## The payload -/

/-- Whose input is written, and where. -/
structure Place where
  home : PurePath
  taskId : Text
  requestId : Text

/-- `routing.get("stop_gate") is True` -/
def isStopGate (routing : List (Text × Value)) : Bool :=
  match dictGet "stop_gate" routing with
  | some (.bool stopGate) => stopGate
  | _ => false

/-- `_engine_owned_write_targets` -/
def engineOwnedWriteTargets (p : Place) (routing : List (Text × Value)) : List Text :=
  let tasks := p.home.joinpath "tasks"
  PathText.normpath ((tasks.joinpath p.requestId).joinpath "reports").text ::
    if isStopGate routing then [PathText.normpath
      (tasks.joinpath (p.taskId ++ "-gate-review-output.md")).text] else []

/-- The value of the write axis with the engine's own targets behind it. -/
def withEngineOwned (items : List Value) : List Text → List Value
  | [] => items
  | own :: rest =>
    withEngineOwned (if items.any (Value.eqv (.str own)) then items else items ++ [.str own]) rest

/-- The provenances with those of the engine's own targets. -/
def engineSources (items : List (Text × Value)) (own : List Text) : List (Text × Value) :=
  own.foldl (fun source target => dictSet target (.str sourceEngine) source) items

/-- The write axis with the engine's own targets. -/
def ownedAxis (own : List Text) (axis : EnvelopeAxis) : EnvelopeAxis :=
  { axis with
    value := match axis.value with
      | .arr items => .arr (withEngineOwned items own)
      | value => value
    source := match axis.source with
      | .obj items => .obj (engineSources items own)
      | source => source }

/-- What is written of one axis. -/
def axisPayload (axis : EnvelopeAxis) : Value :=
  .obj [("state", .str axis.state), ("value", axis.value),
    ("default_applied", .bool axis.defaultApplied), ("source", axis.source)]

/-- `_envelope_payload` -/
def envelopePayload (axes : List (Text × EnvelopeAxis)) (p : Place)
    (routing : List (Text × Value)) : List (Text × Value) :=
  (("schema_version" : Text), Value.int 1) :: axes.map fun (axis, resolved) =>
    (axis, axisPayload (if axis = envelopeWriteAxis then
      ownedAxis (engineOwnedWriteTargets p routing) resolved else resolved))

/-! ## The input -/

/-- `str(value)` -/
def shown (value : Value) : Text :=
  match value with
  | .str t => t
  | value => reprValue m.toRuntime value

/-- `json.dumps(value, ensure_ascii=False, indent=2)` -/
def dumpsUnsorted (value : Value) : Except Exc Text :=
  match value.lenientRefusal m.dumpsDepth with
  | some .depth => .error .recursionError
  | some _ => .error (.valueError "Exceeds the limit (4300 digits) for integer string conversion")
  | none => .ok (value.laid (.indented 2 m.floatRepr) 0)

/-- The lines of the input before the envelope. -/
def inputLines (p : Place) (task : TaskRecord) (routing : List (Text × Value)) (reason : Text)
    (routingText : Text) : List Text :=
  let field (label key : Text) := "- " ++ label ++ ": " ++ shown m (getValue key routing)
  ["# orch start execution input: " ++ p.taskId, "", "- Reason: " ++ reason,
    field "Pattern" "pattern", field "Executor" "executor", field "Reviewer" "reviewer",
    field "Route source" "route_source", field "Stop gate" "stop_gate",
    field "Complexity" "complexity", "", "## Task", "", strip task.taskDescription, "", "## Scope",
    "", (given task.scope).getD "(none)", "", "## Routing Decision", "", "\x60\x60\x60json",
    routingText, "\x60\x60\x60", ""]

/-- `json.dumps(draft, ensure_ascii=False)` -/
def ExternalDraft.dumped (d : ExternalDraft) : Text :=
  (Value.obj [("path", .str d.path), ("text", .str d.text), ("sha256", .str d.sha256)]).laid
    { Layout.plain m.floatRepr with spell := spellRaw } 0

/-- The section of an external draft. -/
def draftBlock (task : TaskRecord) : Text :=
  match task.externalDraft with
  | none => []
  | some draft => "## External draft (snapshot, not approval)\n" ++ draft.dumped m ++ "\n\n"

/-- The frame of an execution plan, restored from the record. -/
def planBlock (task : TaskRecord) (profile : Except Exc Profile) : Except Exc Text :=
  match task.executionPlan with
  | none => .ok []
  | some (data, digest) => do
    let profile ← profile
    let plan ← Execution.restorePlan m.toPlatform data profile digest
    Execution.renderPlan m.toPlatform plan task.reviewContext task.reviewSession

/-- `_write_execution_input` of a resolution: the text of the file. -/
def writeExecutionInput (p : Place) (task : TaskRecord) (routing : List (Text × Value))
    (reason : Text) (profile : Except Exc Profile) (axes : List (Text × EnvelopeAxis)) :
    Except Exc Text := do
  let routingText ← dumpsUnsorted m (.obj routing)
  require (unresolvedAxes axes = []) (.envelopeError
    ("unresolved interpretation envelope axes: " ++ join ", " (unresolvedAxes axes)))
  let payload := envelopePayload axes p routing
  let block ← renderEnvelopeBlock m.toRuntime (.obj payload)
  let plan ← planBlock m task profile
  let rendered := plan ++ (draftBlock m task ++
    join "\n" (inputLines m p task routing reason routingText ++ [block, ""]))
  let readback ← extractEnvelope m.toRuntime rendered
  require (readback.any fun e => (Value.obj e).eqv (.obj payload)) (.envelopeError
    "rendered envelope block does not read back as the resolved envelope")
  let _ ← encoded rendered
  return rendered

/-! ## Enqueueing -/

/-- What became of a task. -/
inductive Outcome
  | enqueued (input : Text)
  | waitingUser (reason : Text)
  | blocked (reason : Text)

/-- The capability check of a tool-less review. -/
def reviewCapability (task : TaskRecord) (profile : Except Exc Profile) : Except Exc Unit := do
  let profile ← profile
  match task.executionPlan with
  | none => throw (.keyError "'execution_plan'")
  | some (data, digest) => do
    let plan ← Execution.restorePlan m.toPlatform data profile digest
    let reviewer : List (Text × Text) := plan.stages.map fun s => (s.1, s.2.role)
    require (task.taskTypeHint = ("review" : Text) && task.externalDraft.isSome &&
        profile.initialStage = ("review" : Text) && reviewer = [(("review" : Text), ("reviewer" : Text))])
      (.executionConfigError "external review requires one tool-less reviewer stage")

/-- `(OSError, ValueError, KeyError)` -/
def isRefusal : Exc → Bool
  | .osError _ | .keyError _ => true
  | e => e.isValueError

/-- What the steps around an attempt answer. -/
structure Surroundings extends Answers where
  profile : Option (Except Exc Profile)
  read : Text → Except Exc Text
  enqueue : Except Exc Unit

/-- `pattern == "external_spec_review"` -/
def isExternalReview (routing : List (Text × Value)) : Bool :=
  (getValue "pattern" routing).eqv (.str "external_spec_review")

/-- `_enqueue_for_routing` -/
def enqueueForRouting (s : Surroundings) (p : Place) (task : TaskRecord)
    (routing : List (Text × Value)) (reason : Text) : Except Failure Outcome :=
  let pattern := getValue "pattern" routing
  let readOnlyReview := isExternalReview routing
  match s.profile with
  | none => .ok (.blocked ("no tracked profile for pattern " ++ reprValue m.toRuntime pattern))
  | some profile =>
    match if readOnlyReview then reviewCapability m task profile else .ok () with
    | .error e =>
      if isRefusal e then
        .ok (.blocked ("external review capability invalid: " ++ e.message))
      else .error (.raised e)
    | .ok () => do
      let resolved := requirementSources m s.read task >>= fun sources =>
        resolveEnvelope m s.toAnswers sources task readOnlyReview
      match resolved with
      | .error (.raised (.osError _)) =>
        return .blocked ("resolver_receipt_unavailable; no request enqueued" : Text)
      | .error e => throw e
      | .ok resolution =>
        match resolution.axes with
        | none => return .waitingUser (resolution.stopReason.getD "None")
        | some axes =>
          match writeExecutionInput m p task routing reason profile axes with
          | .error (.envelopeError e) =>
            return .blocked ("interpretation envelope framing rejected before enqueue: " ++ e)
          | .error e => throw (.raised e)
          | .ok input => do
            escaping s.enqueue
            return .enqueued input

end

end Intake

end AgentOrch
