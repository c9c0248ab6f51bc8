import AgentOrch.Construction.Trajectory

/-!
# Validating and sealing events

The checks `_validate_event` makes, in its order, and the one canonical encoding that is hashed and
stored.  A check reads a JSON value and returns what it stands for, so what a document is taken for
only exists where the document passed.
-/

namespace AgentOrch

open Py Json

namespace Trajectory

/-! ## Checks on one value -/

section Checks

variable (pf : Platform)

/-- `_keys` -/
def keys (value : Value) (expected : List Text) (label : Text) :
    Except Exc (List (Text × Value)) :=
  match value with
  | .obj items => if keysAre items expected then .ok items else fail (label ++ " keys mismatch")
  | _ => fail (label ++ " keys mismatch")

/-- `_integer` -/
def integer (minimum : ℤ) (value : Value) (label : Text) : Except Exc ℤ :=
  let refuse := fail (label ++ " must be an integer >= " ++ decimal minimum)
  match value with
  | .int n => if minimum ≤ n then .ok n else refuse
  | _ => refuse

/-- `_boolean` -/
def boolean (value : Value) (label : Text) : Except Exc Bool :=
  match value with
  | .bool b => .ok b
  | _ => fail (label ++ " must be a boolean")

/-- `None`, or what the check makes of the value. -/
def nullable {α : Type} (check : Value → Text → Except Exc α) (value : Value) (label : Text) :
    Except Exc (Option α) :=
  match value with
  | .null => .ok none
  | v => (check v label).map some

/-- `_text` -/
def text (value : Value) (label : Text) : Except Exc Text :=
  match value with
  | .str [] => fail (label ++ " must be a non-empty string")
  | .str t => if pf.nfc t = t then .ok t else fail (label ++ " must be NFC-normalized")
  | _ => fail (label ++ " must be a non-empty string")

/-- `if not condition: raise TrajectoryError(message)`. -/
def check (condition : Bool) (message : Text) : Except Exc Unit :=
  require condition (.trajectoryError message)

/-- The one string a field may hold. -/
def constant (expected message : Text) (value : Value) : Except Exc Unit :=
  match value with
  | .str t => check (t = expected) message
  | _ => fail message

/-- A text of the given shape. -/
def textThat (shape : Text → Bool) (complaint : Text) (value : Value) (label : Text) :
    Except Exc Text := do
  let t ← text pf value label
  check (shape t) (label ++ complaint)
  return t

/-- `_identifier` -/
def identifier := textThat pf isIdentifier " is not a stable identifier"

/-- `_uuid` -/
def uuid := textThat pf isUuid " must be a canonical UUID"

/-- `_digest` -/
def digest := textThat pf isDigest " must be a sha256 digest"

/-- `_ref_id` -/
def refId (value : Value) (label : Text) : Except Exc Text := do
  let t ← text pf value label
  check (("evref:" : Text).isPrefixOf t) (label ++ " must start with evref:")
  let _ ← uuid pf (.str (t.drop 6)) label
  return t

/-- `_enum` -/
def enum (allowed : List Text) (value : Value) (label : Text) : Except Exc Text := do
  let t ← text pf value label
  check (t ∈ allowed) ("unsupported " ++ label)
  return t

/-- `_enum_with_other_digest` -/
def enumWithOtherDigest (allowed : List Text) (value digestValue : Value) (label digestLabel : Text) :
    Except Exc (Text × Option Text) := do
  let code ← enum pf allowed value label
  let normalizedDigest ← nullable (digest pf) digestValue digestLabel
  check (decide (code = ("other" : Text)) == normalizedDigest.isSome)
    (digestLabel ++ " is required only for " ++ label ++ "=other")
  return (code, normalizedDigest)

/-- A nullable code: its digest stands only beside it. -/
def nullableOutcome (allowed : List Text) (value digestValue : Value) (label digestLabel : Text) :
    Except Exc (Option Text × Option Text) :=
  match value, digestValue with
  | .null, .null => .ok (none, none)
  | .null, _ => fail (digestLabel ++ " requires outcome_code")
  | v, d => (enumWithOtherDigest pf allowed v d label digestLabel).map fun p => (some p.1, p.2)

/-- The text of a string. -/
def textOf : Value → Option Text
  | .str t => some t
  | _ => none

/-- The strings of a list that is sorted and holds no item twice. -/
def sortedUnique (value : Value) (complaint : Text) : Except Exc (List Text) :=
  match value with
  | .arr items =>
    match items.mapM textOf with
    | some texts => do
      check (texts = sorted texts) complaint
      return texts
    | none => fail complaint
  | _ => fail complaint

/-! ## Checks on the parts of an event -/

/-- `_validate_usage` -/
def validateUsage (value : Value) (label : Text) : Except Exc UsageEntry := do
  let items ← keys value ["basis", "input_tokens", "output_tokens", "total_tokens",
    "unavailable_reason_code", "unavailable_reason_digest"] label
  let basis ← enum pf usageBases (getValue "basis" items) (label ++ ".basis")
  let inputTokens ← nullable (integer 0) (getValue "input_tokens" items) (label ++ ".input_tokens")
  let outputTokens ←
    nullable (integer 0) (getValue "output_tokens" items) (label ++ ".output_tokens")
  let totalTokens ← nullable (integer 0) (getValue "total_tokens" items) (label ++ ".total_tokens")
  let reason := getValue "unavailable_reason_code" items
  let reasonDigest := getValue "unavailable_reason_digest" items
  if basis = ("unavailable" : Text) then do
    let (code, codeDigest) ← enumWithOtherDigest pf usageUnavailableReasonCodes reason reasonDigest
      (label ++ ".unavailable_reason_code") (label ++ ".unavailable_reason_digest")
    check (inputTokens.isNone && outputTokens.isNone && totalTokens.isNone)
      (label ++ " unavailable usage cannot carry token counts")
    return ⟨basis, inputTokens, outputTokens, totalTokens, some code, codeDigest⟩
  else match reason, reasonDigest with
    | .null, .null => return ⟨basis, inputTokens, outputTokens, totalTokens, none, none⟩
    | _, _ => fail (label ++ " unavailable reason fields must be null when usage is available")

/-- The seal of an evidence reference of the given kind. -/
def validateSeal (kind : Text) (value : Value) (label : Text) : Except Exc SealRef := do
  let items ← keys value ["kind", "schema_version", "run_token", "manifest_hash"] (label ++ ".seal")
  let sealKind ← enum pf sealKinds (getValue "kind" items) (label ++ ".seal.kind")
  check (sealKind = evidenceSealKind kind) (label ++ ".seal.kind does not match evidence kind")
  let version ← integer 1 (getValue "schema_version" items) (label ++ ".seal.schema_version")
  check (version ∈ ([1, 2, 3] : List ℤ)) ("unsupported " ++ label ++ ".seal.schema_version")
  let runToken ← identifier pf (getValue "run_token" items) (label ++ ".seal.run_token")
  let manifestHash ← textThat pf isHexDigest " must be lowercase hex"
    (getValue "manifest_hash" items) (label ++ ".seal.manifest_hash")
  return ⟨sealKind, version, runToken, manifestHash⟩

/-- `_validate_evidence_ref` -/
def validateEvidenceRef (value : Value) (label : Text) : Except Exc EvidenceRef := do
  let items ← keys value ["ref_id", "kind", "relative_path", "sha256", "size_bytes", "media_type",
    "seal", "sensitivity", "retention_class", "availability_at_append"] label
  let id ← refId pf (getValue "ref_id" items) (label ++ ".ref_id")
  let kind ← enum pf evidenceKinds (getValue "kind" items) (label ++ ".kind")
  let path ← textThat pf isNormalPath " must stay below the task artifact root"
    (getValue "relative_path" items) (label ++ ".relative_path")
  check ((splitOnChar 0x2F path).all isPathSegment)
    (label ++ ".relative_path contains an unsafe segment")
  let sha256 ← textThat pf isHexDigest " must be lowercase hex" (getValue "sha256" items)
    (label ++ ".sha256")
  let sizeBytes ← integer 0 (getValue "size_bytes" items) (label ++ ".size_bytes")
  let mediaType ← textThat pf isMediaType " is invalid" (getValue "media_type" items)
    (label ++ ".media_type")
  let evidenceSeal ← validateSeal pf kind (getValue "seal" items) label
  let sensitivity ← enum pf sensitivities (getValue "sensitivity" items) (label ++ ".sensitivity")
  let retentionClass ←
    enum pf retentionClasses (getValue "retention_class" items) (label ++ ".retention_class")
  let availability ← enum pf availabilities (getValue "availability_at_append" items)
    (label ++ ".availability_at_append")
  return ⟨id, kind, path, sha256, sizeBytes, mediaType, evidenceSeal, sensitivity, retentionClass,
    availability⟩

/-- A reference that must stand among the evidence of the event. -/
def refAmong (refs : List EvidenceRef) (value : Value) (label : Text) : Except Exc Text := do
  let id ← refId pf value label
  check (refs.any fun r => r.refId = id) (label ++ " is not present in evidence_refs")
  return id

/-- A code and its digest, where the code may be absent. -/
def outcomePair (items : List (Text × Value)) (label : Text) :
    Except Exc (Option Text × Option Text) :=
  nullableOutcome pf outcomeCodes (getValue "outcome_code" items) (getValue "outcome_digest" items)
    (label ++ ".outcome_code") (label ++ ".outcome_digest")

/-- A ref that proves the seal of a settled stage. -/
def EvidenceRef.provesSeal (r : EvidenceRef) : Bool :=
  r.kind = ("run-manifest" : Text) && r.evidenceSeal.kind = ("db-committed-run-manifest" : Text)

/-- `_validate_body` -/
def validateBody (eventType : Text) (body : Value) (refs : List EvidenceRef) : Except Exc Body :=
  let label : Text := "body[" ++ eventType ++ "]"
  if eventType = ("task.created" : Text) then do
    let items ← keys body ["profile_digest", "input_digest"] label
    let profileDigest ← digest pf (getValue "profile_digest" items) (label ++ ".profile_digest")
    let inputDigest ← digest pf (getValue "input_digest" items) (label ++ ".input_digest")
    return .taskCreated profileDigest inputDigest
  else if eventType = ("task.transition.committed" : Text) then do
    let items ← keys body ["transition_seq", "operation_id", "from_status", "to_status",
      "reason_code", "reason_digest", "outcome_code", "outcome_digest"] label
    let transitionSeq ← integer 1 (getValue "transition_seq" items) (label ++ ".transition_seq")
    let operationId ← identifier pf (getValue "operation_id" items) (label ++ ".operation_id")
    let fromStatus ← nullable (enum pf taskStatuses) (getValue "from_status" items)
      (label ++ ".from_status")
    let toStatus ← enum pf taskStatuses (getValue "to_status" items) (label ++ ".to_status")
    let (reasonCode, reasonDigest) ← enumWithOtherDigest pf transitionReasonCodes
      (getValue "reason_code" items) (getValue "reason_digest" items) (label ++ ".reason_code")
      (label ++ ".reason_digest")
    let (outcomeCode, outcomeDigest) ← outcomePair pf items label
    return .transitionCommitted transitionSeq operationId fromStatus toStatus reasonCode
      reasonDigest outcomeCode outcomeDigest
  else if eventType = ("stage.claimed" : Text) then do
    let items ← keys body ["lease_digest", "owner_role"] label
    let leaseDigest ← digest pf (getValue "lease_digest" items) (label ++ ".lease_digest")
    let ownerRole ← enum pf ownerRoles (getValue "owner_role" items) (label ++ ".owner_role")
    return .stageClaimed leaseDigest ownerRole
  else if eventType = ("stage.settled" : Text) then do
    let items ← keys body ["classification", "outcome_code", "outcome_digest", "elapsed_ms",
      "usage", "sealed"] label
    let classification ← enum pf stageClassifications (getValue "classification" items)
      (label ++ ".classification")
    let (outcomeCode, outcomeDigest) ← outcomePair pf items label
    let elapsedMs ← integer 0 (getValue "elapsed_ms" items) (label ++ ".elapsed_ms")
    let isSealed ← boolean (getValue "sealed" items) (label ++ ".sealed")
    let usage ← validateUsage pf (getValue "usage" items) (label ++ ".usage")
    check (!isSealed || refs.any EvidenceRef.provesSeal)
      (label ++ ".sealed requires a db-committed run-manifest evidence ref")
    return .stageSettled classification outcomeCode outcomeDigest elapsedMs usage isSealed
  else if eventType = ("provider.dispatch_intent" : Text) then do
    let items ← keys body ["policy_digest", "capability_digest"] label
    let policyDigest ← digest pf (getValue "policy_digest" items) (label ++ ".policy_digest")
    let capabilityDigest ←
      digest pf (getValue "capability_digest" items) (label ++ ".capability_digest")
    return .dispatchIntent policyDigest capabilityDigest
  else if eventType = ("provider.dispatched" : Text) then do
    let items ← keys body ["transport_receipt_ref"] label
    let ref ← refAmong pf refs (getValue "transport_receipt_ref" items)
      (label ++ ".transport_receipt_ref")
    return .dispatched ref
  else if eventType = ("provider.settled" : Text) then do
    let items ← keys body ["result_class", "elapsed_ms", "usage", "final_response_ref"] label
    let resultClass ← enum pf providerResultClasses (getValue "result_class" items)
      (label ++ ".result_class")
    let elapsedMs ← integer 0 (getValue "elapsed_ms" items) (label ++ ".elapsed_ms")
    let usage ← validateUsage pf (getValue "usage" items) (label ++ ".usage")
    let ref ← nullable (refAmong pf refs) (getValue "final_response_ref" items)
      (label ++ ".final_response_ref")
    return .providerSettled resultClass elapsedMs usage ref
  else if eventType = ("session.bound" : Text) then do
    let items ← keys body ["role", "binding_ref"] label
    let role ← enum pf ownerRoles (getValue "role" items) (label ++ ".role")
    let ref ← refAmong pf refs (getValue "binding_ref" items) (label ++ ".binding_ref")
    return .sessionBound role ref
  else if eventType = ("session.rebound" : Text) then do
    let items ← keys body ["predecessor_event_id", "reason_code", "reason_digest",
      "checkpoint_ref"] label
    let predecessor ← uuid pf (getValue "predecessor_event_id" items)
      (label ++ ".predecessor_event_id")
    let (reasonCode, reasonDigest) ← enumWithOtherDigest pf sessionReboundReasonCodes
      (getValue "reason_code" items) (getValue "reason_digest" items) (label ++ ".reason_code")
      (label ++ ".reason_digest")
    let ref ← refAmong pf refs (getValue "checkpoint_ref" items) (label ++ ".checkpoint_ref")
    return .sessionRebound predecessor reasonCode reasonDigest ref
  else if eventType = ("evidence.sealed" : Text) then do
    let items ← keys body ["seal_version"] label
    let version ← integer 1 (getValue "seal_version" items) (label ++ ".seal_version")
    check (!refs.isEmpty) (label ++ " requires evidence_refs")
    return .evidenceSealed version
  else if eventType = ("migration.baseline" : Text) then do
    let items ← keys body ["baseline_id", "source_snapshot_digest", "completeness",
      "missing_domains", "coverage_through_transition_seq"] label
    let baselineId ← uuid pf (getValue "baseline_id" items) (label ++ ".baseline_id")
    let sourceDigest ← digest pf (getValue "source_snapshot_digest" items)
      (label ++ ".source_snapshot_digest")
    constant "partial" (label ++ ".completeness must be partial") (getValue "completeness" items)
    let domains ← sortedUnique (getValue "missing_domains" items)
      (label ++ ".missing_domains must be a sorted unique non-empty list")
    check (!domains.isEmpty) (label ++ ".missing_domains must be a sorted unique non-empty list")
    let domains ← domains.mapM fun domain =>
      enum pf missingDomains (.str domain) (label ++ ".missing_domains")
    let coverage ← integer 0 (getValue "coverage_through_transition_seq" items)
      (label ++ ".coverage_through_transition_seq")
    return .migrationBaseline baselineId sourceDigest domains coverage
  else fail ("unsupported event_type: " ++ eventType)

/-- The constant 1, and no other number that equals it. -/
def versionOne (value : Value) (label : Text) : Except Exc Unit :=
  match value with
  | .int 1 => .ok ()
  | _ => fail ("unsupported " ++ label)

/-- The identity of the run an event belongs to. -/
def validateRun (value : Value) (label : Text) : Except Exc RunRef := do
  let items ← keys value ["run_token", "stage", "cycle", "attempt"] label
  let runToken ← identifier pf (getValue "run_token" items) (label ++ ".run_token")
  let stage ← identifier pf (getValue "stage" items) (label ++ ".stage")
  let cycle ← integer 1 (getValue "cycle" items) (label ++ ".cycle")
  let attempt ← integer 1 (getValue "attempt" items) (label ++ ".attempt")
  return ⟨runToken, stage, cycle, attempt⟩

def validateActor (value : Value) : Except Exc Actor := do
  let items ← keys value ["kind", "id", "provider", "model"] "actor"
  let kind ← enum pf actorKinds (getValue "kind" items) "actor.kind"
  let id ← identifier pf (getValue "id" items) "actor.id"
  let provider ← nullable (identifier pf) (getValue "provider" items) "actor.provider"
  let model ← nullable (identifier pf) (getValue "model" items) "actor.model"
  return ⟨kind, id, provider, model⟩

/-- The evidence of an event, in order: no reference twice, and every seal bound to its run. -/
def validateEvidence (run : Option RunRef) (read : List EvidenceRef) :
    List Value → Except Exc (List EvidenceRef)
  | [] => .ok read.reverse
  | value :: rest => do
    let ref ← validateEvidenceRef pf value ("evidence_refs[" ++ decimal read.length ++ "]")
    check (read.all fun r => r.refId ≠ ref.refId) "duplicate evidence ref_id"
    check (run.all fun r => ref.evidenceSeal.runToken = r.runToken)
      "evidence ref run binding does not match event run"
    validateEvidence run (ref :: read) rest

/-- The items of a list. -/
def listOf (value : Value) (complaint : Text) : Except Exc (List Value) :=
  match value with
  | .arr items => .ok items
  | _ => fail complaint

/-- Which event types carry a run and an invocation. -/
def validateIdentities (eventType : Text) (run : Option RunRef) (invocationId : Option Text) :
    Except Exc Unit := do
  let provider := ("provider." : Text).isPrefixOf eventType
  let runRequired := ("stage." : Text).isPrefixOf eventType || provider ||
    decide (eventType = ("evidence.sealed" : Text))
  check (!runRequired || run.isSome) (eventType ++ " requires run identity")
  check (!decide (eventType ∈ (["task.created", "migration.baseline"] : List Text)) || run.isNone)
    (eventType ++ " cannot carry run identity")
  check (!provider || invocationId.isSome) (eventType ++ " requires invocation_id")
  check (provider || invocationId.isNone) (eventType ++ " cannot carry invocation_id in v1")

/-- The checks of `_validate_event` between the keys and the hash. -/
def validateFields (items : List (Text × Value)) : Except Exc Event := do
  versionOne (getValue "schema_version" items) "schema_version"
  let seq ← integer 1 (getValue "seq" items) "seq"
  let eventId ← uuid pf (getValue "event_id" items) "event_id"
  let eventType ← text pf (getValue "event_type" items) "event_type"
  check (eventType ∈ supportedEventTypes) ("unsupported event_type: " ++ eventType)
  versionOne (getValue "event_version" items) "event_version"
  let recordedAtMs ← integer 0 (getValue "recorded_at_ms" items) "recorded_at_ms"
  let task ← keys (getValue "task" items) ["task_id", "revision"] "task"
  let taskId ← identifier pf (getValue "task_id" task) "task.task_id"
  let revision ← integer 0 (getValue "revision" task) "task.revision"
  constant ("task:" ++ taskId) "trajectory_id does not match task_id"
    (getValue "trajectory_id" items)
  let run ← nullable (validateRun pf) (getValue "run" items) "run"
  let invocationId ← nullable (identifier pf) (getValue "invocation_id" items) "invocation_id"
  validateIdentities eventType run invocationId
  let workflowAttemptRef ← nullable (identifier pf) (getValue "workflow_attempt_ref" items)
    "workflow_attempt_ref"
  let sessionRef ← nullable (identifier pf) (getValue "session_ref" items) "session_ref"
  check (!("session." : Text).isPrefixOf eventType || sessionRef.isSome)
    (eventType ++ " requires session_ref")
  let parentEventId ← nullable (uuid pf) (getValue "parent_event_id" items) "parent_event_id"
  let causal ← sortedUnique (getValue "causal_event_ids" items)
    "causal_event_ids must be a sorted unique list"
  let causal ← causal.mapM fun id => uuid pf (.str id) "causal_event_ids item"
  let actor ← validateActor pf (getValue "actor" items)
  let refs ← listOf (getValue "evidence_refs" items) "evidence_refs must be a list"
  let evidence ← validateEvidence pf run [] refs
  let body ← validateBody pf eventType (getValue "body" items) evidence
  let sensitivity ← enum pf sensitivities (getValue "sensitivity" items) "sensitivity"
  let retentionClass ← enum pf retentionClasses (getValue "retention_class" items) "retention_class"
  constant normalizerVersion "unsupported normalizer_version" (getValue "normalizer_version" items)
  let prevEventHash ← nullable (digest pf) (getValue "prev_event_hash" items) "prev_event_hash"
  return {
    trajectoryId := "task:" ++ taskId, seq := seq, eventId := eventId, recordedAtMs := recordedAtMs,
    taskId := taskId, revision := revision, run := run, invocationId := invocationId,
    workflowAttemptRef := workflowAttemptRef, sessionRef := sessionRef,
    parentEventId := parentEventId, causalEventIds := causal, actor := actor, body := body,
    evidenceRefs := evidence, sensitivity := sensitivity, retentionClass := retentionClass,
    prevEventHash := prevEventHash }

/-! ## Canonical encoding -/

mutual

/-- `_normalize` -/
def normalize : Value → Except Exc Value
  | .float _ => fail "unsupported JSON value type: float"
  | .str s => .ok (.str (pf.nfc s))
  | .arr items => (normalizeItems items).map .arr
  | .obj items => (normalizePairs [] items).map .obj
  | v => .ok v

def normalizeItems : List Value → Except Exc (List Value)
  | [] => .ok []
  | v :: rest => do
    let v ← normalize v
    let rest ← normalizeItems rest
    return v :: rest

def normalizePairs (seen : List Text) : List (Text × Value) → Except Exc (List (Text × Value))
  | [] => .ok []
  | (k, v) :: rest =>
    if pf.nfc k ∈ seen then fail "normalization produced a duplicate key"
    else do
      let v ← normalize v
      let rest ← normalizePairs (pf.nfc k :: seen) rest
      return (pf.nfc k, v) :: rest

end

/-- The text `_canonical_json` encodes. -/
def canonicalText (value : Value) : Except Exc Text := do
  let normalized ← normalize pf value
  pf.dumpsSorted normalized

/-- `_canonical_json` -/
def canonicalJson (value : Value) : Except Exc Bytes := do
  let t ← canonicalText pf value
  encoded t

/-- `"sha256:" + hashlib.sha256(data).hexdigest()` -/
def prefixedDigest (data : Bytes) : Text := "sha256:" ++ pf.sha256 data

/-- The items of a document without its own hash. -/
def unhashed (items : List (Text × Value)) : List (Text × Value) :=
  items.filter fun p => p.1 ≠ ("event_hash" : Text)

/-- `_validate_event(event, require_hash=False)` -/
def validateDraft (value : Value) : Except Exc Event := do
  rejectDetectableSecrets pf value
  let items ← keys value unhashedKeys "trajectory event"
  validateFields pf items

/-- `_validate_event(event, require_hash=True)` -/
def validateEvent (value : Value) : Except Exc SealedEvent := do
  rejectDetectableSecrets pf value
  let items ← keys value topLevelKeys "trajectory event"
  let event ← validateFields pf items
  let supplied ← digest pf (getValue "event_hash" items) "event_hash"
  let data ← canonicalJson pf (.obj (unhashed items))
  check (supplied = prefixedDigest pf data) "event_hash mismatch"
  return { event with eventHash := supplied }

/-- `canonical_event_bytes`, with the event the document stands for. -/
def canonicalEventBytes (value : Value) : Except Exc (SealedEvent × Bytes) := do
  let event ← validateEvent pf value
  let data ← canonicalJson pf value
  return (event, data)

/-- `seal_event` -/
def sealEvent (event : Event) : Except Exc SealedEvent := do
  let normalized ← normalize pf event.toValue
  let _ ← validateDraft pf normalized
  let data ← canonicalJson pf normalized
  match normalized with
  | .obj items => validateEvent pf (.obj (items ++ [(("event_hash" : Text),
      Value.str (prefixedDigest pf data))]))
  | _ => fail "trajectory event keys mismatch"

end Checks

end Trajectory

end AgentOrch
