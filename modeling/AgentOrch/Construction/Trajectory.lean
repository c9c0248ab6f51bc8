import AgentOrch.Construction.Exceptions
import AgentOrch.Framework.JsonText
import AgentOrch.Framework.Regex

/-!
# Trajectory events

The schema of the audit trajectory: the closed vocabularies, the shapes of identifiers and digests,
the patterns that give a credential away, and the typed fields of an event.

`Event.toValue` is the document of an event, its keys in the order the canonical encoding puts them
in.
-/

namespace AgentOrch

open Py Json

/-! ## The platform -/

/-- A lower-case hexadecimal digit. -/
def isHexDigit (c : CodePoint) : Bool := isAsciiDigit c || (0x61 ≤ c.val && c.val ≤ 0x66)

/-- `^[0-9a-f]{64}$` -/
def isHexDigest (t : Text) : Bool := t.length == 64 && t.all isHexDigit

/-- The interpreter, its Unicode normalization form C, its SHA-256 in hexadecimal, and how deep
a recursive walk over a value may go.  Text in ASCII is in normal form. -/
structure Platform extends Runtime where
  nfc : Text → Text
  sha256 : Bytes → Text
  walkDepth : ℕ
  nfc_ascii : ∀ t : Text, (t.all fun c => c.val < 0x80) = true → nfc t = t
  sha256_hex : ∀ bytes, isHexDigest (sha256 bytes) = true

/-- No normalization at all is one. -/
lemma id_ascii (t : Text) (_ : (t.all fun c => c.val < 0x80) = true) : id t = t := rfl

/-- `json.dumps(v, ensure_ascii=False, sort_keys=True, separators=(",", ":"), allow_nan=False)`. -/
def Runtime.dumpsSorted (rt : Runtime) (v : Value) : Except Exc Text :=
  match Json.dumps rt.dumpsDepth rt.floatRepr v with
  | .ok t => .ok t
  | .error .depth => .error .recursionError
  | .error .digits =>
    .error (.valueError "Exceeds the limit (4300 digits) for integer string conversion")
  | .error .notNumber => .error (.valueError "Out of range float values are not JSON compliant")

/-- `text.encode("utf-8")`. -/
def encoded (t : Text) : Except Exc Bytes :=
  match encodeStrict t with
  | some bytes => .ok bytes
  | none => .error .unicodeEncodeError

lemma encoded_ok {t : Text} {bytes : Bytes} (h : encoded t = .ok bytes) :
    decodeStrict bytes = some t := by
  unfold encoded encodeStrict at h
  by_cases ht : Py.Encodable t
  · rw [if_pos ht] at h
    rw [← Except.ok.inj h, ← encodeReplace_of_encodable ht, decodeStrict_encode ht]
  · rw [if_neg ht] at h
    cases h

lemma encoded_inj {s t : Text} {bytes : Bytes} (hs : encoded s = .ok bytes)
    (ht : encoded t = .ok bytes) : s = t :=
  Option.some.inj ((encoded_ok hs).symm.trans (encoded_ok ht))

namespace Trajectory

/-! ## Vocabularies -/

def supportedEventTypes : List Text :=
  ["task.created", "task.transition.committed", "stage.claimed", "stage.settled",
    "provider.dispatch_intent", "provider.dispatched", "provider.settled", "session.bound",
    "session.rebound", "evidence.sealed", "migration.baseline"]

def unhashedKeys : List Text :=
  ["schema_version", "trajectory_id", "seq", "event_id", "event_type", "event_version",
    "recorded_at_ms", "task", "run", "invocation_id", "workflow_attempt_ref", "session_ref",
    "parent_event_id", "causal_event_ids", "actor", "body", "evidence_refs", "sensitivity",
    "retention_class", "normalizer_version", "prev_event_hash"]

def topLevelKeys : List Text := "event_hash" :: unhashedKeys

def taskStatuses : List Text :=
  ["queued", "running", "waiting_user", "blocked", "done", "failed", "paused"]

def actorKinds : List Text :=
  ["controller", "provider", "tool", "user", "gate", "subagent", "migrator"]

def sensitivities : List Text := ["public", "internal", "sensitive"]

def retentionClasses : List Text :=
  ["structural", "task-lifecycle", "sealed-evidence", "ephemeral-ref"]

def availabilities : List Text := ["present", "unavailable", "corrupt"]

def usageBases : List Text := ["per-turn", "cumulative", "delta-from-cumulative", "unavailable"]

/-- `sorted(MISSING_DOMAINS)`. -/
def missingDomains : List Text :=
  ["approval", "context", "evidence", "gate", "join", "prompt", "provider", "session", "subagent",
    "tool", "usage"]

def transitionReasonCodes : List Text :=
  ["task_created", "stage_completed", "edge_cap", "transition_cap", "needs_user_decision",
    "resumed", "orphaned_running", "provider_preflight_failed", "other"]

def outcomeCodes : List Text :=
  ["allow", "applied", "block", "blocked", "contract_findings", "contract_pass", "drafted",
    "implemented", "needs_correction", "needs_repair", "needs_revision", "needs_simplification",
    "needs_user_decision", "prerun_done", "produced", "ready", "repaired", "review", "reviewed",
    "revised", "simplified", "validated", "other"]

def stageClassifications : List Text := ["success", "blocked", "paused", "waiting_user", "failed"]

def providerResultClasses : List Text := ["success", "blocked", "paused", "failed", "unknown"]

def usageUnavailableReasonCodes : List Text :=
  ["provider_cli_usage_not_reported", "runner_usage_unavailable", "usage_basis_unverified",
    "not_applicable_provider_preflight_failed", "other"]

def sessionReboundReasonCodes : List Text :=
  ["provider_session_replaced", "session_unavailable", "session_corrupt", "session_expired",
    "resume", "other"]

def ownerRoles : List Text := ["executor", "reviewer"]

def evidenceKinds : List Text :=
  ["run-manifest", "transport-receipt", "session-binding", "checkpoint", "final-response"]

def sealKinds : List Text :=
  ["db-committed-run-manifest", "controller-receipt", "session-binding", "checkpoint"]

/-- `EVIDENCE_SEAL_KINDS[kind]`. -/
def evidenceSealKind (kind : Text) : Text :=
  if kind = "transport-receipt" then "controller-receipt"
  else if kind = "session-binding" then "session-binding"
  else if kind = "checkpoint" then "checkpoint"
  else "db-committed-run-manifest"

def normalizerVersion : Text := "trajectory-v1"

/-! ## Shapes of text -/

def isLowerLetter (c : CodePoint) : Bool := 0x61 ≤ c.val && c.val ≤ 0x7A

/-- `^[a-z0-9][a-z0-9._:-]{0,127}$` -/
def isIdentifier (t : Text) : Bool :=
  t.length ≤ 128 && (t.head?.any fun c => isLowerLetter c || isAsciiDigit c) &&
    t.all fun c => isLowerLetter c || isAsciiDigit c || decide (c ∈ ("._:-" : Text))

/-- `^sha256:[0-9a-f]{64}$` -/
def isDigest (t : Text) : Bool :=
  ("sha256:" : Text).isPrefixOf t && isHexDigest (t.drop 7)

/-- `str(uuid.UUID(value)) == value`, which only the canonical spelling passes. -/
def isUuid (t : Text) : Bool :=
  t.length == 36 && t.zipIdx.all fun (c, i) =>
    if i = 8 ∨ i = 13 ∨ i = 18 ∨ i = 23 then c == 0x2D else isHexDigit c

/-- `^[A-Za-z0-9._-]+$` -/
def isPathSegment (t : Text) : Bool :=
  !t.isEmpty && t.all fun c => isAsciiLetter c || isAsciiDigit c || decide (c ∈ ("._-" : Text))

/-- A relative path in normal form: with no empty, `.` or `..` component it is not absolute, has
parts, and is spelled the way `as_posix` spells it. -/
def isNormalPath (t : Text) : Bool :=
  (splitOnChar 0x2F t).all fun part => !(decide (part ∈ (["", ".", ".."] : List Text)))

def isMediaWord (t : Text) : Bool :=
  (t.head?.any fun c => isLowerLetter c || isAsciiDigit c) &&
    t.all fun c => isLowerLetter c || isAsciiDigit c || decide (c ∈ (".+-" : Text))

/-- `^[a-z0-9][a-z0-9.+-]*/[a-z0-9][a-z0-9.+-]*$` -/
def isMediaType (t : Text) : Bool :=
  match splitOnChar 0x2F t with
  | [main, sub] => isMediaWord main && isMediaWord sub
  | _ => false

/-! ## Detectable secrets -/

open Regex in
/-- `[...]{n,}` of one character class. -/
def atLeast (n : ℕ) (p : CodePoint → Bool) : Regex :=
  concat (List.replicate n (.set p) ++ [.star (.set p)])

def isTokenChar (c : CodePoint) : Bool :=
  isAsciiLetter c || isAsciiDigit c || decide (c ∈ ("_-" : Text))

def isUpperOrDigit (c : CodePoint) : Bool := (0x41 ≤ c.val && c.val ≤ 0x5A) || isAsciiDigit c

/-- A character of an assigned credential: a letter, a digit, a dot, an underscore, a slash or a
hyphen.  `IGNORECASE` adds four letters outside ASCII. -/
def isSecretChar (c : CodePoint) : Bool :=
  isAsciiLetter c || isAsciiDigit c || decide (c ∈ ("._/-" : Text)) ||
    decide (c ∈ ([0x130, 0x131, 0x17F, 0x212A] : Text))

open Regex in
def detectableSecretPatterns : List Regex :=
  [concat [lit "-----BEGIN ", .star (.set fun c => isUpperOrDigit c || c == 0x20),
      lit "PRIVATE KEY-----"],
    concat [.wordBoundary,
      oneOf [lit "ghp_", lit "github_pat_", concat [lit "xox", charIn "baprs", lit "-"],
        .seq (lit "sk-") (opt (lit "proj-"))],
      atLeast 8 isTokenChar],
    concat ([.wordBoundary, lit "AKIA"] ++ List.replicate 16 (.set isUpperOrDigit) ++
      [.wordBoundary]),
    concat [oneOf [concat [litI "api", opt (charIn "_-"), litI "key"],
        concat [litI "access", opt (charIn "_-"), litI "token"],
        concat [litI "auth", opt (charIn "_-"), litI "token"],
        litI "token", litI "password", litI "passwd", litI "credential",
        concat [litI "client", opt (charIn "_-"), litI "secret"],
        concat [litI "private", opt (charIn "_-"), litI "key"]],
      charIn ":=", atLeast 8 isSecretChar]]

/-- Some pattern is found in the text. -/
def detectable (u : Unicode) (t : Text) : Bool :=
  detectableSecretPatterns.any fun r => r.found u.isWord t

mutual

/-- Some string of the value, keys aside, looks like a credential. -/
def holdsSecret (u : Unicode) : Value → Bool
  | .str s => detectable u s
  | .arr items => itemsHoldSecret u items
  | .obj items => pairsHoldSecret u items
  | _ => false

def itemsHoldSecret (u : Unicode) : List Value → Bool
  | [] => false
  | v :: rest => holdsSecret u v || itemsHoldSecret u rest

def pairsHoldSecret (u : Unicode) : List (Text × Value) → Bool
  | [] => false
  | (_, v) :: rest => holdsSecret u v || pairsHoldSecret u rest

end

/-- `raise TrajectoryError(message)`. -/
def fail {α : Type} (message : Text) : Except Exc α := .error (.trajectoryError message)

/-- `_reject_detectable_secrets`, a recursive walk. -/
def rejectDetectableSecrets (pf : Platform) (v : Value) : Except Exc Unit :=
  if pf.walkDepth < v.depth then .error .recursionError
  else if holdsSecret pf.unicode v then
    fail "trajectory event contains detectable secret material"
  else .ok ()

/-! ## Events -/

structure RunRef where
  runToken : Text
  stage : Text
  cycle : ℤ
  attempt : ℤ
  deriving DecidableEq

structure Actor where
  kind : Text
  id : Text
  provider : Option Text
  model : Option Text
  deriving DecidableEq

structure UsageEntry where
  basis : Text
  inputTokens : Option ℤ
  outputTokens : Option ℤ
  totalTokens : Option ℤ
  unavailableReasonCode : Option Text
  unavailableReasonDigest : Option Text
  deriving DecidableEq

structure SealRef where
  kind : Text
  schemaVersion : ℤ
  runToken : Text
  manifestHash : Text
  deriving DecidableEq

structure EvidenceRef where
  refId : Text
  kind : Text
  relativePath : Text
  sha256 : Text
  sizeBytes : ℤ
  mediaType : Text
  evidenceSeal : SealRef
  sensitivity : Text
  retentionClass : Text
  availabilityAtAppend : Text
  deriving DecidableEq

/-- The body of an event, one shape for each event type. -/
inductive Body
  | taskCreated (profileDigest inputDigest : Text)
  | transitionCommitted (transitionSeq : ℤ) (operationId : Text) (fromStatus : Option Text)
      (toStatus reasonCode : Text) (reasonDigest outcomeCode outcomeDigest : Option Text)
  | stageClaimed (leaseDigest ownerRole : Text)
  | stageSettled (classification : Text) (outcomeCode outcomeDigest : Option Text) (elapsedMs : ℤ)
      (usage : UsageEntry) (isSealed : Bool)
  | dispatchIntent (policyDigest capabilityDigest : Text)
  | dispatched (transportReceiptRef : Text)
  | providerSettled (resultClass : Text) (elapsedMs : ℤ) (usage : UsageEntry)
      (finalResponseRef : Option Text)
  | sessionBound (role bindingRef : Text)
  | sessionRebound (predecessorEventId reasonCode : Text) (reasonDigest : Option Text)
      (checkpointRef : Text)
  | evidenceSealed (sealVersion : ℤ)
  | migrationBaseline (baselineId sourceSnapshotDigest : Text) (missingDomains : List Text)
      (coverageThroughTransitionSeq : ℤ)
  deriving DecidableEq

/-- An event before it is hashed. -/
structure Event where
  trajectoryId : Text
  seq : ℤ
  eventId : Text
  recordedAtMs : ℤ
  taskId : Text
  revision : ℤ
  run : Option RunRef
  invocationId : Option Text
  workflowAttemptRef : Option Text
  sessionRef : Option Text
  parentEventId : Option Text
  causalEventIds : List Text
  actor : Actor
  body : Body
  evidenceRefs : List EvidenceRef
  sensitivity : Text
  retentionClass : Text
  prevEventHash : Option Text
  deriving DecidableEq

/-- An event with its own hash. -/
structure SealedEvent extends Event where
  eventHash : Text
  deriving DecidableEq

/-- The event type a body belongs to. -/
def Body.eventType : Body → Text
  | .taskCreated .. => "task.created"
  | .transitionCommitted .. => "task.transition.committed"
  | .stageClaimed .. => "stage.claimed"
  | .stageSettled .. => "stage.settled"
  | .dispatchIntent .. => "provider.dispatch_intent"
  | .dispatched .. => "provider.dispatched"
  | .providerSettled .. => "provider.settled"
  | .sessionBound .. => "session.bound"
  | .sessionRebound .. => "session.rebound"
  | .evidenceSealed .. => "evidence.sealed"
  | .migrationBaseline .. => "migration.baseline"

/-- `event_type.startswith("provider.")` -/
def Body.isProvider : Body → Bool
  | .dispatchIntent .. | .dispatched .. | .providerSettled .. => true
  | _ => false

/-- `event_type.startswith("session.")` -/
def Body.isSession : Body → Bool
  | .sessionBound .. | .sessionRebound .. => true
  | _ => false

/-- The event types that belong to one run. -/
def Body.requiresRun : Body → Bool
  | .stageClaimed .. | .stageSettled .. | .evidenceSealed .. => true
  | body => body.isProvider

/-- The event types that belong to no run. -/
def Body.refusesRun : Body → Bool
  | .taskCreated .. | .migrationBaseline .. => true
  | _ => false

/-! ## The document of an event -/

/-- A nullable string. -/
def optText : Option Text → Value
  | none => .null
  | some t => .str t

/-- A nullable integer. -/
def optInt : Option ℤ → Value
  | none => .null
  | some n => .int n

def RunRef.toValue (r : RunRef) : Value :=
  .obj [("attempt", .int r.attempt), ("cycle", .int r.cycle), ("run_token", .str r.runToken),
    ("stage", .str r.stage)]

def Actor.toValue (a : Actor) : Value :=
  .obj [("id", .str a.id), ("kind", .str a.kind), ("model", optText a.model),
    ("provider", optText a.provider)]

def UsageEntry.toValue (u : UsageEntry) : Value :=
  .obj [("basis", .str u.basis), ("input_tokens", optInt u.inputTokens),
    ("output_tokens", optInt u.outputTokens), ("total_tokens", optInt u.totalTokens),
    ("unavailable_reason_code", optText u.unavailableReasonCode),
    ("unavailable_reason_digest", optText u.unavailableReasonDigest)]

def SealRef.toValue (s : SealRef) : Value :=
  .obj [("kind", .str s.kind), ("manifest_hash", .str s.manifestHash),
    ("run_token", .str s.runToken), ("schema_version", .int s.schemaVersion)]

def EvidenceRef.toValue (r : EvidenceRef) : Value :=
  .obj [("availability_at_append", .str r.availabilityAtAppend), ("kind", .str r.kind),
    ("media_type", .str r.mediaType), ("ref_id", .str r.refId),
    ("relative_path", .str r.relativePath), ("retention_class", .str r.retentionClass),
    ("seal", r.evidenceSeal.toValue), ("sensitivity", .str r.sensitivity), ("sha256", .str r.sha256),
    ("size_bytes", .int r.sizeBytes)]

def Body.toValue : Body → Value
  | .taskCreated profileDigest inputDigest =>
    .obj [("input_digest", .str inputDigest), ("profile_digest", .str profileDigest)]
  | .transitionCommitted transitionSeq operationId fromStatus toStatus reasonCode reasonDigest
      outcomeCode outcomeDigest =>
    .obj [("from_status", optText fromStatus), ("operation_id", .str operationId),
      ("outcome_code", optText outcomeCode), ("outcome_digest", optText outcomeDigest),
      ("reason_code", .str reasonCode), ("reason_digest", optText reasonDigest),
      ("to_status", .str toStatus), ("transition_seq", .int transitionSeq)]
  | .stageClaimed leaseDigest ownerRole =>
    .obj [("lease_digest", .str leaseDigest), ("owner_role", .str ownerRole)]
  | .stageSettled classification outcomeCode outcomeDigest elapsedMs usage isSealed =>
    .obj [("classification", .str classification), ("elapsed_ms", .int elapsedMs),
      ("outcome_code", optText outcomeCode), ("outcome_digest", optText outcomeDigest),
      ("sealed", .bool isSealed), ("usage", usage.toValue)]
  | .dispatchIntent policyDigest capabilityDigest =>
    .obj [("capability_digest", .str capabilityDigest), ("policy_digest", .str policyDigest)]
  | .dispatched transportReceiptRef => .obj [("transport_receipt_ref", .str transportReceiptRef)]
  | .providerSettled resultClass elapsedMs usage finalResponseRef =>
    .obj [("elapsed_ms", .int elapsedMs), ("final_response_ref", optText finalResponseRef),
      ("result_class", .str resultClass), ("usage", usage.toValue)]
  | .sessionBound role bindingRef => .obj [("binding_ref", .str bindingRef), ("role", .str role)]
  | .sessionRebound predecessorEventId reasonCode reasonDigest checkpointRef =>
    .obj [("checkpoint_ref", .str checkpointRef), ("predecessor_event_id", .str predecessorEventId),
      ("reason_code", .str reasonCode), ("reason_digest", optText reasonDigest)]
  | .evidenceSealed sealVersion => .obj [("seal_version", .int sealVersion)]
  | .migrationBaseline baselineId sourceSnapshotDigest domains coverage =>
    .obj [("baseline_id", .str baselineId), ("completeness", .str "partial"),
      ("coverage_through_transition_seq", .int coverage),
      ("missing_domains", .arr (domains.map .str)),
      ("source_snapshot_digest", .str sourceSnapshotDigest)]

/-- The items before the place of `event_hash`. -/
def Event.itemsBefore (e : Event) : List (Text × Value) :=
  [("actor", e.actor.toValue), ("body", e.body.toValue),
    ("causal_event_ids", .arr (e.causalEventIds.map .str))]

/-- The items after the place of `event_hash`. -/
def Event.itemsAfter (e : Event) : List (Text × Value) :=
  [("event_id", .str e.eventId), ("event_type", .str e.body.eventType), ("event_version", .int 1),
    ("evidence_refs", .arr (e.evidenceRefs.map EvidenceRef.toValue)),
    ("invocation_id", optText e.invocationId), ("normalizer_version", .str normalizerVersion),
    ("parent_event_id", optText e.parentEventId), ("prev_event_hash", optText e.prevEventHash),
    ("recorded_at_ms", .int e.recordedAtMs), ("retention_class", .str e.retentionClass),
    ("run", (e.run.map RunRef.toValue).getD .null), ("schema_version", .int 1),
    ("sensitivity", .str e.sensitivity), ("seq", .int e.seq), ("session_ref", optText e.sessionRef),
    ("task", .obj [("revision", .int e.revision), ("task_id", .str e.taskId)]),
    ("trajectory_id", .str e.trajectoryId), ("workflow_attempt_ref", optText e.workflowAttemptRef)]

def Event.toValue (e : Event) : Value := .obj (e.itemsBefore ++ e.itemsAfter)

def SealedEvent.toValue (e : SealedEvent) : Value :=
  .obj (e.itemsBefore ++ ((("event_hash" : Text), Value.str e.eventHash) :: e.itemsAfter))

end Trajectory

end AgentOrch
