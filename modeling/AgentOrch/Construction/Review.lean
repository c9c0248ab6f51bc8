import AgentOrch.Construction.RunResult
import AgentOrch.Construction.Profile

/-!
# Tool-less review

An execution-plan reviewer has no tools: it answers with one JSON result, whose text carries a
three-axis block.  `validateReview` checks the block against the packet, and refuses a text that
says `ready` over a block that does not support it.  `ConfiguredRunner.run` puts the validated
block into the receipt of the run.
-/

namespace AgentOrch

open Py Json

def reviewBegin : Text := "<!-- orch-review-result -->"

def reviewEnd : Text := "<!-- /orch-review-result -->"

inductive ReviewKind
  | spec
  | implementation
  deriving DecidableEq

/-- What `validate_review` looks at in an evidence packet. -/
structure ReviewPacket where
  candidateSha256 : Text
  specSha256 : Text
  kind : ReviewKind
  deriving DecidableEq

/-! ## The three-axis block -/

/-- `text.split(REVIEW_BEGIN, 1)[1].split(REVIEW_END, 1)[0]`. -/
def reviewBlock (text : Text) : Option Text :=
  match splitFirst reviewBegin text with
  | none => none
  | some (_, rest) =>
    match splitFirst reviewEnd rest with
    | none => some rest
    | some (block, _) => some block

/-- The text under a key, when it holds a string. -/
def textAt (key : Text) (items : List (Text × Value)) : Option Text :=
  match dictGet key items with
  | some (.str s) => some s
  | _ => none

/-- `d.get(key) == value` for a string. -/
def textIs (key value : Text) (items : List (Text × Value)) : Bool := textAt key items = some value

/-- The text under a key is a string that is not blank. -/
def filledAt (items : List (Text × Value)) (key : Text) : Bool :=
  (textAt key items).any (!isBlank ·)

def axisNames : List Text := ["product_spec", "constraints", "verification"]

def verificationValues (kind : ReviewKind) : List Text :=
  match kind with
  | .spec => ["PASS", "FAIL", "UNKNOWN"]
  | .implementation => ["PASS", "FAIL", "UNKNOWN", "DEFERRED"]

def validAxes (kind : ReviewKind) (axes : List (Text × Value)) : Bool :=
  keysAre axes axisNames &&
    (["product_spec", "constraints"] : List Text).all (fun name =>
      (textAt name axes).any (· ∈ (["PASS", "FAIL", "UNKNOWN"] : List Text))) &&
    (textAt "verification" axes).any (· ∈ verificationValues kind)

/-- `finding.get(key) not in {names}`, which hashes the value. -/
def inSet (value : Option Value) (names : List Text) : Except Exc Bool :=
  match value with
  | some (.arr _) => .error (.typeError "unhashable type: 'list'")
  | some (.obj _) => .error (.typeError "unhashable type: 'dict'")
  | some (.str s) => .ok (s ∈ names)
  | _ => .ok false

/-- The loop over the findings; the answer is their identities. -/
def validateFindings : List Value → Except Exc (List Text)
  | [] => .ok []
  | .obj finding :: rest => do
    require ((["id", "evidence", "minimal_correction", "evidence_that_would_reverse"] :
      List Text).all (filledAt finding)) (.executionConfigError "finding lacks actionable evidence")
    let severity ← inSet (dictGet "severity" finding) ["High", "Medium", "Low"]
    let typed := match dictGet "blocking" finding with
      | some (.bool _) => true
      | _ => false
    require (severity && typed) (.executionConfigError "invalid finding severity/blocking")
    let ids ← validateFindings rest
    return (textAt "id" finding).getD [] :: ids
  | _ :: _ => .error (.executionConfigError "finding lacks actionable evidence")

def requiredEvidence (kind : ReviewKind) : List Text :=
  match kind with
  | .spec => ["owner", "check"]
  | .implementation => ["owner", "check", "gate"]

def validRemaining (kind : ReviewKind) (item : Value) : Bool :=
  match item with
  | .obj item => (requiredEvidence kind).all (filledAt item)
  | _ => false

/-- `f["blocking"]`. -/
def isBlocking (finding : Value) : Bool :=
  match finding with
  | .obj finding =>
    match dictGet "blocking" finding with
    | some (.bool b) => b
    | _ => false
  | _ => false

/-- The object under a key; a missing one reads as empty. -/
def objectAt (key : Text) (items : List (Text × Value)) : List (Text × Value) :=
  match dictGet key items with
  | some (.obj o) => o
  | _ => []

def listAt (key : Text) (items : List (Text × Value)) : List Value :=
  match dictGet key items with
  | some (.arr l) => l
  | _ => []

/-- `ready_axes`, and no finding is blocking. -/
def supportsReady (kind : ReviewKind) (record : List (Text × Value)) : Bool :=
  let axes := objectAt "axes" record
  textIs "product_spec" "PASS" axes && textIs "constraints" "PASS" axes &&
    (textIs "verification" "PASS" axes ||
      (kind = .implementation && textIs "verification" "DEFERRED" axes)) &&
    !(listAt "findings" record).any isBlocking

/-- The checks on the axes, the findings and the remaining evidence of a record. -/
def checkRecord (packet : ReviewPacket) (record : List (Text × Value)) : Except Exc Unit := do
  require (textIs "candidate_sha256" packet.candidateSha256 record &&
    textIs "spec_sha256" packet.specSha256 record)
    (.executionConfigError "review candidate/spec mismatch")
  match dictGet "axes" record with
  | some (.obj axes) =>
    require (validAxes packet.kind axes) (.executionConfigError "invalid review axes")
    match dictGet "findings" record, dictGet "remaining_evidence" record with
    | some (.arr findings), some (.arr remaining) =>
      let ids ← validateFindings findings
      require ids.Nodup (.executionConfigError "duplicate finding identity")
      let unknown := axisNames.any fun name => textIs name "UNKNOWN" axes
      let deferred := textIs "verification" "DEFERRED" axes
      require (!unknown || !remaining.isEmpty)
        (.executionConfigError "UNKNOWN has no evidence owner")
      require (remaining.all (validRemaining packet.kind)) (.executionConfigError
        ("remaining evidence lacks " ++ join "/" (requiredEvidence packet.kind)))
      require (!deferred || !remaining.isEmpty)
        (.executionConfigError "DEFERRED has no evidence owner/gate")
      require (remaining.isEmpty || unknown || deferred)
        (.executionConfigError "remaining evidence requires UNKNOWN or DEFERRED")
    | _, _ => throw (.executionConfigError "missing review findings/evidence")
  | _ => throw (.executionConfigError "invalid review axes")

/-- Everything `validate_review` checks before it looks at what the text says about itself. -/
def reviewRecord (rt : Runtime) (text : Text) (packet : ReviewPacket) :
    Except Exc (List (Text × Value)) := do
  require (count reviewBegin text = 1 && count reviewEnd text = 1)
    (.executionConfigError "review result must contain one three-axis block")
  match reviewBlock text with
  | none => throw (.executionConfigError "invalid review JSON")
  | some block =>
    match rt.loads true block with
    | .error e => throw (if e.isValueError then .executionConfigError "invalid review JSON" else e)
    | .ok (.obj record) =>
      checkRecord packet record
      return record
    | .ok _ => throw (.executionConfigError "review candidate/spec mismatch")

/-- `text.rstrip().splitlines()[-1] == "ORCHESTRATOR_OUTCOME: ready"`. -/
def endsReady (text : Text) : Bool :=
  (splitlines (rstrip text)).getLast? = some ("ORCHESTRATOR_OUTCOME: ready" : Text)

def validateReview (rt : Runtime) (text : Text) (packet : ReviewPacket) :
    Except Exc (List (Text × Value)) := do
  let record ← reviewRecord rt text packet
  require (!endsReady text || supportsReady packet.kind record)
    (.executionConfigError "ready contradicts review evidence")
  return record

/-! ## The provider's JSON -/

/-- The result objects among the lines of the output. -/
def resultLines (rt : Runtime) : List Text → Except Exc (List (List (Text × Value)))
  | [] => .ok []
  | line :: rest =>
    match rt.loads true line with
    | .error e => if e.isValueError then resultLines rt rest else .error e
    | .ok (.obj item) => do
      let items ← resultLines rt rest
      return if textIs "type" "result" item then item :: items else items
    | .ok _ => resultLines rt rest

def providerJson (rt : Runtime) (output : Text) : Except Exc (List (Text × Value)) :=
  match rt.loads true output with
  | .ok (.obj payload) =>
    if textIs "type" "result" payload then .ok payload
    else .error (.executionConfigError "not a provider result")
  | .ok _ => .error (.executionConfigError "not a provider result")
  | .error e =>
    if e.isValueError then do
      match ← resultLines rt (splitlines output) with
      | [payload] => return payload
      | _ => throw (.executionConfigError "missing or ambiguous native result JSON")
    else .error e

/-! ## The configured runner -/

inductive Role
  | executor
  | reviewer
  deriving DecidableEq

structure ExecutionChoice where
  role : Role
  provider : Owner
  requestedModel : Option Text
  requestedEffort : Option Text
  model : Text
  effort : Text
  deriving DecidableEq

def optionalText (t : Option Text) : Value := t.elim .null .str

def provenance (requested : Option Text) : Value :=
  .str (if requested.isSome then "explicit" else "role_default")

/-- `to_dict`. -/
def ExecutionChoice.toDict (c : ExecutionChoice) : List (Text × Value) :=
  [("role", .str (match c.role with | .executor => "executor" | .reviewer => "reviewer")),
    ("provider", .str (match c.provider with | .claude => "claude" | .codex => "codex")),
    ("requested_model", optionalText c.requestedModel),
    ("requested_effort", optionalText c.requestedEffort),
    ("model", .str c.model), ("effort", .str c.effort),
    ("model_source", provenance c.requestedModel), ("effort_source", provenance c.requestedEffort)]

/-- A runner configured by an execution plan.  `session` is the binding of a reviewer session,
with the identity the provider must report. -/
structure ConfiguredRunner where
  choice : ExecutionChoice
  planDigest : Text
  command : List Text
  reviewPacket : Option ReviewPacket
  session : Option (Text × List (Text × Value))

namespace ConfiguredRunner

/-- The receipt before anything of the provider's answer is read. -/
def receipt (runner : ConfiguredRunner) (raw : RunResult) : Receipt :=
  ([("schema_version", .int 1), ("plan_digest", .str runner.planDigest)] : Receipt) ++
    runner.choice.toDict ++
    ([("invoked_argv", .arr (runner.command.map .str)),
      ("invocation_verified", .bool (raw.containmentStop.isNone && raw.startedAtMs.isSome)),
      ("provider_reported_model", .null), ("provider_effort_unreported", .bool true),
      ("provider_session_id", .null),
      ("session_binding", runner.session.elim .null fun s => .obj s.2),
      ("sandbox_policy", .str (match runner.choice.role with
        | .executor => "orch-l1-required-v1"
        | .reviewer => "tool-less-review-v1"))] : Receipt)

/-- The result text of a reviewer's answer, once the provider's statements about itself hold. -/
def reviewerText (rt : Runtime) (runner : ConfiguredRunner) (output : Text) :
    Except Exc (List (Text × Value) × Text) := do
  let payload ← providerJson rt output
  let failed := match dictGet "is_error" payload with
    | some (.bool false) => false
    | _ => true
  require (!failed && textIs "subtype" "success" payload)
    (.valueError "provider did not succeed")
  match dictGet "modelUsage" payload with
  | some (.obj usage) =>
    match dictGet runner.choice.model usage with
    | none => throw (.valueError "requested reviewer model was not reported")
    | some entry =>
      let canonical := match entry with
        | .obj entry => textAt "canonicalModel" entry
        | _ => none
      require (canonical = some runner.choice.model)
        (.valueError "reviewer model identity mismatch")
      match dictGet "result" payload with
      | some (.str text) =>
        require (!isBlank text) (.valueError "empty reviewer result")
        require (runner.session.all fun s => textIs "session_id" s.1 payload)
          (.valueError "resume_failed: provider session mismatch")
        return (payload, text)
      | _ => throw (.valueError "empty reviewer result")
  | _ => throw (.valueError "requested reviewer model was not reported")

/-- `except (ValueError, TypeError, KeyError)`. -/
def caught : Exc → Bool
  | .typeError _ | .keyError _ => true
  | e => e.isValueError

/-- `replace(raw, final_response=..., final_response_source=CLAUDE_JSON_PROTOCOL, ...)`. -/
def answer (raw : RunResult) (text : Option Text) (error : Option FinalResponseError)
    (receipt : Receipt) : RunResult :=
  { raw with
    finalResponse := text
    finalResponseSource := some .claudeJson
    finalResponseError := error
    executionReceipt := some receipt }

/-- The answer of a reviewer whose text could not be established. -/
def unreadable (raw : RunResult) (receipt : Receipt) (e : Exc) : RunResult :=
  answer raw none (some .unreadable) (dictSet "verification_error" (.str e.message) receipt)

/-- The receipt once the provider's text is established. -/
def readReceipt (runner : ConfiguredRunner) (raw : RunResult) (payload : List (Text × Value)) :
    Receipt :=
  dictSet "usage_basis" (.str "cumulative")
    (dictSet "provider_session_id" ((dictGet "session_id" payload).getD .null)
      (dictSet "provider_reported_model" (.str runner.choice.model) (runner.receipt raw)))

/-- The receipt with a validated review. -/
def acceptedReceipt (runner : ConfiguredRunner) (raw : RunResult) (payload : List (Text × Value))
    (packet : ReviewPacket) (record : List (Text × Value)) : Receipt :=
  dictSet "candidate_sha256" (.str packet.candidateSha256)
    (dictSet "review" (.obj record) (runner.readReceipt raw payload))

/-- The receipt of a review that breaks the contract. -/
def rejectedReceipt (runner : ConfiguredRunner) (raw : RunResult) (payload : List (Text × Value))
    (message : Text) : Receipt :=
  dictSet "review_contract_error" (.str reviewContractRejected)
    (dictSet "verification_error" (.str message) (runner.readReceipt raw payload))

/-- What `run` makes of the result of the spawned provider. -/
def run (rt : Runtime) (runner : ConfiguredRunner) (raw : RunResult) : Except Exc RunResult :=
  if runner.choice.role ≠ .reviewer then
    .ok { raw with executionReceipt := some (runner.receipt raw) }
  else match runner.reviewerText rt raw.output with
    | .error e => if caught e then .ok (unreadable raw (runner.receipt raw) e) else .error e
    | .ok (payload, text) =>
      match runner.reviewPacket with
      | none => .ok (answer raw (some text) none (runner.readReceipt raw payload))
      | some packet =>
        match validateReview rt text packet with
        | .ok record =>
          .ok (answer raw (some text) none (runner.acceptedReceipt raw payload packet record))
        | .error (.executionConfigError m) =>
          .ok (answer raw (some text) none (runner.rejectedReceipt raw payload m))
        | .error e =>
          if caught e then .ok (unreadable raw (runner.readReceipt raw payload) e) else .error e

/-! ### What a reviewer's run returns -/

section
variable {rt : Runtime} {runner : ConfiguredRunner} {raw result : RunResult}

/-- The three ways a reviewer run with a packet comes back. -/
inductive ReviewerResult (rt : Runtime) (runner : ConfiguredRunner) (packet : ReviewPacket)
    (raw : RunResult) : RunResult → Prop
  | unreadable (receipt : Receipt) :
    ReviewerResult rt runner packet raw (answer raw none (some .unreadable) receipt)
  | rejected (payload : List (Text × Value)) (text message : Text)
    (htext : runner.reviewerText rt raw.output = .ok (payload, text))
    (hreview : validateReview rt text packet = .error (.executionConfigError message)) :
    ReviewerResult rt runner packet raw
      (answer raw (some text) none (runner.rejectedReceipt raw payload message))
  | accepted (payload : List (Text × Value)) (text : Text) (record : List (Text × Value))
    (htext : runner.reviewerText rt raw.output = .ok (payload, text))
    (hreview : validateReview rt text packet = .ok record) :
    ReviewerResult rt runner packet raw
      (answer raw (some text) none (runner.acceptedReceipt raw payload packet record))

lemma run_reviewer {packet : ReviewPacket} (hrole : runner.choice.role = .reviewer)
    (hpacket : runner.reviewPacket = some packet) (h : runner.run rt raw = .ok result) :
    ReviewerResult rt runner packet raw result := by
  unfold run at h
  rw [if_neg (by simp [hrole])] at h
  split at h
  · split_ifs at h
    cases h
    exact .unreadable _
  · next payload text htext =>
    simp only [hpacket] at h
    split at h
    · next record hrecord =>
      cases h
      exact .accepted payload text record htext hrecord
    · next m hm =>
      cases h
      exact .rejected payload text m htext hm
    · split_ifs at h
      cases h
      exact .unreadable _

lemma run_accepted {packet : ReviewPacket} {payload record : List (Text × Value)} {text : Text}
    (hrole : runner.choice.role = .reviewer) (hpacket : runner.reviewPacket = some packet)
    (htext : runner.reviewerText rt raw.output = .ok (payload, text))
    (hrecord : validateReview rt text packet = .ok record) :
    runner.run rt raw =
      .ok (answer raw (some text) none (runner.acceptedReceipt raw payload packet record)) := by
  unfold run
  rw [if_neg (by simp [hrole]), htext]
  simp only [hpacket, hrecord]

/-- The keys a receipt starts out with. -/
lemma dictKeys_readReceipt (payload : List (Text × Value)) :
    dictKeys (runner.readReceipt raw payload) =
      ["schema_version", "plan_digest", "role", "provider", "requested_model", "requested_effort",
        "model", "effort", "model_source", "effort_source", "invoked_argv", "invocation_verified",
        "provider_reported_model", "provider_effort_unreported", "provider_session_id",
        "session_binding", "sandbox_policy", "usage_basis"] := by
  have hreceipt : dictKeys (runner.receipt raw) =
      ["schema_version", "plan_digest", "role", "provider", "requested_model", "requested_effort",
        "model", "effort", "model_source", "effort_source", "invoked_argv", "invocation_verified",
        "provider_reported_model", "provider_effort_unreported", "provider_session_id",
        "session_binding", "sandbox_policy"] := rfl
  unfold readReceipt
  rw [dictKeys_dictSet, dictKeys_dictSet, dictKeys_dictSet, hreceipt]
  decide

lemma reviewRejected_rejected (payload : List (Text × Value)) (m : Text) (text : Option Text) :
    (answer raw text none (runner.rejectedReceipt raw payload m)).reviewRejected = true := by
  simp [RunResult.reviewRejected, answer, rejectedReceipt, dictGet_dictSet]

lemma reviewRejected_accepted (payload : List (Text × Value)) (packet : ReviewPacket)
    (record : List (Text × Value)) (text : Option Text) :
    (answer raw text none
      (runner.acceptedReceipt raw payload packet record)).reviewRejected = false := by
  have hnone : dictGet "review_contract_error" (runner.readReceipt raw payload) = none := by
    refine Option.not_isSome_iff_eq_none.mp fun h => ?_
    have := dictGet_isSome.mp h
    rw [dictKeys_readReceipt] at this
    revert this
    decide
  have h1 : (("candidate_sha256" : Text) = "review_contract_error") = False := by decide
  have h2 : (("review" : Text) = "review_contract_error") = False := by decide
  simp [RunResult.reviewRejected, answer, acceptedReceipt, dictGet_dictSet, h1, h2, hnone]

lemma review_accepted (payload : List (Text × Value)) (packet : ReviewPacket)
    (record : List (Text × Value)) :
    dictGet "review" (runner.acceptedReceipt raw payload packet record) = some (.obj record) := by
  have h1 : (("candidate_sha256" : Text) = "review") = False := by decide
  simp [acceptedReceipt, dictGet_dictSet, h1]

end

end ConfiguredRunner

end AgentOrch
