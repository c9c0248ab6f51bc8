import AgentOrch.Construction.Kanban.Journal

/-!
# What an approval freezes

`build_approval_payload` reads everything an execution of the card would be judged against and puts
it into one payload: the scope, the text of the approved sources, the profile.  Whatever is missing or
out of order is a reason to refuse.
-/

namespace AgentOrch

open Py Json

namespace Kanban

/-- `REQUIRED_RISK_KEYS` -/
def requiredRiskKeys : List Text :=
  ["money", "durable_state", "transaction", "mq", "concurrency", "migration",
    "cross_module_contract", "security", "irreversible_side_effect"]

/-- `GATE_FORCING_RISK_KEYS` -/
def gateForcingRiskKeys : List Text :=
  ["money", "durable_state", "transaction", "migration", "security", "irreversible_side_effect"]

/-- `APPROVAL_MARKER_KEYS` -/
def approvalMarkerKeys : List Text := ["status", "approval", "decision"]

/-- `APPROVAL_MARKER_VALUES` -/
def approvalMarkerValues : List Text := ["approved", "ready", "accepted", "final"]

/-- `spec_is_explicitly_approved` -/
def specIsExplicitlyApproved (lower : Text → Text) (text : Text) : Bool :=
  (splitlines text).any fun line =>
    let stripped := strip ((strip line).dropWhile fun c => decide (c ∈ ("-*# " : Text)))
    match splitFirst ":" stripped with
    | none => false
    | some (key, value) =>
      decide (lower (strip key) ∈ approvalMarkerKeys) &&
        decide (lower (strip value) ∈ approvalMarkerValues)

/-- `valid_pool_key`: `^[a-z0-9][a-z0-9._:-]{0,63}$` -/
def isPoolKey (t : Text) : Bool :=
  decide (t.length ≤ 64) &&
    (t.head?.any fun c => Trajectory.isLowerLetter c || isAsciiDigit c) &&
    t.all fun c => Trajectory.isLowerLetter c || isAsciiDigit c || decide (c ∈ ("._:-" : Text))

/-- The text of a scope column that is not empty. -/
def Card.scopeText (card : Card) (f : ScopeField) : Text := (card.scope f).getD []

section
variable (pf : Platform) (env : Environment)

/-- The text of an approved source and its hash. -/
def readSource (card : Card) (f : ScopeField) : Except Stop (Text × Text) := do
  let path := card.scopeText f
  refuseUnless (env.disk.isFile path) (("missing_artifact:" : Text) ++ f.name)
  let text ← raising (env.disk.readText path)
  refuseUnless (!reservedMarkerIn text) "unsupported_input_framing"
  let bytes ← raising (encoded text)
  return (text, pf.sha256 bytes)

/-- `json.loads` of a column; text that is no JSON is a reason to refuse. -/
def readColumn (card : Card) (f : ScopeField) : Except Stop Value :=
  match pf.loads false (card.scopeText f) with
  | .ok v => .ok v
  | .error (.jsonDecodeError _) => .error (.refused "invalid_json_field")
  | .error e => .error (.raised e)

/-- The items of `risk`, `estimate_by_pool` and `allowed_commands`. -/
def readContract (card : Card) :
    Except Stop (List (Text × Value) × List (Text × Value) × List Value) := do
  match ← readColumn pf card .risk, ← readColumn pf card .estimateByPool,
      ← readColumn pf card .allowedCommands with
  | .obj risk, .obj estimate, .arr commands => return (risk, estimate, commands)
  | _, _, _ => .error (.refused "invalid_json_field")

/-- Every dimension of risk has an answer, and no other has one. -/
def isCompleteRisk (risk : List (Text × Value)) : Bool :=
  (requiredRiskKeys.all fun key => decide (key ∈ dictKeys risk)) &&
    decide (risk.length = requiredRiskKeys.length) &&
    risk.all fun p => match p.2 with
      | .bool _ => true
      | _ => false

/-- A debit for at least one pool, all of them positive. -/
def isEstimate (estimate : List (Text × Value)) : Bool :=
  !estimate.isEmpty && estimate.all fun p => isPoolKey p.1 &&
    match p.2 with
    | .int n => decide (0 < n)
    | _ => false

/-- `str(Path(path).resolve())` of a scope column. -/
def resolved (card : Card) (f : ScopeField) : Except Stop Text :=
  raising (env.disk.resolve (card.scopeText f))

/-- The profile of the card; one that is invalid is a reason to refuse. -/
def readProfile (card : Card) : Except Stop (List (Text × Value)) :=
  match env.disk.loadProfile (card.scopeText .profileName) with
  | .ok snapshot => .ok snapshot
  | .error (.profileError _) => .error (.refused "invalid_profile")
  | .error e => .error (.raised e)

/-- `build_approval_payload` -/
def buildApprovalPayload (card : Card) : Except Stop (List (Text × Value)) := do
  match ScopeField.all.find? fun f => (card.scopeText f).isEmpty with
  | some missing => .error (.refused (("missing_scope:" : Text) ++ missing.name))
  | none =>
    match ([.repoPath, .worktreePath, .gitCommonDir] : List ScopeField).find? fun f =>
        !env.disk.isDir (card.scopeText f) with
    | some missing => .error (.refused (("missing_directory:" : Text) ++ missing.name))
    | none =>
      let (specText, specHash) ← readSource pf env card .specPath
      let (acceptanceText, acceptanceHash) ← readSource pf env card .acceptancePath
      let (reviewText, reviewHash) ← readSource pf env card .specReviewPointer
      let (_, _) ← readSource pf env card .profileName
      let profileSnapshot ← readProfile env card
      let profileHash ← raising (canonicalHash pf (.obj profileSnapshot))
      refuseUnless (specIsExplicitlyApproved env.lower specText) "spec_not_approved"
      refuseUnless (!isBlank acceptanceText) "acceptance_empty"
      refuseUnless (!isBlank reviewText) "spec_review_empty"
      refuseUnless (card.scope .specReviewHash = some reviewHash) "spec_review_hash_mismatch"
      let (risk, estimate, commands) ← readContract pf card
      refuseUnless (isCompleteRisk risk) "incomplete_risk"
      refuseUnless (isEstimate estimate) "invalid_estimate"
      refuseUnless (!commands.isEmpty && commands.all fun v =>
        (textThat (fun t => !isBlank t) v).isSome) "invalid_allowed_commands"
      refuseUnless (commands.all fun v =>
        (textThat (fun t => !reservedMarkerIn t) v).isSome) "unsupported_input_framing"
      refuseUnless (card.scopeText .effort ∈ (["low", "medium", "high"] : List Text))
        "invalid_effort"
      let column (f : ScopeField) : Value := Trajectory.optText (card.scope f)
      let repoPath ← resolved env card .repoPath
      let worktreePath ← resolved env card .worktreePath
      let gitCommonDir ← resolved env card .gitCommonDir
      let specPath ← resolved env card .specPath
      let acceptancePath ← resolved env card .acceptancePath
      let specReviewPointer ← resolved env card .specReviewPointer
      let profilePath ← resolved env card .profileName
      let scope : List (Text × Value) := [
        ("schema_version", .int 1),
        ("card_id", .str card.cardId),
        ("approval_generation", .int (card.approvalGeneration + 1)),
        ("repo_path", .str repoPath),
        ("worktree_path", .str worktreePath),
        ("git_common_dir", .str gitCommonDir),
        ("base_head", column .baseHead),
        ("candidate_fingerprint", column .candidateFingerprint),
        ("change_name", column .changeName),
        ("spec_path", .str specPath),
        ("spec_text", .str specText),
        ("spec_hash", .str specHash),
        ("acceptance_path", .str acceptancePath),
        ("acceptance_text", .str acceptanceText),
        ("acceptance_hash", .str acceptanceHash),
        ("spec_review_pointer", .str specReviewPointer),
        ("spec_review_hash", .str reviewHash)]
      let contract : List (Text × Value) := [
        ("risk", .obj risk),
        ("estimate_by_pool", .obj estimate),
        ("allowed_commands", .arr commands),
        ("profile_path", .str profilePath),
        ("profile_snapshot", .obj profileSnapshot),
        ("profile_hash", .str profileHash),
        ("provider", column .provider),
        ("model", column .model),
        ("effort", column .effort),
        ("routing_digest", column .routingDigest),
        ("config_digest", column .configDigest),
        ("allowed_write_roots", .arr [.str worktreePath]),
        ("forbidden_side_effects",
          .arr [.str "commit", .str "push", .str "merge", .str "deploy", .str "destructive_cleanup"]),
        ("interpretation_envelope", .bool false),
        ("execution_plan", .bool false),
        ("gate_required", .bool (gateForcingRiskKeys.any fun key => (getValue key risk).truthy))]
      return scope ++ contract

end

end Kanban

end AgentOrch
