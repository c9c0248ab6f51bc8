import AgentOrch.Construction.Usage

/-!
# Run results and their classification

A runner returns a raw result; `classifyResult` settles it.  The typed outcome is read from the
one authoritative text: the last non-blank line if it is a marker, and otherwise the only
distinct marker of the text.
-/

namespace AgentOrch

open Py Json

/-- The classifications the engine assigns; a runner's own result is `raw`. -/
inductive Classification
  | raw
  | success
  | blocked
  | paused
  | waitingUser
  deriving DecidableEq

inductive Protocol
  | wholeStream
  | codexLastMessage
  | claudeJson
  deriving DecidableEq

/-- `FINAL_RESPONSE_ERRORS`. -/
inductive FinalResponseError
  | missing
  | empty
  | unreadable
  | tooLarge
  deriving DecidableEq

def FinalResponseError.text : FinalResponseError → Text
  | missing => "provider_final_response_missing"
  | empty => "provider_final_response_empty"
  | unreadable => "provider_final_response_unreadable"
  | tooLarge => "provider_final_response_too_large"

def reviewContractRejected : Text := "review_contract_rejected"

/-- What a stopped run would have been classified as. -/
structure Candidate where
  outcome : Option Text
  classification : Classification
  reason : Text
  deriving DecidableEq

/-- An execution receipt is a JSON object built by the runner. -/
abbrev Receipt := List (Text × Value)

structure RunResult where
  exitCode : Option ℤ
  output : Text
  outcome : Option Text
  classification : Classification
  reason : Text
  timedOut : Bool
  containmentStop : Option Text
  startedAtMs : Option ℤ
  endedAtMs : Option ℤ
  durationMs : Option ℤ
  model : Option Text
  usage : Usage
  candidate : Option Candidate
  finalResponse : Option Text
  finalResponseSource : Option Protocol
  finalResponseError : Option FinalResponseError
  executionReceipt : Option Receipt

namespace RunResult

/-- `RunResult(exit_code, output, outcome, classification, reason)` with the defaults. -/
def basic (exitCode : Option ℤ) (output : Text) (outcome : Option Text)
    (classification : Classification) (reason : Text) : RunResult where
  exitCode := exitCode
  output := output
  outcome := outcome
  classification := classification
  reason := reason
  timedOut := false
  containmentStop := none
  startedAtMs := none
  endedAtMs := none
  durationMs := none
  model := none
  usage := .empty
  candidate := none
  finalResponse := none
  finalResponseSource := none
  finalResponseError := none
  executionReceipt := none

/-- `authoritative_text`. -/
def authoritativeText (result : RunResult) : Text := result.finalResponse.getD result.output

/-- `receipt.get("role") == "reviewer"`. -/
def isReviewer (result : RunResult) : Bool :=
  match result.executionReceipt.bind (dictGet "role") with
  | some (.str role) => role = ("reviewer" : Text)
  | _ => false

/-- `receipt.get("review_contract_error") == REVIEW_CONTRACT_REJECTED`. -/
def reviewRejected (result : RunResult) : Bool :=
  match result.executionReceipt.bind (dictGet "review_contract_error") with
  | some (.str e) => e = reviewContractRejected
  | _ => false

end RunResult

/-! ## The signatures -/

section
open Regex

/-- `^ORCHESTRATOR_OUTCOME:\s*([A-Za-z0-9_-]+)\s*$`, multi-line. -/
def outcomeRe : Regex :=
  concat [.lineStart, lit "ORCHESTRATOR_OUTCOME:", .star (.set isSpace),
    .group (plus (.set fun c => isAsciiLetter c || isAsciiDigit c || c == 0x5F || c == 0x2D)),
    .star (.set isSpace), .lineEnd]

/-- `RATE_LIMIT_SIGNATURES`. -/
def rateLimitSignatures : List Regex :=
  [concat [.wordBoundary, litI "rate", opt (charIn "_ -"), litI "limit", opt (charIn "_ -"),
      litI "exceeded", .wordBoundary],
    concat [.wordBoundary, litI "you", oneOf [litI "'", litI "’"],
      litI "ve hit your ", opt (litI "usage "), litI "limit", .wordBoundary],
    concat [.wordBoundary, litI "usage limit ", opt (litI "has been "), litI "reached",
      .wordBoundary],
    concat [.wordBoundary, litI "too many requests", .wordBoundary],
    concat [.wordBoundary, opt (concat [litI "http", opt (litI " status"), .star (.set isSpace)]),
      litI "429", .wordBoundary, .star dot, .wordBoundary,
      oneOf [litI "rate", litI "quota", litI "limit"], .wordBoundary]]

/-- `SOCKET_SIGNATURES`. -/
def socketSignatures : List Regex :=
  (["FailedToOpenSocket", "ConnectionRefused", "connection refused", "ECONNREFUSED",
    "failed to connect"] : List Text).map fun t => concat [.wordBoundary, litI t, .wordBoundary]

def anySignature (rt : Runtime) (signatures : List Regex) (output : Text) : Bool :=
  signatures.any fun r => found rt.unicode.isWord r output

/-! ## Reading the outcome -/

/-- `_final_outcome_marker`: the marker on the last non-blank line. -/
def finalOutcomeMarker (rt : Runtime) (output : Text) : Option Text :=
  match (splitlines output).reverse.find? fun line => !isBlank line with
  | none => none
  | some line => (matchStart rt.unicode.isWord outcomeRe (strip line)).join

inductive Reading
  | missing
  | ambiguous
  | read (outcome : Text)
  deriving DecidableEq

/-- The outcome `classify_result` reads off the authoritative text. -/
def readOutcome (rt : Runtime) (authoritative : Text) : Reading :=
  match finalOutcomeMarker rt authoritative with
  | some outcome => .read outcome
  | none =>
    match findall rt.unicode.isWord outcomeRe authoritative with
    | [] => .missing
    | m :: rest => if rest.any (· ≠ m) then .ambiguous else .read m

end

/-! ## Classification -/

/-- `_telemetry_from`: a source without any usage statement has its output searched. -/
def telemetryFrom (rt : Runtime) (source : RunResult) : Except Exc Usage :=
  if !source.usage.anyReported && (source.usage.unavailableReason.getD []).isEmpty then
    extractUsage rt source.output
  else .ok source.usage

/-- The verdict of `classify_result` when containment did not stop the run. -/
def verdictOf (rt : Runtime) (allowed : List Text) (source : RunResult) :
    Option Text × Classification × Text :=
  if source.timedOut then (none, .blocked, "timeout")
  else if source.exitCode ≠ some 0 then
    if anySignature rt rateLimitSignatures source.output then (none, .paused, "rate_limited")
    else if anySignature rt socketSignatures source.output then
      (none, .blocked, "provider_socket_error")
    else (none, .blocked, "runner_nonzero")
  else match source.finalResponseError with
    | some e => (none, .blocked, e.text)
    | none =>
      if source.reviewRejected then (none, .blocked, reviewContractRejected)
      else match readOutcome rt source.authoritativeText with
        | .missing => (none, .blocked, "missing_outcome")
        | .ambiguous => (none, .blocked, "ambiguous_outcome")
        | .read outcome =>
          if outcome ∈ allowed then (some outcome, .success, "success")
          else (some outcome, .blocked, "unknown_outcome")

/-- A containment stop keeps what the run would have been, for two of its reasons. -/
def candidateOf (rt : Runtime) (allowed : List Text) (source : RunResult) (stop : Text) :
    Option Candidate :=
  if stop ∈ (["protected_root_drift", "workspace_escape"] : List Text) then
    let (outcome, classification, reason) := verdictOf rt allowed source
    some ⟨outcome, classification, reason⟩
  else none

/-- `classify_result`. -/
def classifyResult (rt : Runtime) (allowed : List Text) (source : RunResult) :
    Except Exc RunResult := do
  let usage ← telemetryFrom rt source
  let carried := { source with
    usage := usage
    candidate := none
    finalResponseSource := some (source.finalResponseSource.getD .wholeStream) }
  match source.containmentStop with
  | some stop =>
    return { carried with
      outcome := none, classification := .blocked, reason := stop
      candidate := candidateOf rt allowed source stop }
  | none =>
    let (outcome, classification, reason) := verdictOf rt allowed source
    return { carried with
      outcome := outcome, classification := classification, reason := reason }

/-- An outcome is read off the text. -/
lemma readOutcome_subset {rt : Runtime} {text outcome : Text}
    (h : readOutcome rt text = .read outcome) : outcome ⊆ text := by
  unfold readOutcome at h
  cases hmarker : finalOutcomeMarker rt text with
  | some marker =>
      rw [hmarker] at h
      cases h
      unfold finalOutcomeMarker at hmarker
      split at hmarker
      · cases hmarker
      · next line hline =>
        have hmem : line ∈ splitlines text := by
          simpa using List.mem_of_find?_eq_some hline
        have hmatch := Option.join_eq_some_iff.mp hmarker
        exact List.Subset.trans (Regex.matchStart_subset hmatch)
          (List.Subset.trans (strip_subset line) (splitlines_subset hmem))
  | none =>
      simp only [hmarker] at h
      split at h
      · cases h
      · next m rest hfound =>
        split_ifs at h
        cases h
        exact Regex.findall_subset (hfound ▸ List.mem_cons_self ..)

/-- What a verdict states can be stored, if the text it reads can. -/
lemma verdictOf_encodable {rt : Runtime} {allowed : List Text} {source : RunResult}
    (htext : Encodable source.authoritativeText) :
    (∀ o, (verdictOf rt allowed source).1 = some o → Encodable o) ∧
      Encodable (verdictOf rt allowed source).2.2 ∧
      (verdictOf rt allowed source).2.1 ∈
        [Classification.success, .blocked, .paused] := by
  have hread : ∀ o, readOutcome rt source.authoritativeText = .read o → Encodable o :=
    fun o h => htext.of_subset (readOutcome_subset h)
  unfold verdictOf
  split
  · exact ⟨by simp, encodable_ofString _, by simp⟩
  · split
    · split_ifs <;> exact ⟨by simp, encodable_ofString _, by simp⟩
    · split
      · next e _ => exact ⟨by simp, by cases e <;> exact encodable_ofString _, by simp⟩
      · split
        · exact ⟨by simp, encodable_ofString _, by simp⟩
        · split
          · exact ⟨by simp, encodable_ofString _, by simp⟩
          · exact ⟨by simp, encodable_ofString _, by simp⟩
          · next o ho =>
            split_ifs
            · exact ⟨fun o' h => Option.some.inj h ▸ hread o ho, encodable_ofString _, by simp⟩
            · exact ⟨fun o' h => Option.some.inj h ▸ hread o ho, encodable_ofString _, by simp⟩

/-- A run settles as a success exactly when it ended cleanly and its text reads an allowed
outcome. -/
lemma verdictOf_success {rt : Runtime} {allowed : List Text} {source : RunResult}
    {outcome : Option Text} {reason : Text} :
    verdictOf rt allowed source = (outcome, .success, reason) ↔
      source.timedOut = false ∧ source.exitCode = some 0 ∧ source.finalResponseError = none ∧
        source.reviewRejected = false ∧ reason = "success" ∧
        ∃ o, outcome = some o ∧ readOutcome rt source.authoritativeText = .read o ∧
          o ∈ allowed := by
  unfold verdictOf
  constructor
  · intro h
    split at h
    · simp at h
    · next htimed =>
      split at h
      · split_ifs at h <;> simp at h
      · next hexit =>
        split at h
        · simp at h
        · next herror =>
          split at h
          · simp at h
          · next hrejected =>
            split at h
            · simp at h
            · simp at h
            · next o hread =>
              split_ifs at h with hmem
              · simp only [Prod.mk.injEq, true_and] at h
                exact ⟨by simpa using htimed, by simpa using hexit, herror,
                  by simpa using hrejected, h.2.symm, o, h.1.symm, hread, hmem⟩
              · simp at h
  · rintro ⟨htimed, hexit, herror, hrejected, rfl, o, rfl, hread, hmem⟩
    simp [htimed, hexit, herror, hrejected, hread, hmem]

/-- A run that containment let finish takes its verdict. -/
lemma classifyResult_plain {rt : Runtime} {allowed : List Text} {source : RunResult}
    {usage : Usage} {outcome : Option Text} {classification : Classification} {reason : Text}
    (husage : telemetryFrom rt source = .ok usage) (hstop : source.containmentStop = none)
    (hverdict : verdictOf rt allowed source = (outcome, classification, reason)) :
    classifyResult rt allowed source = .ok { source with
      usage := usage, outcome := outcome, classification := classification, reason := reason
      candidate := none
      finalResponseSource := some (source.finalResponseSource.getD .wholeStream) } := by
  refine bind_eq_ok.mpr ⟨usage, husage, ?_⟩
  simp only [hstop, hverdict]
  rfl

/-- What classification keeps of the raw result. -/
lemma classifyResult_spec {rt : Runtime} {allowed : List Text} {source result : RunResult}
    (h : classifyResult rt allowed source = .ok result) :
    telemetryFrom rt source = .ok result.usage ∧
      result = { source with
        usage := result.usage, outcome := result.outcome
        classification := result.classification, reason := result.reason
        candidate := source.containmentStop.bind (candidateOf rt allowed source)
        finalResponseSource := some (source.finalResponseSource.getD .wholeStream) } ∧
      (source.containmentStop = none →
        (result.outcome, result.classification, result.reason) = verdictOf rt allowed source) ∧
      (∀ stop, source.containmentStop = some stop →
        (result.outcome, result.classification, result.reason) = (none, .blocked, stop)) := by
  obtain ⟨usage, husage, h⟩ := bind_eq_ok.mp h
  cases hstop : source.containmentStop with
  | none =>
      simp only [hstop] at h
      cases h
      exact ⟨husage, by simp, fun _ => rfl, by simp⟩
  | some stop =>
      simp only [hstop] at h
      cases h
      exact ⟨husage, by simp, by simp, fun s hs => by cases hs; rfl⟩

end AgentOrch
