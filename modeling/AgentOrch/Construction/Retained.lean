import AgentOrch.Construction.Spawn
import AgentOrch.Construction.Seal

/-!
# Retained results

A stage that changed a protected root is stopped whatever its provider reported; what the run would
have been is sealed as its candidate.  `inspectRetained` reads the sealed artifacts again, without
changing anything, and derives that candidate a second time.

The inspector also reads files whose content decides nothing, or is checked by their digest alone:
of these only the length comes in.
-/

namespace AgentOrch

open Py Json

/-! ## What the controller observes of a provider call -/

/-- The result `_invoke_runner` hands on, or the one that stands for an exception.  The log holds
the display stream, strictly encoded; without a log nothing is sealed. -/
inductive Observed (rt : Runtime) : RunResult → Prop
  | returned (raw : RunResult) (h : Returned rt raw) (hlog : Encodable raw.output) : Observed rt raw
  | candidateChanged (raw : RunResult) (h : Returned rt raw) (hlog : Encodable raw.output) :
    Observed rt { raw with
      exitCode := some 1, containmentStop := some ("review_candidate_changed" : Text) }
  | drifted (raw : RunResult) (h : Observed rt raw) :
    Observed rt { raw with containmentStop := some ("protected_root_drift" : Text) }
  | raised (message : Text) (hlog : Encodable message) : Observed rt (Provider.raised message).raw

/-! ## Inspection -/

/-- `DRIFT_REASONS`. -/
def driftReasons : List Text := ["protected_root_drift", "workspace_escape"]

/-- The lengths of the files an inspection reads without using their content. -/
structure RetainedFiles where
  manifest : ℕ
  log : ℕ
  profile : ℕ
  drift : ℕ

def retainedMaxBytes : ℕ := 64 * 1024 * 1024

/-- `read(path)`, for a file of that length whose digest holds. -/
def readRetained (length : ℕ) : Except Exc Unit :=
  require (length ≤ retainedMaxBytes) (.valueError "retained_evidence_too_large")

/-- The sealed final response, if the run has one of its own. -/
def retainedFinalText (m : Manifest) : Except Exc (Option Text) :=
  if m.error.isNone && m.separate then
    match decodeStrict m.finalBytes with
    | some text => .ok (some text)
    | none => .error (.valueError "retained_final_response_undecodable")
  else .ok none

/-- The run the inspector classifies: it has no execution receipt. -/
def retainedRun (m : Manifest) (output : Text) (finalText : Option Text) : RunResult :=
  { RunResult.basic m.exitCode output none .raw "raw" with
    timedOut := m.timedOut
    finalResponse := finalText
    finalResponseSource := some m.source
    finalResponseError := m.error }

/-- `output.decode("utf-8")`. -/
def retainedOutput (m : Manifest) : Except Exc Text :=
  match decodeStrict m.outputBytes with
  | some output => .ok output
  | none => .error .unicodeDecodeError

/-- `inspect_retained`.  The input is decoded as it is, without newline translation. -/
def inspectRetained (rt : Runtime) (s : TaskStore) (files : RetainedFiles) (run : StageRun) :
    Except Exc Candidate :=
  match run.manifest with
  | none => .error (.valueError "retained_run_not_sealed")
  | some m => do
    readRetained files.manifest
    require (run.runToken ∉ s.damaged) (.valueError "retained_evidence_hash_mismatch")
    require (m.exitCode = run.exitCode)
      (.valueError "retained_manifest_binding_mismatch:exit_code")
    require (m.outcome = run.outcome) (.valueError "retained_manifest_binding_mismatch:outcome")
    require (m.classification = .blocked && m.reason ∈ driftReasons)
      (.valueError "retained_run_not_drift_blocked")
    readRetained files.log
    readRetained s.input.length
    readRetained files.profile
    let stage ← s.profile.stage run.stage
    readRetained m.outputBytes.length
    require m.containmentEvidence (.valueError "retained_drift_evidence_missing")
    readRetained files.drift
    match m.validBoundary with
    | .error e => throw (.valueError ("retained_boundary_invalid:" ++ e.message))
    | .ok () =>
      readRetained m.finalBytes.length
      let finalText ← retainedFinalText m
      let output ← retainedOutput m
      let envelope ← extractEnvelope rt (decodeReplace s.input)
      let candidate ← classifyResult rt (allowedOutcomes (dictKeys stage.outcomes) envelope.isSome)
        (retainedRun m output finalText)
      require (m.candidate.bind Candidate.outcome = candidate.outcome)
        (.valueError "retained_candidate_mismatch:outcome")
      require (m.candidate.map Candidate.classification = some candidate.classification)
        (.valueError "retained_candidate_mismatch:classification")
      require (m.candidate.map Candidate.reason = some candidate.reason)
        (.valueError "retained_candidate_mismatch:reason")
      return ⟨candidate.outcome, candidate.classification, candidate.reason⟩

end AgentOrch
