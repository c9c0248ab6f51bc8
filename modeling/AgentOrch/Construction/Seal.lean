import AgentOrch.Construction.Store

/-!
# Sealed runs

Committing a run seals a manifest that names and hashes the display stream and the final
response.  Both are written with a replacing encoder, while the manifest itself is encoded
strictly; the boundary metadata must be one of three legal states, for the writer as for the
readers.
-/

namespace AgentOrch

open Py Json

/-- `validate_sealed_boundary`, on metadata that is typed already: the whole-stream protocol has
no separate artifact and cannot fail, a native run has one or the other. -/
def validateSealedBoundary (source : Protocol) (separate : Bool)
    (error : Option FinalResponseError) : Except Exc Unit :=
  if source = .wholeStream then
    require (!separate && error.isNone) (.boundaryMetadataError
      "state_matrix: the whole-stream protocol has no separate artifact and cannot fail closed")
  else
    require (separate != error.isSome) (.boundaryMetadataError
      "state_matrix: a native run has either a separate final response or a reason it has none")

def Classification.text : Classification → Text
  | raw => "raw"
  | success => "success"
  | blocked => "blocked"
  | paused => "paused"
  | waitingUser => "waiting_user"

/-- The members of the manifest payload that a provider or an operator can influence; the rest
are paths, digests and identities in plain ASCII. -/
def manifestPayload (result : RunResult) : Value :=
  .obj (([("classification", .str result.classification.text), ("reason", .str result.reason),
      ("outcome", optionalText result.outcome),
      ("candidate_outcome", optionalText (result.candidate.bind Candidate.outcome)),
      ("candidate_reason", optionalText (result.candidate.map Candidate.reason))] : Receipt) ++
    (result.executionReceipt.map fun r => (("execution_receipt" : Text), Value.obj r)).toList)

/-- The manifest of a run and the artifacts beside it; without a final response of its own, the
display stream stands in.  A drift file is written exactly when the drift becomes the stop. -/
def manifestOf (result : RunResult) : Manifest where
  classification := result.classification
  reason := result.reason
  outcome := result.outcome
  exitCode := result.exitCode
  timedOut := result.timedOut
  candidate := result.candidate
  containmentEvidence := result.containmentStop = some ("protected_root_drift" : Text)
  outputBytes := encodeReplace result.output
  finalBytes := encodeReplace result.authoritativeText
  separate := result.finalResponse.isSome
  source := result.finalResponseSource.getD .wholeStream
  error := result.finalResponseError
  executionReceipt := result.executionReceipt

def Manifest.validBoundary (m : Manifest) : Except Exc Unit :=
  validateSealedBoundary m.source m.separate m.error

/-- `_seal_run_manifest`. -/
def sealRunManifest (rt : Runtime) (result : RunResult) : Except Exc Manifest :=
  match (manifestOf result).validBoundary with
  | .error e => .error (.controllerError
      ("refusing to seal contradictory boundary metadata: " ++ e.message))
  | .ok () => do
    rt.dumps (manifestPayload result)
    return manifestOf result

/-- What the reader of a sealed run returns. -/
structure SealedRun where
  manifest : Manifest
  finalResponse : Text

/-- `_read_sealed_run`: every artifact on the way must still verify, and a run that failed at the
channel has no final response. -/
def TaskStore.readSealedRun (s : TaskStore) (run : StageRun) : Except Exc SealedRun :=
  match run.manifest with
  | none => .error (.convergenceError ("run " ++ run.runToken ++ " is not sealed"))
  | some manifest => do
    require (run.runToken ∉ s.damaged) (.controllerError "prior run manifest hash mismatch")
    match manifest.validBoundary with
    | .error e => throw (.convergenceError ("run " ++ run.runToken ++
        " sealed boundary metadata is invalid: " ++ e.message))
    | .ok () =>
      match manifest.error with
      | some e => throw (.convergenceError ("run " ++ run.runToken ++
          " produced no final response (" ++ e.text ++ ")"))
      | none => return ⟨manifest, universalNewlines (decodeReplace manifest.finalBytes)⟩

/-! ## What sealing keeps -/

lemma sealRunManifest_ok {rt : Runtime} {result : RunResult} {m : Manifest} :
    sealRunManifest rt result = .ok m ↔ m = manifestOf result ∧
      (manifestOf result).validBoundary = .ok () ∧ rt.dumps (manifestPayload result) = .ok () := by
  unfold sealRunManifest
  cases hvalid : (manifestOf result).validBoundary with
  | error e => simp
  | ok u =>
      simp only [bind_eq_ok, true_and]
      constructor
      · rintro ⟨_, hdumps, h⟩
        cases h
        exact ⟨rfl, hdumps⟩
      · rintro ⟨rfl, hdumps⟩
        exact ⟨(), hdumps, rfl⟩

/-- An intact sealed run whose channel did not fail reads back. -/
lemma readSealedRun_of_manifest {s : TaskStore} {run : StageRun} {m : Manifest}
    (hrun : run.manifest = some m) (hvalid : m.validBoundary = .ok ())
    (hintact : run.runToken ∉ s.damaged) (herror : m.error = none) :
    s.readSealedRun run = .ok ⟨m, universalNewlines (decodeReplace m.finalBytes)⟩ := by
  simp only [TaskStore.readSealedRun, hrun]
  refine bind_eq_ok.mpr ⟨(), by simpa using hintact, ?_⟩
  rw [hvalid]
  simp only [herror]
  rfl

/-- What it reads back is the text it was sealed from, up to line ends. -/
lemma readSealedRun_of_sealed {result : RunResult} {s : TaskStore} {run : StageRun}
    (hrun : run.manifest = some (manifestOf result))
    (hvalid : (manifestOf result).validBoundary = .ok ()) (hintact : run.runToken ∉ s.damaged)
    (herror : result.finalResponseError = none) (htext : Encodable result.authoritativeText) :
    s.readSealedRun run =
      .ok ⟨manifestOf result, universalNewlines result.authoritativeText⟩ := by
  rw [readSealedRun_of_manifest hrun hvalid hintact herror]
  have hbytes : (manifestOf result).finalBytes = encodeReplace result.authoritativeText := rfl
  rw [hbytes, decode_encode htext]

end AgentOrch
