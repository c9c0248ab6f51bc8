import AgentOrch.Construction.RunLoop

/-!
# What a runner returns

`SubprocessRunner.run` starts the provider and returns its decoded output, the usage read off it
and, under a native protocol, the final response it captured.  `ConfiguredRunner.run` adds a
receipt.  What the operating system reports, the bytes of the capture among it, comes in as a
`ProviderCall`.
-/

namespace AgentOrch

open Py Json

/-! ## The native final response -/

/-- `FINAL_RESPONSE_MAX_BYTES`. -/
def finalResponseMaxBytes : ℕ := 4 * 1024 * 1024

/-- What is found at the capture path: nothing, something that is no readable regular file, or a
regular file. -/
inductive Capture
  | missing
  | unreadable
  | file (content : Bytes)

structure FinalResponse where
  protocol : Protocol
  text : Option Text
  error : Option FinalResponseError

/-- `read_final_response`. -/
def readFinalResponse (protocol : Protocol) (capture : Capture) : FinalResponse :=
  if protocol = .wholeStream then ⟨protocol, none, none⟩
  else match capture with
    | .missing => ⟨protocol, none, some .missing⟩
    | .unreadable => ⟨protocol, none, some .unreadable⟩
    | .file content =>
      if finalResponseMaxBytes < content.length then ⟨protocol, none, some .tooLarge⟩
      else match decodeStrict content with
        | none => ⟨protocol, none, some .unreadable⟩
        | some text =>
          if isBlank text then ⟨protocol, none, some .empty⟩ else ⟨protocol, some text, none⟩

/-! ## The subprocess -/

/-- The reasons for which a stage is refused before the provider is started. -/
inductive Refusal
  | outerSandboxRequired
  | providerChannelConflict
  | sandboxSetupFailed
  | containmentIdentityInvalid
  | containmentConfigConflict
  | sandboxUnavailable
  | runnerCannotEnforceGuard

def Refusal.text : Refusal → Text
  | outerSandboxRequired => "outer_sandbox_required"
  | providerChannelConflict => "provider_channel_conflict"
  | sandboxSetupFailed => "sandbox_setup_failed"
  | containmentIdentityInvalid => "containment_identity_invalid"
  | containmentConfigConflict => "containment_config_conflict"
  | sandboxUnavailable => "sandbox_unavailable"
  | runnerCannotEnforceGuard => "runner_cannot_enforce_guard"

/-- The command as it was resolved, and the clock around it. -/
structure Launch where
  protocol : Protocol
  model : Text
  startedAtMs : ℤ
  endedAtMs : ℤ
  model_encodable : Encodable model
  duration_fits : fitsInt64 (max 0 (endedAtMs - startedAtMs)) = true

/-- What the operating system reports of a provider that was started; a spawn that failed has its
error for an output and no exit code. -/
structure Exited where
  exitCode : Option ℤ
  output : Text
  timedOut : Bool
  capture : Capture
  exitCode_fits : exitCode.all fitsInt64 = true

inductive ProviderCall
  | refused (refusal : Refusal) (message : Text) (logWritable : Bool)
  | exited (exit : Exited)

namespace SubprocessRunner

/-- `_write_log`, on a file system that accepts writes. -/
def writeLog (rt : Runtime) (launch : Launch) (output : Text) : Except Exc Unit := do
  let _ ← extractUsage rt output
  require (decide (Encodable launch.model) && decide (Encodable output)) .unicodeEncodeError

/-- `_containment_stop`.  A log that cannot be written is ignored, but its header is computed
first. -/
def containmentStop (rt : Runtime) (launch : Launch) (refusal : Refusal) (message : Text)
    (logWritable : Bool) : Except Exc RunResult := do
  let text := refusal.text ++ ": " ++ message ++ "\n"
  let _ ← extractUsage rt text
  require (!logWritable || decide (Encodable text)) .unicodeEncodeError
  return { RunResult.basic none text none .raw "raw" with
    containmentStop := some refusal.text
    startedAtMs := some launch.startedAtMs
    endedAtMs := some launch.startedAtMs
    durationMs := some 0
    model := some launch.model }

/-- `run`. -/
def run (rt : Runtime) (launch : Launch) : ProviderCall → Except Exc RunResult
  | .refused refusal message logWritable => containmentStop rt launch refusal message logWritable
  | .exited exit => do
    let final := readFinalResponse launch.protocol exit.capture
    writeLog rt launch exit.output
    let usage ← extractUsage rt exit.output
    return { RunResult.basic exit.exitCode exit.output none .raw "raw" with
      timedOut := exit.timedOut
      startedAtMs := some launch.startedAtMs
      endedAtMs := some launch.endedAtMs
      durationMs := some (max 0 (launch.endedAtMs - launch.startedAtMs))
      model := some launch.model
      usage := usage
      finalResponse := final.text
      finalResponseSource := some final.protocol
      finalResponseError := final.error }

end SubprocessRunner

/-- The results of the two runners. -/
inductive Returned (rt : Runtime) : RunResult → Prop
  | subprocess (launch : Launch) (call : ProviderCall) (raw : RunResult)
      (h : SubprocessRunner.run rt launch call = .ok raw) : Returned rt raw
  | configured (launch : Launch) (call : ProviderCall) (runner : ConfiguredRunner)
      (raw result : RunResult) (h : SubprocessRunner.run rt launch call = .ok raw)
      (hrun : runner.run rt raw = .ok result) : Returned rt result

/-! ## What all of them have -/

/-- A native final response is a text or a reason for having none, and a text was decoded. -/
lemma readFinalResponse_spec (protocol : Protocol) (capture : Capture) :
    (readFinalResponse protocol capture).protocol = protocol ∧
      validateSealedBoundary protocol (readFinalResponse protocol capture).text.isSome
        (readFinalResponse protocol capture).error = .ok () ∧
      ∀ t, (readFinalResponse protocol capture).text = some t → Encodable t := by
  unfold readFinalResponse
  by_cases hwhole : protocol = .wholeStream
  · rw [if_pos hwhole]
    simp [validateSealedBoundary, require, hwhole]
  · rw [if_neg hwhole]
    cases capture with
    | file content =>
        dsimp only
        split_ifs with hlarge
        · simp [validateSealedBoundary, require, hwhole]
        · cases hread : decodeStrict content with
          | none => simp [validateSealedBoundary, require, hwhole]
          | some text =>
              dsimp only
              split_ifs with hblank
              · simp [validateSealedBoundary, require, hwhole]
              · refine ⟨rfl, by simp [validateSealedBoundary, require, hwhole], ?_⟩
                rintro t ht
                obtain rfl := Option.some.inj ht
                exact encodable_of_decodeStrict hread
    | _ => simp [validateSealedBoundary, require, hwhole]

/-- Token counts are stated, or the reason for their absence is. -/
lemma extractUsage_stated {rt : Runtime} {output : Text} {usage : Usage}
    (h : extractUsage rt output = .ok usage) :
    usage.anyReported = true ∨
      usage.unavailableReason = some ("provider_cli_usage_not_reported" : Text) := by
  obtain ⟨found, -, h⟩ := bind_eq_ok.mp h
  obtain ⟨input, -, h⟩ := bind_eq_ok.mp h
  obtain ⟨outputTokens, -, h⟩ := bind_eq_ok.mp h
  obtain ⟨total, -, h⟩ := bind_eq_ok.mp h
  cases h
  dsimp only [Usage.anyReported]
  split_ifs with hreported
  · exact .inl hreported
  · exact .inr rfl

namespace RunResult

/-- What every result of the two runners has: its token counts are the ones of its display stream,
its boundary metadata are legal, and what the operating system and the command contribute can be
stored. -/
structure FromRunner (rt : Runtime) (raw : RunResult) : Prop where
  telemetry : ∃ usage, extractUsage rt raw.output = .ok usage ∧ telemetryFrom rt raw = .ok usage
  boundary : validateSealedBoundary (raw.finalResponseSource.getD .wholeStream)
    raw.finalResponse.isSome raw.finalResponseError = .ok ()
  decoded : raw.Decoded
  contained : ∀ stop, raw.containmentStop = some stop → Encodable stop ∧
    stop ∉ (["protected_root_drift", "workspace_escape"] : List Text)
  exitCode_fits : raw.exitCode.all fitsInt64 = true
  duration_fits : raw.durationMs.all fitsInt64 = true
  model_encodable : ∀ model, raw.model = some model → Encodable model

/-- A receipt changes nothing of this. -/
lemma FromRunner.withReceipt {rt : Runtime} {raw : RunResult} (h : raw.FromRunner rt)
    (hplain : raw.isReviewer = false) (receipt : Receipt) :
    FromRunner rt { raw with executionReceipt := some receipt } :=
  ⟨h.telemetry, h.boundary, ⟨h.decoded.output, fun _ => h.decoded.finalResponse hplain⟩,
    h.contained, h.exitCode_fits, h.duration_fits, h.model_encodable⟩

end RunResult

namespace SubprocessRunner

variable {rt : Runtime} {launch : Launch}

lemma containmentStop_fromRunner {refusal : Refusal} {message : Text} {logWritable : Bool}
    {raw : RunResult} (h : containmentStop rt launch refusal message logWritable = .ok raw) :
    raw.FromRunner rt ∧ raw.executionReceipt = none := by
  obtain ⟨usage, husage, h⟩ := bind_eq_ok.mp h
  obtain ⟨-, -, h⟩ := bind_eq_ok.mp h
  cases h
  refine ⟨⟨⟨usage, husage, husage⟩, rfl, ⟨fun h => (nomatch h), fun _ t ht => (nomatch ht)⟩, ?_,
    rfl, rfl, ?_⟩, rfl⟩
  · rintro stop ⟨⟩
    cases refusal <;> exact ⟨encodable_ofString _, by decide⟩
  · rintro model ⟨⟩
    exact launch.model_encodable

lemma run_fromRunner {call : ProviderCall} {raw : RunResult}
    (h : SubprocessRunner.run rt launch call = .ok raw) :
    raw.FromRunner rt ∧ raw.executionReceipt = none := by
  cases call with
  | refused refusal message logWritable => exact containmentStop_fromRunner h
  | exited exit =>
      obtain ⟨_, hlog, h⟩ := bind_eq_ok.mp h
      obtain ⟨usage, husage, h⟩ := bind_eq_ok.mp h
      obtain ⟨_, _, hlog⟩ := bind_eq_ok.mp hlog
      have henc : Encodable launch.model ∧ Encodable exit.output := by
        simpa using require_eq_ok.mp hlog
      obtain ⟨hprotocol, hboundary, hfinal⟩ := readFinalResponse_spec launch.protocol exit.capture
      cases h
      refine ⟨⟨⟨usage, husage, ?_⟩, ?_, ⟨fun _ => henc.2, fun _ t ht => hfinal t ht⟩, ?_,
        exit.exitCode_fits, launch.duration_fits, ?_⟩, rfl⟩
      · -- the counts are stated already, so nothing is searched again
        rcases extractUsage_stated husage with hreported | hreason
        · simp [telemetryFrom, hreported]
        · simp [telemetryFrom, hreason, Text.ofString]
      · simpa [hprotocol] using hboundary
      · rintro stop ⟨⟩
      · rintro model ⟨⟩
        exact launch.model_encodable

end SubprocessRunner

namespace ConfiguredRunner

variable {rt : Runtime} {runner : ConfiguredRunner}

/-- The role a receipt states. -/
def roleText (runner : ConfiguredRunner) : Text :=
  match runner.choice.role with
  | .executor => "executor"
  | .reviewer => "reviewer"

lemma role_receipt (raw : RunResult) :
    dictGet "role" (runner.receipt raw) = some (.str runner.roleText) := by
  have h1 : (("schema_version" : Text) = "role") = False := by decide
  have h2 : (("plan_digest" : Text) = "role") = False := by decide
  unfold roleText
  cases hrole : runner.choice.role <;>
    simp [receipt, ExecutionChoice.toDict, dictGet_cons, h1, h2, hrole]

lemma role_dictSet {key : Text} {value : Value} {receipt : Receipt}
    (hkey : (key = "role") = False) :
    dictGet "role" (dictSet key value receipt) = dictGet "role" receipt := by
  rw [dictGet_dictSet]
  simp [hkey]

lemma role_readReceipt (raw : RunResult) (payload : List (Text × Value)) :
    dictGet "role" (runner.readReceipt raw payload) = some (.str runner.roleText) := by
  unfold readReceipt
  rw [role_dictSet (by decide), role_dictSet (by decide), role_dictSet (by decide), role_receipt]

/-- A reviewer's answer is a result of a runner, whatever its text. -/
lemma answer_fromRunner {raw : RunResult} (h : raw.FromRunner rt) {text : Option Text}
    {error : Option FinalResponseError} {receipt : Receipt}
    (hchannel : text.isSome ≠ error.isSome)
    (hrole : dictGet "role" receipt = some (.str "reviewer")) :
    (answer raw text error receipt).FromRunner rt := by
  refine ⟨h.telemetry, ?_, ⟨h.decoded.output, ?_⟩, h.contained, h.exitCode_fits, h.duration_fits,
    h.model_encodable⟩
  · cases text <;> cases error <;> simp_all [answer, validateSealedBoundary, require]
  · intro hplain
    simp [RunResult.isReviewer, answer, hrole] at hplain

lemma run_fromRunner {raw result : RunResult} (h : raw.FromRunner rt)
    (hreceipt : raw.executionReceipt = none) (hrun : runner.run rt raw = .ok result) :
    result.FromRunner rt := by
  have hplain : raw.isReviewer = false := by simp [RunResult.isReviewer, hreceipt]
  unfold run at hrun
  by_cases hrole : runner.choice.role ≠ .reviewer
  · rw [if_pos hrole] at hrun
    cases hrun
    exact h.withReceipt hplain _
  · rw [if_neg hrole] at hrun
    have hreviewer : runner.roleText = "reviewer" := by
      simp only [not_not] at hrole
      simp [roleText, hrole]
    have hread := fun payload => hreviewer ▸ @role_readReceipt runner raw payload
    have hbare := hreviewer ▸ @role_receipt runner raw
    cases htext : runner.reviewerText rt raw.output with
    | error e =>
        simp only [htext] at hrun
        split_ifs at hrun
        cases hrun
        exact answer_fromRunner h (by simp) (by rw [role_dictSet (by decide)]; exact hbare)
    | ok answered =>
        obtain ⟨payload, text⟩ := answered
        simp only [htext] at hrun
        cases hpacket : runner.reviewPacket with
        | none =>
            simp only [hpacket] at hrun
            cases hrun
            exact answer_fromRunner h (by simp) (hread payload)
        | some packet =>
            simp only [hpacket] at hrun
            cases hreview : validateReview rt text packet with
            | ok record =>
                simp only [hreview] at hrun
                cases hrun
                refine answer_fromRunner h (by simp) ?_
                unfold acceptedReceipt
                rw [role_dictSet (by decide), role_dictSet (by decide)]
                exact hread payload
            | error e =>
                rw [hreview] at hrun
                by_cases hcontract : ∃ m, e = .executionConfigError m
                · obtain ⟨m, rfl⟩ := hcontract
                  cases hrun
                  refine answer_fromRunner h (by simp) ?_
                  unfold rejectedReceipt
                  rw [role_dictSet (by decide), role_dictSet (by decide)]
                  exact hread payload
                · have hunreadable : result = unreadable raw (runner.readReceipt raw payload) e := by
                    cases e <;> first
                      | exact absurd ⟨_, rfl⟩ hcontract
                      | (simp only [caught, Exc.isValueError] at hrun; cases hrun; rfl)
                      | cases hrun
                  rw [hunreadable]
                  refine answer_fromRunner h (by simp) ?_
                  rw [role_dictSet (by decide)]
                  exact hread payload

end ConfiguredRunner

theorem Returned.fromRunner {rt : Runtime} {raw : RunResult} (h : Returned rt raw) :
    raw.FromRunner rt := by
  cases h with
  | subprocess launch call raw h => exact (SubprocessRunner.run_fromRunner h).1
  | configured launch call runner raw result h hrun =>
      obtain ⟨hraw, hreceipt⟩ := SubprocessRunner.run_fromRunner h
      exact ConfiguredRunner.run_fromRunner hraw hreceipt hrun

/-! ## A sample -/

def sampleLaunch : Launch := ⟨.wholeStream, "model", 0, 1, encodable_ofString _, by decide⟩

/-- The result of a provider that prints `output` and exits. -/
def printed (output : Text) (usage : Usage) : RunResult :=
  { RunResult.basic (some 0) output none .raw "raw" with
    startedAtMs := some 0
    endedAtMs := some 1
    durationMs := some 1
    model := some ("model" : Text)
    usage := usage
    finalResponseSource := some .wholeStream }

lemma returned_printed {rt : Runtime} {output : Text} {usage : Usage}
    (henc : Encodable output) (husage : extractUsage rt output = .ok usage) :
    Returned rt (printed output usage) := by
  refine .subprocess sampleLaunch (.exited ⟨some 0, output, false, .missing, rfl⟩) _ ?_
  have hlog : SubprocessRunner.writeLog rt sampleLaunch output = .ok () := by
    refine bind_eq_ok.mpr ⟨usage, husage, require_eq_ok.mpr ?_⟩
    simp [henc, sampleLaunch.model_encodable]
  exact bind_eq_ok.mpr ⟨(), hlog, bind_eq_ok.mpr ⟨usage, husage, rfl⟩⟩

end AgentOrch
