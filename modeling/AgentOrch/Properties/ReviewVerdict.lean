import AgentOrch.Construction.Review

/-!
# A ready review and its evidence

Two recognisers decide whether a reviewer's text says `ready`.  `validateReview` compares the
last line with one exact spelling; classification reads a marker with optional white space, on
the last non-blank line or, failing that, anywhere in the text.  A text in the gap between them
follows the `ready` edge over a review that does not support it.
-/

namespace AgentOrch

open Py Json

/-- A run that is settled as `ready` carries a review that supports it. -/
def ReadySupported (rt : Runtime) (runner : ConfiguredRunner) (packet : ReviewPacket)
    (allowed : List Text) (raw : RunResult) : Prop :=
  ∀ result settled, runner.run rt raw = .ok result → classifyResult rt allowed result = .ok settled →
    settled.classification = .success → settled.outcome = some ("ready" : Text) →
    ∃ record, settled.executionReceipt.bind (dictGet "review") = some (.obj record) ∧
      supportsReady packet.kind record = true

/-- `ReadySupported`, evaluated. -/
def readySupported (rt : Runtime) (runner : ConfiguredRunner) (packet : ReviewPacket)
    (allowed : List Text) (raw : RunResult) : Bool :=
  match runner.run rt raw with
  | .error _ => true
  | .ok result =>
    match classifyResult rt allowed result with
    | .error _ => true
    | .ok settled =>
      !(settled.classification = .success && settled.outcome = some ("ready" : Text)) ||
        match settled.executionReceipt.bind (dictGet "review") with
        | some (.obj record) => supportsReady packet.kind record
        | _ => false

/-- The spawned provider ended by itself and without an error. -/
structure CleanExit (raw : RunResult) : Prop where
  contained : raw.containmentStop = none
  inTime : raw.timedOut = false
  exitCode : raw.exitCode = some 0

/-- The answers that fall into the gap: the marker of the text reads `ready`, the last line is
not the one spelling `validateReview` looks for, and the block does not support `ready`. -/
structure LooseReady (rt : Runtime) (runner : ConfiguredRunner) (packet : ReviewPacket)
    (allowed : List Text) (raw : RunResult) : Prop where
  clean : CleanExit raw
  telemetry : ∃ usage, telemetryFrom rt raw = .ok usage
  allowed : ("ready" : Text) ∈ allowed
  answered : ∃ payload text record, runner.reviewerText rt raw.output = .ok (payload, text) ∧
    reviewRecord rt text packet = .ok record ∧ supportsReady packet.kind record = false ∧
    endsReady text = false ∧ readOutcome rt text = .read "ready"

section
variable {rt : Runtime} {runner : ConfiguredRunner} {packet : ReviewPacket} {allowed : List Text}
  {raw result settled : RunResult}

lemma readySupported_eq_true :
    readySupported rt runner packet allowed raw = true ↔
      ReadySupported rt runner packet allowed raw := by
  unfold readySupported ReadySupported
  cases hrun : runner.run rt raw with
  | error e => simp
  | ok result =>
      cases hsettled : classifyResult rt allowed result with
      | error e =>
          simp only [hsettled, true_iff]
          rintro _ _ ⟨⟩ hok
          rw [hsettled] at hok
          cases hok
      | ok settled =>
          have hrecord : (∃ record, settled.executionReceipt.bind (dictGet "review") =
              some (.obj record) ∧ supportsReady packet.kind record = true) ↔
              (match settled.executionReceipt.bind (dictGet "review") with
                | some (.obj record) => supportsReady packet.kind record
                | _ => false) = true := by
            split
            · next record h => simp [h]
            · next h =>
              simp only [Bool.false_eq_true, iff_false, not_exists, not_and]
              exact fun record hr => (h record hr).elim
          simp only [hsettled]
          constructor
          · rintro h _ _ ⟨⟩ hok hsuccess hready
            obtain rfl := Except.ok.inj (hsettled.symm.trans hok)
            exact hrecord.mpr (by simpa [hsuccess, hready] using h)
          · intro h
            by_cases hread : settled.classification = .success ∧
                settled.outcome = some ("ready" : Text)
            · have := hrecord.mp (h result settled rfl hsettled hread.1 hread.2)
              rw [this, Bool.or_true]
            · have : (decide (settled.classification = .success) &&
                  decide (settled.outcome = some ("ready" : Text))) = false := by
                simpa using hread
              rw [this, Bool.not_false, Bool.true_or]

instance : Decidable (ReadySupported rt runner packet allowed raw) :=
  decidable_of_iff _ readySupported_eq_true

lemma validateReview_ok {text : Text} {record : List (Text × Value)} :
    validateReview rt text packet = .ok record ↔
      reviewRecord rt text packet = .ok record ∧
        (endsReady text = true → supportsReady packet.kind record = true) := by
  unfold validateReview
  rw [bind_eq_ok]
  constructor
  · rintro ⟨record', hrecord, h⟩
    obtain ⟨_, hready, h⟩ := bind_eq_ok.mp h
    cases h
    refine ⟨hrecord, fun hends => ?_⟩
    simpa [hends] using hready
  · rintro ⟨hrecord, hready⟩
    refine ⟨record, hrecord, bind_eq_ok.mpr ⟨(), ?_, rfl⟩⟩
    cases hends : endsReady text with
    | true => simp [hready hends]
    | false => simp

/-- The verdict a settled run carries, when containment let it finish. -/
lemma settled_success (h : classifyResult rt allowed result = .ok settled)
    (hsuccess : settled.classification = .success) :
    result.containmentStop = none ∧
      verdictOf rt allowed result = (settled.outcome, .success, settled.reason) := by
  obtain ⟨-, -, hplain, hstopped⟩ := classifyResult_spec h
  cases hstop : result.containmentStop with
  | none => exact ⟨rfl, by rw [← hplain hstop, hsuccess]⟩
  | some stop =>
      have := hstopped stop hstop
      rw [hsuccess] at this
      simp at this

/-- Telemetry only looks at the usage and the display stream. -/
lemma telemetryFrom_answer (text : Option Text) (error : Option FinalResponseError)
    (receipt : Receipt) :
    telemetryFrom rt (ConfiguredRunner.answer raw text error receipt) = telemetryFrom rt raw := rfl

/-- Reading `ready` off an accepted answer is the only way to settle as `ready`. -/
lemma ready_of_accepted {text : Text} {receipt : Receipt}
    (h : classifyResult rt allowed (ConfiguredRunner.answer raw (some text) none receipt) =
      .ok settled)
    (hsuccess : settled.classification = .success) (hready : settled.outcome = some ("ready" : Text)) :
    CleanExit raw ∧ (∃ usage, telemetryFrom rt raw = .ok usage) ∧ ("ready" : Text) ∈ allowed ∧
      readOutcome rt text = .read "ready" := by
  obtain ⟨hstop, hverdict⟩ := settled_success h hsuccess
  obtain ⟨htimed, hexit, -, -, -, o, ho, hread, hmem⟩ := verdictOf_success.mp hverdict
  obtain rfl : o = "ready" := Option.some.inj (ho.symm.trans hready)
  refine ⟨⟨hstop, htimed, hexit⟩, ⟨settled.usage, ?_⟩, hmem, hread⟩
  rw [← telemetryFrom_answer (some text) none receipt]
  exact (classifyResult_spec h).1

/-- A reviewer run settled as `ready` is supported by its review exactly when its answer does
not fall into the gap. -/
theorem readySupported_iff (hrole : runner.choice.role = .reviewer)
    (hpacket : runner.reviewPacket = some packet) :
    ReadySupported rt runner packet allowed raw ↔ ¬ LooseReady rt runner packet allowed raw := by
  constructor
  · intro hsupported hloose
    obtain ⟨payload, text, record, htext, hrecord, hsupport, hends, hread⟩ := hloose.answered
    have hreview : validateReview rt text packet = .ok record :=
      validateReview_ok.mpr ⟨hrecord, by simp [hends]⟩
    have hrun : runner.run rt raw = _ :=
      ConfiguredRunner.run_accepted hrole hpacket htext hreview
    set answered := ConfiguredRunner.answer raw (some text) none
      (runner.acceptedReceipt raw payload packet record) with hanswered
    obtain ⟨usage, husage⟩ := hloose.telemetry
    have hverdict : verdictOf rt allowed answered =
        (some ("ready" : Text), Classification.success, ("success" : Text)) :=
      verdictOf_success.mpr ⟨hloose.clean.inTime, hloose.clean.exitCode, rfl,
        ConfiguredRunner.reviewRejected_accepted payload packet record (some text), rfl, _, rfl,
        hread, hloose.allowed⟩
    have hsettled : classifyResult rt allowed answered = _ :=
      classifyResult_plain husage hloose.clean.contained hverdict
    obtain ⟨record', hrecord', hsupport'⟩ := hsupported answered _ hrun hsettled rfl rfl
    simp only [hanswered, ConfiguredRunner.answer, Option.bind_some,
      ConfiguredRunner.review_accepted, Option.some.injEq, Value.obj.injEq] at hrecord'
    rw [hrecord', hsupport'] at hsupport
    cases hsupport
  · intro hgap result settled hrun hsettled hsuccess hready
    cases ConfiguredRunner.run_reviewer hrole hpacket hrun with
    | unreadable receipt =>
        obtain ⟨-, hverdict⟩ := settled_success hsettled hsuccess
        obtain ⟨-, -, herror, -⟩ := verdictOf_success.mp hverdict
        cases herror
    | rejected payload text m htext hreview =>
        obtain ⟨-, hverdict⟩ := settled_success hsettled hsuccess
        obtain ⟨-, -, -, hrejected, -⟩ := verdictOf_success.mp hverdict
        rw [ConfiguredRunner.reviewRejected_rejected] at hrejected
        cases hrejected
    | accepted payload text record htext hreview =>
        obtain ⟨hclean, htelemetry, hmem, hread⟩ := ready_of_accepted hsettled hsuccess hready
        have hreceipt : settled.executionReceipt =
            some (runner.acceptedReceipt raw payload packet record) := by
          rw [(classifyResult_spec hsettled).2.1]
          rfl
        refine ⟨record, by rw [hreceipt, Option.bind_some, ConfiguredRunner.review_accepted], ?_⟩
        obtain ⟨hrecord, hends⟩ := validateReview_ok.mp hreview
        by_contra hsupport
        have hsupport := Bool.eq_false_iff.mpr hsupport
        refine hgap ⟨hclean, htelemetry, hmem, payload, text, record, htext, hrecord, hsupport, ?_,
          hread⟩
        cases hend : endsReady text with
        | true => rw [hends hend] at hsupport; cases hsupport
        | false => rfl

end

/-! ## An answer in the gap -/

def sampleDigest (c : CodePoint) : Text := List.replicate 64 c

def samplePacket : ReviewPacket := ⟨sampleDigest 0x61, sampleDigest 0x62, .implementation⟩

def sampleReviewer : ConfiguredRunner where
  choice := ⟨.reviewer, .claude, none, none, "claude-fable-5-1", "high"⟩
  planDigest := sampleDigest 0x30
  command := ["claude", "-p", "--model", "claude-fable-5-1", "--effort", "high", "--safe-mode",
    "--tools", "", "--output-format", "json"]
  reviewPacket := some samplePacket
  session := none

/-- A review block with the given product axis, and what follows it, as they stand inside the
provider's JSON string. -/
def sampleReview (productSpec marker : Text) : Text :=
  Text.ofString "<!-- orch-review-result -->\x7b\\\"candidate_sha256\\\":\\\"" ++ sampleDigest 0x61 ++
    "\\\",\\\"spec_sha256\\\":\\\"" ++ sampleDigest 0x62 ++
    "\\\",\\\"axes\\\":\x7b\\\"product_spec\\\":\\\"" ++ productSpec ++
    "\\\",\\\"constraints\\\":\\\"PASS\\\",\\\"verification\\\":\\\"PASS\\\"\x7d," ++
    "\\\"findings\\\":[],\\\"remaining_evidence\\\":[]\x7d<!-- /orch-review-result -->\\n" ++ marker

/-- A clean exit with one native result object. -/
def sampleAnswer (text : Text) : RunResult :=
  { RunResult.basic (some 0)
      (Text.ofString "\x7b\"type\":\"result\",\"is_error\":false,\"subtype\":\"success\"," ++
        "\"session_id\":\"s\",\"modelUsage\":\x7b\"claude-fable-5-1\":" ++
        "\x7b\"canonicalModel\":\"claude-fable-5-1\"\x7d\x7d,\"result\":\"" ++ text ++
        "\"\x7d\n") none .raw "raw" with
    startedAtMs := some 0
    endedAtMs := some 1
    durationMs := some 1
    model := some ("claude-fable-5-1" : Text)
    usage := ⟨none, none, none, some ("provider_cli_usage_not_reported" : Text)⟩
    finalResponseSource := some .wholeStream }

theorem readySupported_iff_sample :
    ReadySupported .standard sampleReviewer samplePacket ["ready", "blocked"]
        (sampleAnswer (sampleReview "PASS" "ORCHESTRATOR_OUTCOME: ready")) ↔
      ¬ LooseReady .standard sampleReviewer samplePacket ["ready", "blocked"]
        (sampleAnswer (sampleReview "PASS" "ORCHESTRATOR_OUTCOME: ready")) :=
  readySupported_iff rfl rfl

/-- Without the blank after the colon the text still reads `ready`, over a failed axis. -/
theorem not_readySupported_sample :
    ¬ ReadySupported .standard sampleReviewer samplePacket ["ready", "blocked"]
      (sampleAnswer (sampleReview "FAIL" "ORCHESTRATOR_OUTCOME:ready")) := by
  decide +kernel

end AgentOrch
