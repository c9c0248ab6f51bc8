import AgentOrch.Properties.Changes

/-!
# One iteration, step by step

Inversion lemmas for the run loop: what an iteration that went on did, what settling a result
computed, and which text a settled run is sealed from.
-/

namespace AgentOrch

open Py Json

/-! ## Settling -/

/-- The stages of settling a raw result: classified, scored, and routed. -/
structure Settles (rt : Runtime) (allowed : List Text) (context : Option ConvergenceContext)
    (raw classified scored : RunResult) : Prop where
  classifies : classifyResult rt allowed raw = .ok classified
  scores : scoreWith rt context classified = .ok scored
  reported : writeReport (reviewerOverride scored) = .ok ()

lemma settleResult_eq_ok {rt : Runtime} {allowed : List Text}
    {context : Option ConvergenceContext} {raw result : RunResult} :
    settleResult rt allowed context raw = .ok result ↔
      ∃ classified scored, Settles rt allowed context raw classified scored ∧
        result = reviewerOverride scored := by
  unfold settleResult
  simp only [bind_eq_ok]
  constructor
  · rintro ⟨classified, hclassified, scored, hscored, _, hreported, h⟩
    cases h
    exact ⟨classified, scored, ⟨hclassified, hscored, hreported⟩, rfl⟩
  · rintro ⟨classified, scored, ⟨hclassified, hscored, hreported⟩, rfl⟩
    exact ⟨classified, hclassified, scored, hscored, (), hreported, rfl⟩

/-- The gate keeps everything but the outcome, the classification and the reason. -/
lemma scoreWith_keeps {rt : Runtime} {context : Option ConvergenceContext}
    {result scored : RunResult} (h : scoreWith rt context result = .ok scored) :
    scored = result ∨ ∃ reason, scored = result.hold reason ∧
      result.classification = .success := by
  cases context with
  | none =>
      cases h
      exact .inl rfl
  | some context =>
      unfold scoreWith applyConvergence at h
      dsimp only at h
      by_cases hclass : result.classification ≠ .success
      · rw [if_pos hclass] at h
        cases h
        exact .inl rfl
      · rw [if_neg hclass] at h
        have hclass : result.classification = .success := not_not.mp hclass
        cases herror : context.error with
        | some e =>
            simp only [herror] at h
            cases h
            exact .inr ⟨_, rfl, hclass⟩
        | none =>
            simp only [herror] at h
            cases hextract : extractConvergence rt result.authoritativeText
                (some context.isRepeat) with
            | error e =>
                rw [hextract] at h
                cases e <;> cases h
                exact .inr ⟨_, rfl, hclass⟩
            | ok record =>
                simp only [hextract] at h
                by_cases hrepeat : context.isRepeat = true
                · rw [if_pos hrepeat] at h
                  unfold scoreRepeat at h
                  cases hvalid : validateConvergence rt record context.priorLive
                      context.historicalResolved with
                  | error e =>
                      rw [hvalid] at h
                      cases e <;> cases h
                      exact .inr ⟨_, rfl, hclass⟩
                  | ok verdict =>
                      simp only [hvalid] at h
                      split_ifs at h
                      · cases h
                        exact .inl rfl
                      · cases h
                        exact .inr ⟨_, rfl, hclass⟩
                      · cases h
                        exact .inl rfl
                · rw [if_neg hrepeat] at h
                  cases h
                  exact .inl rfl

/-- A routed result differs from the scored one in classification and reason only. -/
lemma reviewerOverride_keeps (result : RunResult) :
    (reviewerOverride result).authoritativeText = result.authoritativeText ∧
      (reviewerOverride result).executionReceipt = result.executionReceipt ∧
      (reviewerOverride result).finalResponseError = result.finalResponseError := by
  unfold reviewerOverride
  split_ifs <;> exact ⟨rfl, rfl, rfl⟩

/-- A result that is still a success was not routed to the user. -/
lemma reviewerOverride_success {result : RunResult}
    (h : (reviewerOverride result).classification = .success) :
    reviewerOverride result = result := by
  unfold reviewerOverride at h ⊢
  split_ifs at h with hroute
  rw [if_neg hroute]

namespace Settles

variable {rt : Runtime} {allowed : List Text} {context : Option ConvergenceContext}
  {raw classified scored : RunResult}

/-- The text a run is sealed from is the raw result's. -/
lemma text_eq (h : Settles rt allowed context raw classified scored) :
    classified.authoritativeText = raw.authoritativeText ∧
      scored.authoritativeText = raw.authoritativeText ∧
      scored.executionReceipt = raw.executionReceipt ∧
      scored.finalResponse = raw.finalResponse ∧
      scored.finalResponseError = raw.finalResponseError := by
  have hraw := (classifyResult_spec h.classifies).2.1
  have hclassified : classified.authoritativeText = raw.authoritativeText ∧
      classified.executionReceipt = raw.executionReceipt ∧
      classified.finalResponse = raw.finalResponse ∧
      classified.finalResponseError = raw.finalResponseError := by
    rw [hraw]
    exact ⟨rfl, rfl, rfl, rfl⟩
  rcases scoreWith_keeps h.scores with rfl | ⟨reason, rfl, -⟩
  · exact ⟨hclassified.1, hclassified⟩
  · exact ⟨hclassified.1, hclassified⟩

/-- What settling passes through: the counts as they were classified, and a run's receipt and
boundary metadata. -/
lemma passes (h : Settles rt allowed context raw classified scored) :
    telemetryFrom rt raw = .ok (reviewerOverride scored).usage ∧
      reviewerOverride scored = { raw with
        usage := (reviewerOverride scored).usage, outcome := scored.outcome
        classification := (reviewerOverride scored).classification
        reason := (reviewerOverride scored).reason
        candidate := raw.containmentStop.bind (candidateOf rt allowed raw)
        finalResponseSource := some (raw.finalResponseSource.getD .wholeStream) } := by
  obtain ⟨husage, hclassified, -⟩ := classifyResult_spec h.classifies
  have hscored : scored = { classified with
      outcome := scored.outcome, classification := scored.classification
      reason := scored.reason } := by
    rcases scoreWith_keeps h.scores with rfl | ⟨reason, rfl, -⟩ <;> rfl
  have hrouted : reviewerOverride scored = { scored with
      classification := (reviewerOverride scored).classification
      reason := (reviewerOverride scored).reason } := by
    unfold reviewerOverride
    split_ifs <;> rfl
  rw [hrouted, hscored, hclassified]
  exact ⟨husage, rfl⟩

/-- A reviewer's text was written to its report. -/
lemma report (h : Settles rt allowed context raw classified scored)
    (hreviewer : raw.isReviewer = true) {t : Text} (ht : raw.finalResponse = some t) :
    Encodable t := by
  have hreport := require_eq_ok.mp h.reported
  have hrole : (reviewerOverride scored).isReviewer = true := by
    rw [h.passes.2]
    exact hreviewer
  have hkept : (reviewerOverride scored).finalResponse = some t := by
    rw [h.passes.2]
    exact ht
  simpa [hrole, hkept] using hreport

/-- The text of a settled run encodes: an executor's was decoded, a reviewer's was written to
its report. -/
lemma encodable (h : Settles rt allowed context raw classified scored) (hraw : raw.Decoded)
    (hcontained : raw.containmentStop = none) : Encodable raw.authoritativeText := by
  cases hresponse : raw.finalResponse with
  | none => simpa [RunResult.authoritativeText, hresponse] using hraw.output hcontained
  | some t =>
      have htext : raw.authoritativeText = t := by
        simp [RunResult.authoritativeText, hresponse]
      rw [htext]
      cases hreviewer : raw.isReviewer with
      | false => exact hraw.finalResponse hreviewer t hresponse
      | true => exact h.report hreviewer hresponse

/-- A success has a final response, or none of its own: the channel did not fail. -/
lemma channel (h : Settles rt allowed context raw classified scored)
    (hsuccess : classified.classification = .success) :
    scored.finalResponseError = none ∧ raw.exitCode = some 0 ∧ raw.containmentStop = none := by
  obtain ⟨-, -, -, -, herror⟩ := h.text_eq
  obtain ⟨-, -, hplain, hstopped⟩ := classifyResult_spec h.classifies
  cases hstop : raw.containmentStop with
  | some stop =>
      have hblocked : classified.classification = .blocked :=
        congrArg (fun t => t.2.1) (hstopped stop hstop)
      rw [hsuccess] at hblocked
      cases hblocked
  | none =>
      have hverdict := hplain hstop
      rw [hsuccess] at hverdict
      obtain ⟨-, hexit, hnone, -⟩ := verdictOf_success.mp hverdict.symm
      exact ⟨herror.trans hnone, hexit, rfl⟩

end Settles

/-! ## Iterating -/

namespace TaskStore

variable {rt : Runtime} {others : Taken} {s s' : TaskStore} {it : Iteration}

/-- An iteration that goes on claimed a run and finished it. -/
lemma iterate_next (h : (s.iterate rt others it).2 = .ok (.next s')) :
    ∃ stage model s₁, s.task.status = .queued ∧
      s.profile.stage s.task.currentStage = .ok stage ∧
      s.claimStage rt others it.claim model = .ok (.claimed s₁) ∧
      s₁.runClaimed rt others it stage = .ok (.next s') := by
  unfold iterate at h
  cases hstatus : s.task.status with
  | queued =>
      simp only [hstatus] at h
      cases hstage : s.profile.stage s.task.currentStage with
      | error e =>
          rw [hstage] at h
          cases h
      | ok stage =>
          simp only [hstage] at h
          cases hverdict : (if stage.terminal.isSome then .ok (.inl none)
              else it.preflight.verdict it.claim.now :
              Except Exc (Option Text ⊕ PreflightStop)) with
          | error e =>
              rw [hverdict] at h
              cases h
          | ok verdict =>
              rw [hverdict] at h
              cases verdict with
              | inr stop =>
                  dsimp only at h
                  cases hrecord : s.recordPreflightStop others it.claim stage stop with
                  | error e =>
                      rw [hrecord] at h
                      cases h
                  | ok s₁ =>
                      rw [hrecord] at h
                      cases h
              | inl model =>
                  dsimp only at h
                  cases hclaim : s.claimStage rt others it.claim model with
                  | error e =>
                      rw [hclaim] at h
                      cases h
                  | ok claim =>
                      rw [hclaim] at h
                      cases claim with
                      | stopped s₁ => cases h
                      | claimed s₁ => exact ⟨stage, model, s₁, rfl, rfl, hclaim, h⟩
  | running =>
      simp only [hstatus] at h
      cases hblock : s.blockOrphanedRunning others it.claim with
      | error e =>
          rw [hblock] at h
          cases h
      | ok s₁ =>
          rw [hblock] at h
          cases h
  | _ =>
      simp only [hstatus] at h
      cases h

/-- What a finished claim read, and how its result was settled and committed. -/
lemma runClaimed_next {stage : Stage} (h : s.runClaimed rt others it stage = .ok (.next s')) :
    ∃ envelope context classified scored,
      extractEnvelope rt s.inputText = .ok envelope ∧
      s.contextFor rt envelope stage.name = .ok context ∧
      Settles rt (allowedOutcomes (dictKeys stage.outcomes) envelope.isSome) context
        it.provider.raw classified scored ∧
      s.commitRun rt others it.commit it.claim.runToken (reviewerOverride scored) = .ok s' := by
  unfold runClaimed at h
  cases henvelope : extractEnvelope rt s.inputText with
  | error e =>
      rw [henvelope] at h
      cases e with
      | envelopeError m =>
          obtain ⟨s₁, -, h⟩ := bind_eq_ok.mp h
          cases h
      | _ => cases h
  | ok envelope =>
      simp only [henvelope, bind_eq_ok] at h
      obtain ⟨context, hcontext, s₁, hfinish, h⟩ := h
      cases h
      obtain ⟨result, hsettle, hcommit⟩ := bind_eq_ok.mp hfinish
      obtain ⟨classified, scored, hsettles, rfl⟩ := settleResult_eq_ok.mp hsettle
      exact ⟨envelope, context, classified, scored, rfl, hcontext, hsettles, hcommit⟩

/-- The lenient reader of the input agrees with the strict one. -/
lemma extractEnvelope_inputText {envelope : Option Envelope}
    (h : s.envelopeForTask rt = .ok envelope) : extractEnvelope rt s.inputText = .ok envelope := by
  unfold envelopeForTask at h
  cases htext : decodeStrict s.input with
  | none =>
      rw [htext] at h
      cases h
  | some text =>
      rw [htext] at h
      rw [inputText, decodeReplace_of_strict htext]
      exact h

/-! ## Commits of the loop -/

/-- A result to commit, from a context that was read when only the runs `before` did not
verify. -/
structure SettledFrom (rt : Runtime) (s : TaskStore) (before : List Text) (stage : Stage)
    (envelope : Option Envelope) (context : Option ConvergenceContext) (provider : Provider)
    (classified scored : RunResult) : Prop where
  reads : extractEnvelope rt s.inputText = .ok envelope
  current : s.profile.stage s.task.currentStage = .ok stage
  intact : before ⊆ s.damaged
  scoredFrom : ({ s with damaged := before } : TaskStore).contextFor rt envelope stage.name =
    .ok context
  decoded : ∀ raw, provider = .returned raw → raw.Decoded
  settles : Settles rt (allowedOutcomes (dictKeys stage.outcomes) envelope.isSome) context
    provider.raw classified scored

/-- The results the run loop commits: a run whose input has no readable envelope is stopped, any
other is settled. -/
inductive LoopCommit (rt : Runtime) (s : TaskStore) : RunResult → Prop
  | stopped (message : Text)
      (hreads : extractEnvelope rt s.inputText = .error (.envelopeError message)) :
    LoopCommit rt s (.basic none ("controller rejected envelope framing: " ++ message ++ "\n") none
      .blocked "envelope_invalid")
  | settled (before : List Text) (stage : Stage) (envelope : Option Envelope)
      (context : Option ConvergenceContext) (provider : Provider) (classified scored : RunResult)
      (hfrom : SettledFrom rt s before stage envelope context provider classified scored) :
    LoopCommit rt s (reviewerOverride scored)

/-- Every commit is one of the run loop's. -/
def fromLoop (rt : Runtime) : Condition := fun op s =>
  match op with
  | .commit _ _ result => LoopCommit rt s result
  | _ => True

/-- An iteration that goes on takes a step to the claim, and one of the loop's commits. -/
lemma iterate_next_steps (h : (s.iterate rt others it).2 = .ok (.next s'))
    (hdecoded : ∀ raw, it.provider = .returned raw → raw.Decoded) :
    ∃ s₁ op op', fromLoop rt op s ∧ s.perform rt others op = .ok s₁ ∧
      fromLoop rt op' s₁ ∧ s₁.perform rt others op' = .ok s' := by
  obtain ⟨stage, model, s₁, -, hstage, hclaim, hrun⟩ := iterate_next h
  obtain ⟨envelope, context, classified, scored, hreads, hcontext, hsettles, hcommit⟩ :=
    runClaimed_next hrun
  have hclaims : s.perform rt others (.claim it.claim model) = .ok s₁ := by
    simp only [perform, hclaim]
    rfl
  have hcurrent : s₁.profile.stage s₁.task.currentStage = .ok stage := by
    obtain ⟨_, _, -, ⟨_, hstopped, -⟩ | ⟨hclaimed, -⟩⟩ := claimStage_eq_ok hclaim
    · cases hstopped
    · obtain rfl := Claim.claimed.inj hclaimed
      exact hstage
  have hfrom : SettledFrom rt s₁ s₁.damaged stage envelope context it.provider classified scored :=
    ⟨hreads, hcurrent, List.Subset.refl _, hcontext, hdecoded, hsettles⟩
  exact ⟨s₁, .claim it.claim model,
    .commit it.commit it.claim.runToken (reviewerOverride scored), trivial, hclaims,
    .settled _ _ _ _ _ _ _ hfrom, hcommit⟩

/-- The rows after an iteration that goes on. -/
def following (rt : Runtime) (s : TaskStore) (it : Iteration) : Option TaskStore :=
  match (s.iterate rt ⟨[], []⟩ it).2 with
  | .ok (.next s') => some s'
  | _ => none

lemma following_eq_some (h : s.following rt it = some s') :
    (s.iterate rt ⟨[], []⟩ it).2 = .ok (.next s') := by
  unfold following at h
  split at h
  · next s₁ hnext =>
    cases h
    exact hnext
  · cases h

lemma following_input (h : s.following rt it = some s')
    (hdecoded : ∀ raw, it.provider = .returned raw → raw.Decoded) : s'.input = s.input := by
  obtain ⟨s₁, op, op', -, hperform, -, hperform'⟩ :=
    iterate_next_steps (following_eq_some h) hdecoded
  rw [(perform_change hperform').frozen.2, (perform_change hperform).frozen.2]

end TaskStore

/-- An iteration of the only task of a database. -/
lemma Db.Reachable.single_following {rt : Runtime} {id : Text} {s s' : TaskStore} {it : Iteration}
    (h : Db.Reachable rt (TaskStore.fromLoop rt) [(id, s)])
    (hdecoded : ∀ raw, it.provider = .returned raw → raw.Decoded)
    (hnext : s.following rt it = some s') :
    Db.Reachable rt (TaskStore.fromLoop rt) [(id, s')] := by
  obtain ⟨s₁, op, op', hop, hperform, hop', hperform'⟩ :=
    TaskStore.iterate_next_steps (TaskStore.following_eq_some hnext) hdecoded
  exact (h.single_step hop hperform).single_step hop' hperform'

/-! ## Samples -/

/-- What a provider without usage statements prints. -/
def sampleOutput (text : Text) : RunResult :=
  { RunResult.basic (some 0) text none .raw "raw" with
    usage := ⟨none, none, none, some ("provider_cli_usage_not_reported" : Text)⟩
    finalResponseSource := some .wholeStream }

/-- The `n`th iteration of a sample run. -/
def sampleIteration (n : ℕ) (raw : RunResult) : Iteration :=
  ⟨.passed none, sampleStamp (2 * n), .returned raw, sampleStamp (2 * n + 1)⟩

lemma decoded_sampleOutput {text : Text} (htext : Encodable text) : (sampleOutput text).Decoded :=
  ⟨fun _ => htext, fun _ t ht => by cases ht⟩

lemma decoded_sampleIteration {n : ℕ} {raw : RunResult} (hraw : raw.Decoded) :
    ∀ r, (sampleIteration n raw).provider = .returned r → r.Decoded :=
  fun _ h => Provider.returned.inj h ▸ hraw

end AgentOrch
