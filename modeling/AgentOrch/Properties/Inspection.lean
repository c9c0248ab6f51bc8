import AgentOrch.Construction.Retained
import AgentOrch.Properties.ReviewVerdict
import AgentOrch.Properties.SealedRecords
import AgentOrch.Properties.Tail
import Mathlib.Logic.Relation

/-!
# Writer and readers of sealed runs

The manifest of a run is read twice more: by the convergence gate of a later run, and by the
inspector of a run that was stopped for drift.  The gate reads what the commit saw.  The inspector
derives the sealed candidate again unless it meets one of the things the live classification treats
differently: it has no receipt, it reads the input without newline translation, and it stops at
64 MiB.
-/

namespace AgentOrch

open Py Json

/-! ## The row of a committed run -/

namespace TaskStore

variable {rt : Runtime} {others : Taken} {s s' s'' : TaskStore} {stamp : Stamp} {token : Text}
  {result : RunResult}

/-- A commit settles the row of its run. -/
lemma commitRun_settles (hinv' : s'.RowsNamed)
    (h : s.commitRun rt others stamp token result = .ok s') :
    ∃ run status, s.findRun token = some run ∧ status ≠ .running ∧
      s'.findRun token =
        some (settledRun result (manifestOf result) status result.outcome stamp.now run) := by
  cases commitRun_change h with
  | park _ _ _ run stage runStatus status outcome reason hcommit hcase =>
      have hmem := mem_runTokens_of_findRun hcommit.find
      have houtcome : outcome = result.outcome := by
        cases hcase with
        | hold envelope henvelope hsuccess houtcome => exact houtcome.symm
        | stopped => rfl
      refine ⟨run, runStatus, hcommit.find, hcase.not_running.1, ?_⟩
      rw [← hmem.2, ← houtcome]
      exact hinv'.findRun_settled (s := s)
        (f := settledRun result (manifestOf result) runStatus outcome stamp.now) rfl hmem.1 rfl
  | follow _ _ _ run stage envelope outcome target row edgeCapHit hcommit hsuccess houtcome =>
      have hmem := mem_runTokens_of_findRun hcommit.find
      refine ⟨run, .committed, hcommit.find, by simp, ?_⟩
      rw [← hmem.2, houtcome]
      exact hinv'.findRun_settled (s := s)
        (f := settledRun result (manifestOf result) .committed (some outcome) stamp.now) rfl hmem.1
        (by cases edgeCapHit <;> rfl)

/-- A run that is over keeps its row in every later state, and the snapshots stay what they are. -/
lemma findRun_later (hreach : s'.Reachable rt anything) {run : StageRun}
    (hfind : s'.findRun token = some run) (hover : run.status ≠ .running)
    (hlater : Relation.ReflTransGen (Step rt anything) s' s'') :
    s''.findRun token = some run ∧ s''.frozen = s'.frozen ∧ s''.input = s'.input ∧
      s''.Reachable rt anything := by
  induction hlater with
  | refl => exact ⟨hfind, rfl, rfl, hreach⟩
  | tail _ hstep ih =>
      obtain ⟨hfound, hfrozen, hinput, hreached⟩ := ih
      have hnext := hreached.step hstep
      obtain ⟨others, op, -, hperform⟩ := hstep
      have hchange := perform_change hperform
      have hmem := mem_runTokens_of_findRun hfound
      have hkept := hreached.rowsNamed.keeps hchange hmem.1 hover
      refine ⟨?_, hchange.frozen.1.trans hfrozen, hchange.frozen.2.trans hinput, hnext⟩
      rw [← hmem.2]
      exact Reachable.rowsNamed hnext |>.findRun hkept

end TaskStore

/-! ## Observed results -/

namespace Observed

variable {rt : Runtime} {raw : RunResult}

/-- The boundary metadata of an observed result are legal. -/
lemma boundary (h : Observed rt raw) : validateSealedBoundary
    (raw.finalResponseSource.getD .wholeStream) raw.finalResponse.isSome raw.finalResponseError =
      .ok () := by
  induction h with
  | returned raw h => exact h.fromRunner.boundary
  | candidateChanged raw h => exact h.fromRunner.boundary
  | drifted raw h ih => exact ih
  | raised => rfl

lemma output_encodable (h : Observed rt raw) : Encodable raw.output := by
  induction h with
  | returned raw h hlog => exact hlog
  | candidateChanged raw h hlog => exact hlog
  | drifted raw h ih => exact ih
  | raised message hlog =>
      simp only [Provider.raw, RunResult.basic, encodable_append]
      exact ⟨⟨encodable_ofString _, hlog⟩, encodable_ofString _⟩

/-- The final response of a run that is no reviewer's was decoded. -/
lemma finalResponse_encodable (h : Observed rt raw) (hother : raw.isReviewer = false) {t : Text}
    (ht : raw.finalResponse = some t) : Encodable t := by
  induction h with
  | returned raw h => exact h.fromRunner.decoded.finalResponse hother t ht
  | candidateChanged raw h => exact h.fromRunner.decoded.finalResponse hother t ht
  | drifted raw h ih => exact ih hother ht
  | raised => cases ht

/-- Where the usage of an observed result is known, it can be read off its stream. -/
lemma extracts (h : Observed rt raw) {usage : Usage} (husage : telemetryFrom rt raw = .ok usage) :
    ∃ usage', extractUsage rt raw.output = .ok usage' := by
  induction h with
  | returned raw h =>
      obtain ⟨usage', h, -⟩ := h.fromRunner.telemetry
      exact ⟨usage', h⟩
  | candidateChanged raw h =>
      obtain ⟨usage', h, -⟩ := h.fromRunner.telemetry
      exact ⟨usage', h⟩
  | drifted raw h ih => exact ih husage
  | raised => exact ⟨usage, husage⟩

end Observed

/-! ## Two readings of the input -/

section
variable {rt : Runtime} {t : Text}

/-- A text has an envelope if its begin marker occurs at all. -/
lemma extractEnvelope_isSome {e : Option Envelope} (h : extractEnvelope rt t = .ok e) :
    e.isSome = true ↔ count envelopeBegin t ≠ 0 := by
  obtain ⟨block, hblock, h⟩ := bind_eq_ok.mp h
  have hcount : block.isSome = true ↔ count envelopeBegin t ≠ 0 := by
    unfold envelopeBlockText at hblock
    dsimp only at hblock
    split_ifs at hblock with hnone hmany
    · cases hblock
      simp [hnone.2.2.1]
    · have hone : count envelopeBegin t = 1 := by omega
      split at hblock
      · split_ifs at hblock
        cases hblock
        simp [hone]
      · cases hblock
  rw [← hcount]
  cases block with
  | none =>
      cases h
      rfl
  | some block =>
      dsimp only at h
      split at h
      · cases h
      · cases h
      · next payload _ =>
        cases hvalid : validateEnvelope rt payload with
        | error e' =>
            rw [hvalid] at h
            cases h
        | ok envelope =>
            rw [hvalid] at h
            cases h
            rfl

lemma envelopeBegin_lineFree : LineFree envelopeBegin := by decide

/-- Newline translation neither adds an envelope nor takes one away. -/
lemma extractEnvelope_newlines {e e' : Option Envelope} (h : extractEnvelope rt t = .ok e)
    (h' : extractEnvelope rt (universalNewlines t) = .ok e') : e.isSome = e'.isSome := by
  have hsame : e.isSome = true ↔ e'.isSome = true := by
    rw [extractEnvelope_isSome h, extractEnvelope_isSome h',
      count_universalNewlines envelopeBegin_lineFree (by decide)]
  exact Bool.eq_iff_iff.mpr hsame

end

/-! ## What the inspector can derive again -/

/-- The live classification stopped at the review contract. -/
def RunResult.ContractStopped (raw : RunResult) : Prop :=
  raw.timedOut = false ∧ raw.exitCode = some 0 ∧ raw.finalResponseError = none ∧
    raw.reviewRejected = true

/-- No file is too large, the input's envelope reads as it stands in the file, and no review
contract decided the candidate. -/
structure Inspectable (rt : Runtime) (s : TaskStore) (files : RetainedFiles) (raw : RunResult) :
    Prop where
  manifest : files.manifest ≤ retainedMaxBytes
  log : files.log ≤ retainedMaxBytes
  input : s.input.length ≤ retainedMaxBytes
  profile : files.profile ≤ retainedMaxBytes
  output : (encodeReplace raw.output).length ≤ retainedMaxBytes
  drift : files.drift ≤ retainedMaxBytes
  finalResponse : (encodeReplace raw.authoritativeText).length ≤ retainedMaxBytes
  envelope : ∃ e, extractEnvelope rt (decodeReplace s.input) = .ok e
  contract : ¬ raw.ContractStopped

section
variable {rt : Runtime} {allowed : List Text} {context : Option ConvergenceContext}
  {raw classified scored : RunResult}

/-- Without a receipt the verdict is the same, unless the contract decided it. -/
lemma verdictOf_retained (m : Manifest) (hexit : m.exitCode = raw.exitCode)
    (htimed : m.timedOut = raw.timedOut) (herror : m.error = raw.finalResponseError) :
    (¬ raw.ContractStopped →
      verdictOf rt allowed (retainedRun m raw.output raw.finalResponse) =
        verdictOf rt allowed raw) ∧
    (raw.ContractStopped →
      (verdictOf rt allowed (retainedRun m raw.output raw.finalResponse)).2.2 ≠
          reviewContractRejected ∧
        verdictOf rt allowed raw = (none, .blocked, reviewContractRejected)) := by
  have hrejected : (retainedRun m raw.output raw.finalResponse).reviewRejected = false := rfl
  have htext : (retainedRun m raw.output raw.finalResponse).authoritativeText =
      raw.authoritativeText := rfl
  have hexit' : (retainedRun m raw.output raw.finalResponse).exitCode = raw.exitCode := hexit
  have htimed' : (retainedRun m raw.output raw.finalResponse).timedOut = raw.timedOut := htimed
  have herror' : (retainedRun m raw.output raw.finalResponse).finalResponseError =
      raw.finalResponseError := herror
  have houtput : (retainedRun m raw.output raw.finalResponse).output = raw.output := rfl
  constructor
  · intro hplain
    unfold verdictOf
    rw [hexit', htimed', herror', hrejected, htext, houtput]
    by_cases htime : raw.timedOut = true
    · rw [if_pos htime, if_pos htime]
    rw [if_neg htime, if_neg htime]
    by_cases hclean : raw.exitCode ≠ some 0
    · rw [if_pos hclean, if_pos hclean]
    rw [if_neg hclean, if_neg hclean]
    cases hfailed : raw.finalResponseError with
    | some e => rfl
    | none =>
        have hkept : raw.reviewRejected = false := by
          by_contra hne
          exact hplain ⟨by simpa using htime, not_not.mp hclean, hfailed, by simpa using hne⟩
        simp only [hkept]
  · rintro ⟨htime, hclean, hfailed, hreject⟩
    unfold verdictOf
    rw [hexit', htimed', herror', hrejected, htext, houtput, htime, hclean, hfailed, hreject]
    refine ⟨?_, rfl⟩
    have hother : ∀ t ∈ (["missing_outcome", "ambiguous_outcome", "success", "unknown_outcome"] :
        List Text), t ≠ reviewContractRejected := by decide
    simp only [Bool.false_eq_true, if_false, ne_eq, not_true_eq_false]
    cases readOutcome rt raw.authoritativeText with
    | missing => exact hother _ (by simp)
    | ambiguous => exact hother _ (by simp)
    | read o =>
        dsimp only
        split_ifs
        · exact hother _ (by simp)
        · exact hother _ (by simp)

/-- A run with drift for a stop was stopped by the sentinel. -/
lemma Observed.drift (h : Observed rt raw) {stop : Text} (hstop : raw.containmentStop = some stop)
    (hdrift : stop ∈ driftReasons) : stop = "protected_root_drift" := by
  cases h with
  | returned _ h => exact absurd hdrift (h.fromRunner.contained stop hstop).2
  | candidateChanged =>
      obtain rfl := Option.some.inj hstop
      exact absurd hdrift (by decide)
  | drifted => exact (Option.some.inj hstop).symm
  | raised => cases hstop

/-- The text of a settled run encodes. -/
lemma Observed.text_encodable (h : Observed rt raw)
    (hsettles : Settles rt allowed context raw classified scored) :
    Encodable raw.authoritativeText := by
  cases hresponse : raw.finalResponse with
  | none => simpa [RunResult.authoritativeText, hresponse] using h.output_encodable
  | some t =>
      have htext : raw.authoritativeText = t := by
        simp [RunResult.authoritativeText, hresponse]
      rw [htext]
      cases hreviewer : raw.isReviewer with
      | false => exact h.finalResponse_encodable hreviewer hresponse
      | true => exact hsettles.report hreviewer hresponse

lemma Settles.boundary (hsettles : Settles rt allowed context raw classified scored)
    (h : Observed rt raw) : (manifestOf (reviewerOverride scored)).validBoundary = .ok () := by
  rw [hsettles.passes.2]
  exact h.boundary

lemma retainedFinalText_eq {m : Manifest} {t : Text} (herror : m.error = none)
    (hseparate : m.separate = true) (hbytes : decodeStrict m.finalBytes = some t) :
    retainedFinalText m = .ok (some t) := by
  unfold retainedFinalText
  rw [herror, hseparate, hbytes]
  rfl

lemma retainedOutput_eq {m : Manifest} {t : Text} (hbytes : decodeStrict m.outputBytes = some t) :
    retainedOutput m = .ok t := by
  unfold retainedOutput
  rw [hbytes]

/-- What the manifest of a settled run holds of the raw result. -/
lemma Settles.manifest (hsettles : Settles rt allowed context raw classified scored)
    (h : Observed rt raw) :
    (manifestOf (reviewerOverride scored)).exitCode = raw.exitCode ∧
      (manifestOf (reviewerOverride scored)).timedOut = raw.timedOut ∧
      (manifestOf (reviewerOverride scored)).error = raw.finalResponseError ∧
      (manifestOf (reviewerOverride scored)).outputBytes = encodeReplace raw.output ∧
      (manifestOf (reviewerOverride scored)).finalBytes = encodeReplace raw.authoritativeText ∧
      (manifestOf (reviewerOverride scored)).candidate =
        raw.containmentStop.bind (candidateOf rt allowed raw) ∧
      retainedFinalText (manifestOf (reviewerOverride scored)) = .ok raw.finalResponse ∧
      retainedOutput (manifestOf (reviewerOverride scored)) = .ok raw.output := by
  have htext := h.text_encodable hsettles
  have hboundary := h.boundary
  rw [hsettles.passes.2]
  refine ⟨rfl, rfl, rfl, rfl, rfl, rfl, ?_, ?_⟩
  · rcases Option.eq_none_or_eq_some raw.finalResponse with hresponse | ⟨t, hresponse⟩
    · unfold retainedFinalText
      rw [if_neg, hresponse]
      simp [manifestOf, hresponse]
    · have herror : raw.finalResponseError = none := by
        by_contra hne
        have hsome := Option.ne_none_iff_isSome.mp hne
        rw [hresponse] at hboundary
        unfold validateSealedBoundary at hboundary
        split_ifs at hboundary
        · simp [require] at hboundary
        · simp [require, hsome] at hboundary
      have hauthor : raw.authoritativeText = t := by
        simp [RunResult.authoritativeText, hresponse]
      rw [hresponse]
      apply retainedFinalText_eq
      · exact herror
      · rfl
      · show decodeStrict (encodeReplace t) = some t
        rw [hauthor] at htext
        exact decodeStrict_encode htext
  · apply retainedOutput_eq
    show decodeStrict (encodeReplace raw.output) = some raw.output
    exact decodeStrict_encode h.output_encodable

end

/-! ## What a drift seals -/

/-- The run was stopped for a change outside its workspace or of a protected root. -/
def RunResult.Drifted (raw : RunResult) : Prop :=
  ∃ stop ∈ driftReasons, raw.containmentStop = some stop

section
variable {rt : Runtime} {allowed : List Text} {context : Option ConvergenceContext}
  {raw classified scored : RunResult}

/-- The candidate of a verdict. -/
def candidateFrom (verdict : Option Text × Classification × Text) : Candidate :=
  ⟨verdict.1, verdict.2.1, verdict.2.2⟩

/-- A drifted run is blocked for its drift, with the verdict as its candidate. -/
lemma Settles.drifted (hsettles : Settles rt allowed context raw classified scored)
    (h : Observed rt raw) (hdrifted : raw.Drifted) :
    (manifestOf (reviewerOverride scored)).classification = .blocked ∧
      (manifestOf (reviewerOverride scored)).reason ∈ driftReasons ∧
      (manifestOf (reviewerOverride scored)).outcome = none ∧
      (manifestOf (reviewerOverride scored)).containmentEvidence = true ∧
      (manifestOf (reviewerOverride scored)).candidate =
        some (candidateFrom (verdictOf rt allowed raw)) := by
  obtain ⟨stop, hstop, hcontained⟩ := hdrifted
  have hkept : (manifestOf (reviewerOverride scored)).containmentEvidence =
      decide (raw.containmentStop = some ("protected_root_drift" : Text)) := by
    rw [hsettles.passes.2]
    rfl
  have hcandidate := (hsettles.manifest h).2.2.2.2.2.1
  have hverdict := (classifyResult_spec hsettles.classifies).2.2.2 stop hcontained
  simp only [Prod.mk.injEq] at hverdict
  obtain ⟨houtcome, hclass, hreason⟩ := hverdict
  have hplain : reviewerOverride scored = classified := by
    rcases scoreWith_keeps hsettles.scores with rfl | ⟨reason, -, hsuccess⟩
    · unfold reviewerOverride
      rw [if_neg]
      simp [hclass]
    · rw [hclass] at hsuccess
      cases hsuccess
  refine ⟨?_, ?_, ?_, ?_, ?_⟩
  · rw [hplain]
    exact hclass
  · rw [hplain]
    show classified.reason ∈ driftReasons
    rw [hreason]
    exact hstop
  · rw [hplain]
    exact houtcome
  · rw [hkept, hcontained, h.drift hcontained hstop]
    decide
  · rw [hcandidate, hcontained]
    show candidateOf rt allowed raw stop = _
    unfold candidateOf
    exact if_pos hstop

/-- The classification the inspector makes again. -/
lemma classifyResult_retained {m : Manifest} {output : Text} {finalText : Option Text}
    {usage : Usage} (husage : extractUsage rt output = .ok usage) :
    ∃ candidate, classifyResult rt allowed (retainedRun m output finalText) = .ok candidate ∧
      candidateFrom (candidate.outcome, candidate.classification, candidate.reason) =
        candidateFrom (verdictOf rt allowed (retainedRun m output finalText)) := by
  have htelemetry : telemetryFrom rt (retainedRun m output finalText) = .ok usage := by
    unfold telemetryFrom
    rw [if_pos]
    · exact husage
    · rfl
  exact ⟨_, bind_eq_ok.mpr ⟨usage, htelemetry, rfl⟩, rfl⟩

end

/-! ## What an inspection checks -/

section
variable {rt : Runtime} {s : TaskStore} {files : RetainedFiles} {run : StageRun} {m : Manifest}
  {stage : Stage} {finalText : Option Text} {output : Text} {c : Candidate}

lemma readRetained_eq_ok {length : ℕ} {u : Unit} :
    readRetained length = .ok u ↔ length ≤ retainedMaxBytes := by
  unfold readRetained
  simp

/-- An inspection of a run whose seal, stage and texts are known. -/
lemma inspectRetained_eq_ok (hmanifest : run.manifest = some m) (hintact : run.runToken ∉ s.damaged)
    (hexit : m.exitCode = run.exitCode) (houtcome : m.outcome = run.outcome)
    (hclass : m.classification = .blocked) (hreason : m.reason ∈ driftReasons)
    (hstage : s.profile.stage run.stage = .ok stage) (hevidence : m.containmentEvidence = true)
    (hboundary : m.validBoundary = .ok ()) (hfinal : retainedFinalText m = .ok finalText)
    (houtput : retainedOutput m = .ok output) :
    inspectRetained rt s files run = .ok c ↔
      (files.manifest ≤ retainedMaxBytes ∧ files.log ≤ retainedMaxBytes ∧
        s.input.length ≤ retainedMaxBytes ∧ files.profile ≤ retainedMaxBytes ∧
        m.outputBytes.length ≤ retainedMaxBytes ∧ files.drift ≤ retainedMaxBytes ∧
        m.finalBytes.length ≤ retainedMaxBytes) ∧
      ∃ envelope candidate, extractEnvelope rt (decodeReplace s.input) = .ok envelope ∧
        classifyResult rt (allowedOutcomes (dictKeys stage.outcomes) envelope.isSome)
          (retainedRun m output finalText) = .ok candidate ∧
        m.candidate =
          some (candidateFrom (candidate.outcome, candidate.classification, candidate.reason)) ∧
        c = candidateFrom (candidate.outcome, candidate.classification, candidate.reason) := by
  have hsame : ∀ candidate : RunResult,
      (m.candidate.bind Candidate.outcome = candidate.outcome ∧
        m.candidate.map Candidate.classification = some candidate.classification ∧
        m.candidate.map Candidate.reason = some candidate.reason) ↔
      m.candidate =
        some (candidateFrom (candidate.outcome, candidate.classification, candidate.reason)) := by
    intro candidate
    cases hc : m.candidate with
    | none => simp
    | some sealed_ =>
        cases sealed_
        simp [candidateFrom]
  unfold inspectRetained
  simp only [hmanifest, bind_eq_ok, readRetained_eq_ok, require_eq_ok, decide_eq_true_eq,
    Bool.and_eq_true, hboundary, hstage, hfinal, houtput, hclass, hreason, hevidence, hexit,
    houtcome, Except.ok.injEq]
  constructor
  · rintro ⟨_, hm, _, -, _, -, _, -, _, -, _, hl, _, hi, _, hp, _, rfl, _, ho, _, -, _, hd, _, hf,
      _, rfl, _, rfl, envelope, henvelope, candidate, hcandidate, _, h1, _, h2, _, h3, hc⟩
    refine ⟨⟨hm, hl, hi, hp, ho, hd, hf⟩, envelope, candidate, henvelope, hcandidate,
      (hsame candidate).mp ⟨h1, h2, h3⟩, ?_⟩
    cases hc
    rfl
  · rintro ⟨⟨hm, hl, hi, hp, ho, hd, hf⟩, envelope, candidate, henvelope, hcandidate, hagrees, rfl⟩
    obtain ⟨h1, h2, h3⟩ := (hsame candidate).mpr hagrees
    exact ⟨(), hm, (), hintact, (), trivial, (), trivial, (), ⟨trivial, trivial⟩, (), hl, (), hi,
      (), hp, stage, rfl, (), ho, (), trivial, (), hd, (), hf, _, rfl, _, rfl, envelope, henvelope,
      candidate, hcandidate, (), h1, (), h2, (), h3, rfl⟩

end

/-! ## Agreement -/

section
variable {rt : Runtime} {others : Taken} {s s' s'' : TaskStore} {stamp : Stamp} {run : StageRun}
  {stage : Stage} {envelope : Option Envelope} {context : Option ConvergenceContext}
  {raw classified scored : RunResult}

/-- The row a finished tail leaves for good, and the snapshots its readers meet. -/
lemma finishRun_leaves (hreach : s.Reachable rt anything) (hfind : s.findRun run.runToken = some run)
    (h : s.finishRun rt others stamp run.runToken stage envelope context raw = .ok s')
    (hlater : Relation.ReflTransGen (TaskStore.Step rt anything) s' s'') :
    ∃ classified scored run', Settles rt (allowedOutcomes (dictKeys stage.outcomes)
        envelope.isSome) context raw classified scored ∧
      s''.findRun run.runToken = some run' ∧ run'.runToken = run.runToken ∧
      run'.stage = run.stage ∧ run'.manifest = some (manifestOf (reviewerOverride scored)) ∧
      run'.exitCode = (reviewerOverride scored).exitCode ∧
      run'.outcome = (reviewerOverride scored).outcome ∧
      s''.frozen = s.frozen ∧ s''.input = s.input := by
  obtain ⟨result, hsettle, hcommit⟩ := bind_eq_ok.mp h
  obtain ⟨classified, scored, hsettles, rfl⟩ := settleResult_eq_ok.mp hsettle
  have hstep : TaskStore.Step rt anything s s' :=
    ⟨others, .commit stamp run.runToken (reviewerOverride scored), trivial, hcommit⟩
  have hreach' : s'.Reachable rt anything := hreach.step hstep
  have hchange := TaskStore.commitRun_change hcommit
  obtain ⟨run₀, status, hfound, hover, hsettled⟩ :=
    TaskStore.commitRun_settles (TaskStore.Reachable.rowsNamed hreach') hcommit
  obtain rfl : run₀ = run := Option.some.inj (hfound.symm.trans hfind)
  obtain ⟨hkept, hfrozen, hinput, -⟩ := TaskStore.findRun_later hreach' hsettled hover hlater
  exact ⟨classified, scored, _, hsettles, hkept, rfl, rfl, rfl, rfl, rfl,
    hfrozen.trans hchange.frozen.1, hinput.trans hchange.frozen.2⟩

/-- The record read back is the one the commit saw. -/
lemma sealedRecord_settled (hsettles : Settles rt (allowedOutcomes (dictKeys stage.outcomes)
      envelope.isSome) context raw classified scored) (hraw : Observed rt raw) {run' : StageRun}
    (hmanifest : run'.manifest = some (manifestOf (reviewerOverride scored)))
    (hintact : run'.runToken ∉ s''.damaged)
    (herror : (manifestOf (reviewerOverride scored)).error = none) (record : ConvergenceRecord) :
    s''.sealedRecord rt run' = .ok record ↔
      extractConvergence rt raw.authoritativeText none = .ok record := by
  have htext : (reviewerOverride scored).authoritativeText = raw.authoritativeText :=
    (reviewerOverride_keeps scored).1.trans hsettles.text_eq.2.1
  have hencodes : Encodable (reviewerOverride scored).authoritativeText := by
    rw [htext]
    exact hraw.text_encodable hsettles
  have hread := readSealedRun_of_sealed hmanifest (hsettles.boundary hraw) hintact herror hencodes
  rw [TaskStore.sealedRecord_of_read hread]
  show extractConvergence rt (universalNewlines (reviewerOverride scored).authoritativeText) none
    = .ok record ↔ _
  rw [extractConvergence_newlines, htext]

/-- The inspector derives the sealed candidate of a drifted run exactly when it can. -/
lemma inspectRetained_agrees_iff {files : RetainedFiles} {run' : StageRun}
    (hreads : extractEnvelope rt s.inputText = .ok envelope)
    (hsettles : Settles rt (allowedOutcomes (dictKeys stage.outcomes) envelope.isSome) context raw
      classified scored) (hraw : Observed rt raw) (hdrifted : raw.Drifted)
    (hmanifest : run'.manifest = some (manifestOf (reviewerOverride scored)))
    (hintact : run'.runToken ∉ s''.damaged) (hexit : run'.exitCode = raw.exitCode)
    (houtcome : run'.outcome = (reviewerOverride scored).outcome)
    (hstage : s''.profile.stage run'.stage = .ok stage) (hinput : s''.input = s.input) :
    (∃ c, (manifestOf (reviewerOverride scored)).candidate = some c ∧
        inspectRetained rt s'' files run' = .ok c) ↔ Inspectable rt s files raw := by
  obtain ⟨hexits, htimed, herror, hout, hfinal, -, hfinalText, houtput⟩ := hsettles.manifest hraw
  obtain ⟨hclass, hreason, hnone, hevidence, hcandidate⟩ := hsettles.drifted hraw hdrifted
  obtain ⟨hplain, hcontract⟩ := @verdictOf_retained rt
    (allowedOutcomes (dictKeys stage.outcomes) envelope.isSome) _ _ hexits htimed herror
  obtain ⟨usage, husage⟩ := hraw.extracts hsettles.passes.1
  have hinspect := fun c => @inspectRetained_eq_ok rt _ files _ _ _ _ _ c hmanifest
    hintact (hexits.trans hexit.symm) (houtcome.symm ▸ rfl) hclass hreason hstage hevidence
    (hsettles.boundary hraw) hfinalText houtput
  -- both readings of the input find an envelope, or neither does
  have hpresent : ∀ e, extractEnvelope rt (decodeReplace s''.input) = .ok e →
      e.isSome = envelope.isSome := by
    intro e he
    rw [hinput] at he
    exact extractEnvelope_newlines he hreads
  constructor
  · rintro ⟨c, -, hc⟩
    obtain ⟨⟨hm, hl, hi, hp, ho, hd, hf⟩, e, candidate, he, hclassified, hagrees, -⟩ :=
      (hinspect c).mp hc
    refine ⟨hm, hl, hinput ▸ hi, hp, hout ▸ ho, hd, hfinal ▸ hf, ⟨e, hinput ▸ he⟩, fun hstopped => ?_⟩
    rw [hpresent e he] at hclassified
    obtain ⟨candidate', hclassified', hverdict⟩ := @classifyResult_retained rt
      (allowedOutcomes (dictKeys stage.outcomes) envelope.isSome)
      (manifestOf (reviewerOverride scored)) _ raw.finalResponse _ husage
    rw [hclassified] at hclassified'
    obtain rfl := Except.ok.inj hclassified'
    rw [hcandidate, hverdict, Option.some.injEq] at hagrees
    obtain ⟨hdiffers, hlive⟩ := hcontract hstopped
    have hsame := congrArg Candidate.reason hagrees
    rw [hlive] at hsame
    exact hdiffers hsame.symm
  · intro hinspectable
    obtain ⟨e, he⟩ := hinspectable.envelope
    rw [← hinput] at he
    obtain ⟨candidate, hclassified, hverdict⟩ := @classifyResult_retained rt
      (allowedOutcomes (dictKeys stage.outcomes) envelope.isSome)
      (manifestOf (reviewerOverride scored)) _ raw.finalResponse _ husage
    rw [hplain hinspectable.contract] at hverdict
    refine ⟨_, hcandidate, (hinspect _).mpr ⟨⟨hinspectable.manifest, hinspectable.log,
      hinput ▸ hinspectable.input, hinspectable.profile, hout ▸ hinspectable.output,
      hinspectable.drift, hfinal ▸ hinspectable.finalResponse⟩, e, candidate, he, ?_, ?_, ?_⟩⟩
    · rw [hpresent e he]
      exact hclassified
    · rw [hcandidate, hverdict]
    · exact hverdict.symm

end

/-- **Writer and readers**: whatever a finished tail seals has legal boundary metadata, the gate
reads back the record the commit saw, and the inspector derives the candidate of a drifted run if
and only if the run is inspectable. -/
theorem sealedRuns_agree_iff (rt : Runtime) (db : Db) (hreach : Db.Reachable rt anything db)
    (id : Text) (s : TaskStore) (hs : dictGet id db = some s) (stamp : Stamp) (run : StageRun)
    (stage : Stage) (envelope : Option Envelope) (context : Option ConvergenceContext)
    (htail : s.AtTail rt (db.takenBeside id) stamp run stage envelope context) (raw : RunResult)
    (hraw : Observed rt raw) (s' s'' : TaskStore)
    (hfinish : s.finishRun rt (db.takenBeside id) stamp run.runToken stage envelope context raw
      = .ok s') (hlater : Relation.ReflTransGen (TaskStore.Step rt anything) s' s'')
    (hintact : run.runToken ∉ s''.damaged) (files : RetainedFiles) :
    ((∀ allowed context' result, settleResult rt allowed context' raw = .ok result →
        (manifestOf result).validBoundary = .ok ()) ∧
      ∃ run' m, s''.findRun run.runToken = some run' ∧ run'.manifest = some m ∧
        (m.error = none → ∀ record, s''.sealedRecord rt run' = .ok record ↔
          extractConvergence rt raw.authoritativeText none = .ok record) ∧
        (raw.Drifted → ∃ c, m.candidate = some c ∧ inspectRetained rt s'' files run' = .ok c)) ↔
      (raw.Drifted → Inspectable rt s files raw) := by
  have hreached := hreach.task hs
  have hnamed := TaskStore.Reachable.rowsNamed hreached
  obtain ⟨classified, scored, run', hsettles, hfound, htoken, hstaged, hmanifest, hexit, houtcome,
    hfrozen, hinput⟩ := finishRun_leaves hreached (hnamed.findRun htail.mem) hfinish hlater
  have hstage : s''.profile.stage run'.stage = .ok stage := by
    rw [hstaged, hnamed.staged run htail.mem htail.run_running]
    unfold TaskStore.profile
    rw [hfrozen]
    exact htail.current
  rw [← htoken] at hintact
  have hagrees := fun hdrifted => @inspectRetained_agrees_iff _ _ _ _ _ _ _ _ _ files _ htail.reads hsettles
    hraw hdrifted hmanifest hintact (hexit.trans (hsettles.manifest hraw).1) houtcome hstage hinput
  constructor
  · rintro ⟨-, r, m, hr, hm, -, hinspects⟩ hdrifted
    obtain rfl := Option.some.inj (hfound.symm.trans hr)
    obtain rfl := Option.some.inj (hmanifest.symm.trans hm)
    exact (hagrees hdrifted).mp (hinspects hdrifted)
  · intro hinspectable
    refine ⟨fun allowed context' result hresult => ?_, run', _, hfound, hmanifest,
      fun herror record => sealedRecord_settled hsettles hraw hmanifest hintact herror record,
      fun hdrifted => (hagrees hdrifted).mpr (hinspectable hdrifted)⟩
    obtain ⟨classified', scored', hsettles', rfl⟩ := settleResult_eq_ok.mp hresult
    exact hsettles'.boundary hraw

/-! ## A rejected review and a drift -/

/-- What a computation returns, if it does. -/
lemma toOption_getD {α : Type} {x : Except Exc α} (d : α) (h : x.toOption.isSome = true) :
    x = .ok (x.toOption.getD d) := by
  cases x with
  | error e => cases h
  | ok a => rfl

/-- The reviewer's answer has no review block, so the contract rejects it. -/
def rejectedReview : RunResult :=
  (sampleReviewer.run .standard (sampleAnswer "No review.")).toOption.getD (sampleAnswer [])

/-- Meanwhile a protected root changed. -/
def driftedReview : RunResult :=
  { rejectedReview with containmentStop := some ("protected_root_drift" : Text) }

def sealedDraft : TaskStore :=
  (claimedDraft.finishRun .standard (Db.takenBeside [("task", claimedDraft)] "task")
    (sampleStamp 2) draftRun.runToken draftStage none none driftedReview).toOption.getD claimedDraft

/-- What the reviewer's run, the sealed run and its inspection evaluate to. -/
lemma driftedReview_evaluated :
    (sampleReviewer.run .standard (sampleAnswer "No review.")).toOption.isSome = true ∧
      extractUsage .standard (sampleAnswer "No review.").output =
        .ok (sampleAnswer "No review.").usage ∧
      Encodable (sampleAnswer "No review.").output ∧ Encodable rejectedReview.output ∧
      (claimedDraft.finishRun .standard (Db.takenBeside [("task", claimedDraft)] "task")
        (sampleStamp 2) draftRun.runToken draftStage none none driftedReview).toOption.isSome =
          true ∧
      draftRun.runToken ∉ sealedDraft.damaged ∧
      (sealedDraft.findRun draftRun.runToken).map (fun r =>
        (inspectRetained .standard sealedDraft ⟨0, 0, 0, 0⟩ r).toOption.isSome) = some false := by
  -- each part by itself, so that the kernel forgets one before it begins the next
  refine ⟨?_, ?_, ?_, ?_, ?_, ?_, ?_⟩ <;> decide +kernel

lemma returned_rejectedReview : Returned .standard rejectedReview := by
  obtain ⟨hsome, husage, hencodable, -⟩ := driftedReview_evaluated
  have hrun : sampleReviewer.run .standard (sampleAnswer "No review.") = .ok rejectedReview :=
    toOption_getD (sampleAnswer []) hsome
  refine .configured ⟨.wholeStream, "claude-fable-5-1", 0, 1, encodable_ofString _, by decide⟩
    (.exited ⟨some 0, (sampleAnswer "No review.").output, false, .missing, rfl⟩) sampleReviewer
    (sampleAnswer "No review.") rejectedReview ?_ hrun
  have hlog : SubprocessRunner.writeLog .standard ⟨.wholeStream, "claude-fable-5-1", 0, 1,
      encodable_ofString _, by decide⟩ (sampleAnswer "No review.").output = .ok () :=
    bind_eq_ok.mpr ⟨_, husage, require_eq_ok.mpr (Bool.and_eq_true_iff.mpr
      ⟨decide_eq_true (encodable_ofString _), decide_eq_true hencodable⟩)⟩
  exact bind_eq_ok.mpr ⟨(), hlog, bind_eq_ok.mpr ⟨_, husage, rfl⟩⟩

lemma observed_driftedReview : Observed .standard driftedReview :=
  .drifted _ (.returned _ returned_rejectedReview driftedReview_evaluated.2.2.2.1)

lemma finishRun_driftedReview :
    claimedDraft.finishRun .standard (Db.takenBeside [("task", claimedDraft)] "task")
      (sampleStamp 2) draftRun.runToken draftStage none none driftedReview = .ok sealedDraft :=
  toOption_getD claimedDraft driftedReview_evaluated.2.2.2.2.1

lemma draftRun_intact : draftRun.runToken ∉ sealedDraft.damaged :=
  driftedReview_evaluated.2.2.2.2.2.1

theorem sealedRuns_agree_iff_rejected :
    ((∀ allowed context' result, settleResult .standard allowed context' driftedReview =
        .ok result → (manifestOf result).validBoundary = .ok ()) ∧
      ∃ run' m, sealedDraft.findRun draftRun.runToken = some run' ∧ run'.manifest = some m ∧
        (m.error = none → ∀ record, sealedDraft.sealedRecord .standard run' = .ok record ↔
          extractConvergence .standard driftedReview.authoritativeText none = .ok record) ∧
        (driftedReview.Drifted → ∃ c, m.candidate = some c ∧
          inspectRetained .standard sealedDraft ⟨0, 0, 0, 0⟩ run' = .ok c)) ↔
      (driftedReview.Drifted →
        Inspectable .standard claimedDraft ⟨0, 0, 0, 0⟩ driftedReview) :=
  sealedRuns_agree_iff .standard [("task", claimedDraft)] (reachable_claimedDraft trivial) "task"
    claimedDraft rfl (sampleStamp 2) draftRun draftStage none none atTail_claimedDraft
    driftedReview observed_driftedReview sealedDraft sealedDraft finishRun_driftedReview .refl
    draftRun_intact ⟨0, 0, 0, 0⟩

theorem not_sealedRuns_agree_rejected :
    ¬ ∀ db, Db.Reachable .standard anything db → ∀ id s, dictGet id db = some s →
      ∀ stamp run stage envelope context,
        s.AtTail .standard (db.takenBeside id) stamp run stage envelope context →
          ∀ raw, Observed .standard raw → ∀ s' s'',
            s.finishRun .standard (db.takenBeside id) stamp run.runToken stage envelope context raw
              = .ok s' → Relation.ReflTransGen (TaskStore.Step .standard anything) s' s'' →
            run.runToken ∉ s''.damaged → ∀ files : RetainedFiles, raw.Drifted →
              ∃ run' m c, s''.findRun run.runToken = some run' ∧ run'.manifest = some m ∧
                m.candidate = some c ∧ inspectRetained .standard s'' files run' = .ok c := by
  intro hall
  have hdrifted : driftedReview.Drifted := ⟨"protected_root_drift", by decide, rfl⟩
  obtain ⟨run', m, c, hrun, hm, hc, hinspect⟩ := hall _ (reachable_claimedDraft trivial) "task"
    claimedDraft rfl (sampleStamp 2) draftRun draftStage none none atTail_claimedDraft
    driftedReview observed_driftedReview sealedDraft sealedDraft finishRun_driftedReview .refl
    draftRun_intact ⟨0, 0, 0, 0⟩ hdrifted
  have hfound : sealedDraft.findRun draftRun.runToken = some run' := hrun
  have hfails : ((sealedDraft.findRun draftRun.runToken).map fun r =>
      (inspectRetained .standard sealedDraft ⟨0, 0, 0, 0⟩ r).toOption.isSome) = some false :=
    driftedReview_evaluated.2.2.2.2.2.2
  rw [hfound, Option.map_some, hinspect] at hfails
  cases hfails

end AgentOrch
