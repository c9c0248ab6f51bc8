import AgentOrch.Properties.Tail

/-!
# The display stream under a native protocol

Two runs that differ in nothing but what they printed are classified and scored alike when their
final response came through a native channel.  They are committed alike too, except that a token
count no column holds keeps a run from being committed at all: `rowsAfter_display_iff` says when
that tells the two runs apart.
-/

namespace AgentOrch

open Py Json

namespace RunResult

/-- The same run with another display stream, and the counts read off it. -/
def display (r : RunResult) (output : Text) (usage : Usage) : RunResult :=
  { r with output := output, usage := usage }

/-- The final response came through a channel of its own. -/
def Native (r : RunResult) : Prop := ∃ p, r.finalResponseSource = some p ∧ p ≠ .wholeStream

/-- The run exited by itself, with status 0, and nothing contained it. -/
structure Clean (r : RunResult) : Prop where
  exitCode : r.exitCode = some 0
  timedOut : r.timedOut = false
  containmentStop : r.containmentStop = none

/-- What classification and the gate decide. -/
def verdict (r : RunResult) : Classification × Option Text × Text :=
  (r.classification, r.outcome, r.reason)

variable {rt : Runtime} {r raw : RunResult} {output : Text} {usage : Usage}

@[simp] lemma verdict_display : (r.display output usage).verdict = r.verdict := rfl

/-- A native run has a text of its own, or an error. -/
lemma Native.finalResponse_isSome (hnative : raw.Native)
    (hboundary : validateSealedBoundary (raw.finalResponseSource.getD .wholeStream)
      raw.finalResponse.isSome raw.finalResponseError = .ok ())
    (herror : raw.finalResponseError = none) : raw.finalResponse.isSome = true := by
  obtain ⟨p, hp, hne⟩ := hnative
  rw [hp, herror, Option.getD_some] at hboundary
  unfold validateSealedBoundary at hboundary
  rw [if_neg hne] at hboundary
  simpa using require_eq_ok.mp hboundary

lemma authoritativeText_display (h : r.finalResponse.isSome = true) :
    (r.display output usage).authoritativeText = r.authoritativeText := by
  obtain ⟨t, ht⟩ := Option.isSome_iff_exists.mp h
  simp [authoritativeText, display, ht]

end RunResult

open RunResult

section
variable {rt : Runtime} {allowed : List Text} {context : Option ConvergenceContext}
  {raw r : RunResult} {output : Text} {usage : Usage}

/-! ## Classifying and scoring -/

/-- A channel that failed is never a success. -/
lemma not_success_of_error {classified : RunResult} (herror : raw.finalResponseError ≠ none)
    (h : classifyResult rt allowed raw = .ok classified) :
    classified.classification ≠ .success := by
  intro hsuccess
  obtain ⟨outcome, hends⟩ := (classified_success h).mp hsuccess
  exact herror hends.2.2.2.1

lemma verdictOf_display (hclean : raw.Clean)
    (htext : raw.finalResponseError = none → raw.finalResponse.isSome = true) :
    verdictOf rt allowed (raw.display output usage) = verdictOf rt allowed raw := by
  have hrejected : (raw.display output usage).reviewRejected = raw.reviewRejected := rfl
  have htimed : (raw.display output usage).timedOut = false := hclean.timedOut
  have hexit : (raw.display output usage).exitCode = some 0 := hclean.exitCode
  have hfailed : (raw.display output usage).finalResponseError = raw.finalResponseError := rfl
  unfold verdictOf
  simp only [htimed, hexit, hfailed, hrejected, hclean.timedOut, hclean.exitCode,
    Bool.false_eq_true, if_false, ne_eq, not_true_eq_false]
  cases herror : raw.finalResponseError with
  | some e => rfl
  | none => simp only [authoritativeText_display (htext herror)]

/-- The other run is classified as the first one was. -/
lemma classifyResult_display {classified : RunResult} {usage' : Usage} (hclean : raw.Clean)
    (htext : raw.finalResponseError = none → raw.finalResponse.isSome = true)
    (h : classifyResult rt allowed raw = .ok classified)
    (husage : telemetryFrom rt (raw.display output usage) = .ok usage') :
    classifyResult rt allowed (raw.display output usage) =
      .ok (classified.display output usage') := by
  obtain ⟨-, hkept, hplain, -⟩ := classifyResult_spec h
  have hverdict := hplain hclean.containmentStop
  have hcandidate : raw.containmentStop.bind (candidateOf rt allowed raw) = none := by
    rw [hclean.containmentStop]
    rfl
  rw [hcandidate] at hkept
  rw [classifyResult_plain husage hclean.containmentStop
    ((verdictOf_display hclean htext).trans hverdict.symm), hkept]
  rfl

/-- A classified success has a text of its own. -/
lemma finalResponse_of_success {classified : RunResult}
    (htext : raw.finalResponseError = none → raw.finalResponse.isSome = true)
    (h : classifyResult rt allowed raw = .ok classified)
    (hsuccess : classified.classification = .success) : classified.finalResponse.isSome = true := by
  obtain ⟨outcome, hends⟩ := (classified_success h).mp hsuccess
  obtain ⟨-, hkept, -⟩ := classifyResult_spec h
  rw [hkept]
  exact htext hends.2.2.2.1

/-- The gate does not look at the display stream of a run with a text of its own. -/
lemma scoreWith_display (htext : r.classification = .success → r.finalResponse.isSome = true) :
    scoreWith rt context (r.display output usage) =
      (scoreWith rt context r).map (·.display output usage) := by
  cases context with
  | none => rfl
  | some c =>
      unfold scoreWith applyConvergence
      by_cases hsuccess : r.classification ≠ .success
      · have hclass : (r.display output usage).classification ≠ .success := hsuccess
        simp only [if_pos hsuccess, if_pos hclass]
        rfl
      · have hsame := @authoritativeText_display _ output usage
          (htext (not_not.mp hsuccess))
        have hclass : ¬ (r.display output usage).classification ≠ .success := hsuccess
        simp only [if_neg hsuccess, if_neg hclass, hsame]
        cases c.error with
        | some e => rfl
        | none =>
            dsimp only
            cases extractConvergence rt r.authoritativeText (some c.isRepeat) with
            | error e => cases e <;> rfl
            | ok record =>
                dsimp only
                split_ifs
                · unfold scoreRepeat
                  cases validateConvergence rt record c.priorLive c.historicalResolved with
                  | error e => cases e <;> rfl
                  | ok verdict =>
                      have houtcome : (r.display output usage).outcome = r.outcome := rfl
                      simp only [houtcome]
                      split_ifs <;> rfl
                · rfl

lemma reviewerOverride_display : reviewerOverride (r.display output usage) =
    (reviewerOverride r).display output usage := by
  have hroute : ((r.display output usage).isReviewer &&
      decide ((r.display output usage).classification = .success) &&
        decide ((r.display output usage).outcome ≠ some ("ready" : Text))) =
      (r.isReviewer && decide (r.classification = .success) &&
        decide (r.outcome ≠ some ("ready" : Text))) := rfl
  unfold reviewerOverride
  rw [hroute]
  split_ifs <;> rfl

/-- Classified and scored, the two runs have one verdict, or fail alike. -/
lemma scored_display (hclean : raw.Clean) (hraw : raw.FromRunner rt)
    (hother : (raw.display output usage).FromRunner rt)
    (htext : raw.finalResponseError = none → raw.finalResponse.isSome = true) :
    (do
      let classified ← classifyResult rt allowed (raw.display output usage)
      let scored ← scoreWith rt context classified
      return scored.verdict) =
    (do
      let classified ← classifyResult rt allowed raw
      let scored ← scoreWith rt context classified
      return scored.verdict) := by
  obtain ⟨_, -, husage⟩ := hraw.telemetry
  obtain ⟨usage', -, husage'⟩ := hother.telemetry
  obtain ⟨classified, hclassified⟩ : ∃ classified, classifyResult rt allowed raw = .ok classified :=
    ⟨_, classifyResult_plain husage hclean.containmentStop rfl⟩
  rw [classifyResult_display hclean htext hclassified husage', hclassified]
  simp only [bind, Except.bind]
  rw [scoreWith_display fun h => finalResponse_of_success htext hclassified h]
  cases scoreWith rt context classified <;> rfl

end

/-! ## Committing -/

namespace TaskStore

variable {rt : Runtime} {others : Taken} {s s₁ s₂ : TaskStore} {stamp : Stamp}
  {r : RunResult} {output : Text} {usage : Usage}

/-- The rows of a task beside its runs: its own row, its edge counters and its transitions. -/
def rows (s : TaskStore) : TaskRow × List EdgeCount × List Transition :=
  (s.task, s.edgeCounts, s.transitions)

/-- The rows after a transaction; one that raises leaves the old ones. -/
def rowsAfter (s : TaskStore) (transaction : Except Exc TaskStore) :
    TaskRow × List EdgeCount × List Transition :=
  match transaction with
  | .ok s' => s'.rows
  | .error _ => s.rows

/-- The counter and the target an outcome takes are determined. -/
lemma EdgeTaken.unique {stage target target' : Stage} {outcome : Text} {present hit hit' : Bool}
    {row row' : EdgeCount} (h : EdgeTaken s stage outcome present target row hit)
    (h' : EdgeTaken s stage outcome present target' row' hit') : target = target' ∧ hit = hit' := by
  have hleads := h'.leads
  rw [h.leads] at hleads
  have hknown := h'.known
  rw [← Option.some.inj hleads, h.known] at hknown
  have hcounter := h'.counter
  rw [h.counter] at hcounter
  refine ⟨Except.ok.inj hknown, ?_⟩
  rw [h.hit, h'.hit, Option.some.inj hcounter]

/-- Two commits of runs that differ in their display stream leave the same rows. -/
lemma commitRun_display {token : Text} (h₁ : s.commitRun rt others stamp token r = .ok s₁)
    (h₂ : s.commitRun rt others stamp token (r.display output usage) = .ok s₂) :
    s₂.rows = s₁.rows := by
  unfold commitRun at h₁ h₂
  cases hfind : s.findRun token with
  | none =>
      rw [hfind] at h₁
      cases h₁
  | some run =>
      simp only [hfind, bind_eq_ok] at h₁ h₂
      obtain ⟨_, _, _, _, stage, hstage, m₁, hm₁, h₁⟩ := h₁
      obtain ⟨_, _, _, _, stage', hstage', m₂, hm₂, h₂⟩ := h₂
      obtain rfl := (sealRunManifest_ok.mp hm₁).1
      obtain rfl := (sealRunManifest_ok.mp hm₂).1
      rw [hstage] at hstage'
      obtain rfl := Except.ok.inj hstage'
      by_cases hsuccess : r.classification = .success
      · have hsuccess' : (r.display output usage).classification = .success := hsuccess
        rw [if_pos hsuccess] at h₁
        rw [if_pos hsuccess'] at h₂
        cases houtcome : r.outcome with
        | none =>
            rw [houtcome] at h₁
            cases h₁
        | some outcome =>
            have houtcome' : (r.display output usage).outcome = some outcome := houtcome
            simp only [houtcome, houtcome', bind_eq_ok] at h₁ h₂
            obtain ⟨envelope, henvelope, h₁⟩ := h₁
            obtain ⟨envelope', henvelope', h₂⟩ := h₂
            rw [henvelope] at henvelope'
            obtain rfl := Except.ok.inj henvelope'
            split_ifs at h₁ h₂
            · obtain ⟨-, -, rfl⟩ := parkRun_eq_ok h₁
              obtain ⟨-, -, rfl⟩ := parkRun_eq_ok h₂
              rfl
            · obtain ⟨target, row, hit, hedge, -, -, rfl⟩ := followEdge_eq_ok h₁
              obtain ⟨target', row', hit', hedge', -, -, rfl⟩ := followEdge_eq_ok h₂
              obtain ⟨rfl, rfl⟩ := hedge.unique hedge'
              cases hit <;> rfl
      · have hsuccess' : ¬ (r.display output usage).classification = .success := hsuccess
        have hreason : (r.display output usage).classification = r.classification := rfl
        rw [if_neg hsuccess] at h₁
        rw [if_neg hsuccess', hreason] at h₂
        cases hparked : parkedAs r.classification with
        | none =>
            rw [hparked] at h₁
            cases h₁
        | some statuses =>
            simp only [hparked] at h₁ h₂
            obtain ⟨-, -, rfl⟩ := parkRun_eq_ok h₁
            obtain ⟨-, -, rfl⟩ := parkRun_eq_ok h₂
            rfl

/-- A commit moves the revision of its task. -/
lemma commitRun_revision {token : Text} (h : s.commitRun rt others stamp token r = .ok s₁) :
    s₁.rows ≠ s.rows := by
  intro hsame
  have hrevision : s₁.task.revision = s.task.revision := by
    have := congrArg (fun x => x.1.revision) hsame
    exact this
  have hmoved : s₁.task.revision = s.task.revision + 1 := by
    cases commitRun_change h with
    | park => rfl
    | follow => rfl
  omega

end TaskStore

/-! ## The tail -/

section
variable {rt : Runtime} {others : Taken} {s : TaskStore} {stamp : Stamp} {run : StageRun}
  {stage : Stage} {envelope : Option Envelope} {context : Option ConvergenceContext}
  {raw : RunResult} {output : Text} {usage : Usage}

/-- Settling the other run gives the same result, but for the display stream. -/
lemma settles_display {allowed : List Text} {classified scored : RunResult} (hclean : raw.Clean)
    (htext : raw.finalResponseError = none → raw.finalResponse.isSome = true)
    (hother : (raw.display output usage).FromRunner rt)
    (h : Settles rt allowed context raw classified scored) :
    ∃ usage', Settles rt allowed context (raw.display output usage)
      (classified.display output usage') (scored.display output usage') := by
  obtain ⟨usage', -, husage'⟩ := hother.telemetry
  refine ⟨usage', classifyResult_display hclean htext h.classifies husage', ?_, ?_⟩
  · rw [scoreWith_display fun hsuccess => finalResponse_of_success htext h.classifies hsuccess,
      h.scores]
    rfl
  · rw [reviewerOverride_display]
    exact h.reported

/-- What the other sinks accept does not depend on the display stream. -/
lemma passes_display {allowed : List Text}
    (htext : raw.finalResponseError = none → raw.finalResponse.isSome = true)
    (h : raw.Passes rt allowed context) : (raw.display output usage).Passes rt allowed context where
  record outcome c hends hc herror := by
    have hsame := @authoritativeText_display _ output usage
      (htext hends.2.2.2.1)
    rw [hsame]
    refine h.record outcome c ⟨hends.1, hends.2.1, hends.2.2.1, hends.2.2.2.1, hends.2.2.2.2.1, ?_,
      hends.2.2.2.2.2.2⟩ hc herror
    rw [← hsame]
    exact hends.2.2.2.2.2.1
  report := h.report
  receipt := h.receipt

/-- The rows the two tails leave agree if the counts of both streams fit or those of neither do, and
otherwise only if another sink refuses both. -/
theorem rowsAfter_display_iff (hreach : s.Reachable rt TaskStore.plainTokens)
    (htail : s.AtTail rt others stamp run stage envelope context) (hclean : raw.Clean)
    (hnative : raw.Native) (hraw : raw.FromRunner rt)
    (hother : (raw.display output usage).FromRunner rt) :
    s.rowsAfter (s.finishRun rt others stamp run.runToken stage envelope context
        (raw.display output usage)) =
      s.rowsAfter (s.finishRun rt others stamp run.runToken stage envelope context raw) ↔
    ((raw.CountsFit rt ↔ (raw.display output usage).CountsFit rt) ∨
      ¬ raw.Passes rt (allowedOutcomes (dictKeys stage.outcomes) envelope.isSome) context) := by
  have htext := hnative.finalResponse_isSome hraw.boundary
  have hsinks : (raw.display output usage).Passes rt
      (allowedOutcomes (dictKeys stage.outcomes) envelope.isSome) context ↔
      raw.Passes rt (allowedOutcomes (dictKeys stage.outcomes) envelope.isSome) context :=
    ⟨fun h => @passes_display _ _ (raw.display output usage) raw.output raw.usage _ htext h, passes_display htext⟩
  have hreturns := finishRun_returns_iff hreach htail hraw
  have hreturns' := finishRun_returns_iff hreach htail hother
  cases hx : s.finishRun rt others stamp run.runToken stage envelope context raw with
  | error e =>
      have hrefused : ¬ raw.Harmless rt
          (allowedOutcomes (dictKeys stage.outcomes) envelope.isSome) context := by
        rw [← hreturns, hx]
        rintro ⟨s', h, -⟩
        cases h
      cases hy : s.finishRun rt others stamp run.runToken stage envelope context
          (raw.display output usage) with
      | error e' =>
          have hrefused' : ¬ (raw.display output usage).Harmless rt
              (allowedOutcomes (dictKeys stage.outcomes) envelope.isSome) context := by
            rw [← hreturns', hy]
            rintro ⟨s', h, -⟩
            cases h
          refine iff_of_true rfl ?_
          by_contra hnot
          obtain ⟨hcounts, hpasses⟩ := not_or.mp hnot
          have hpasses := not_not.mp hpasses
          have hmisfit : ¬ raw.CountsFit rt := fun hfit => hrefused ⟨hpasses, hfit⟩
          have hmisfit' : ¬ (raw.display output usage).CountsFit rt :=
            fun hfit => hrefused' ⟨hsinks.mpr hpasses, hfit⟩
          exact hcounts (iff_of_false hmisfit hmisfit')
      | ok s₂ =>
          have hharmless' := harmless_of_finishRun hother hy
          refine iff_of_false ?_ ?_
          · obtain ⟨result, -, hcommit⟩ := bind_eq_ok.mp hy
            exact TaskStore.commitRun_revision hcommit
          · rintro (hcounts | hpasses)
            · exact hrefused ⟨hsinks.mp hharmless'.toPasses, hcounts.mpr hharmless'.counts⟩
            · exact hpasses (hsinks.mp hharmless'.toPasses)
  | ok s₁ =>
      have hharmless := harmless_of_finishRun hraw hx
      obtain ⟨result, hsettle, hcommit⟩ := bind_eq_ok.mp hx
      obtain ⟨classified, scored, hsettles, rfl⟩ := settleResult_eq_ok.mp hsettle
      cases hy : s.finishRun rt others stamp run.runToken stage envelope context
          (raw.display output usage) with
      | error e' =>
          refine iff_of_false (TaskStore.commitRun_revision hcommit).symm ?_
          rintro (hcounts | hpasses)
          · have hharmless' : (raw.display output usage).Harmless rt
                (allowedOutcomes (dictKeys stage.outcomes) envelope.isSome) context :=
              ⟨hsinks.mpr hharmless.toPasses, hcounts.mp hharmless.counts⟩
            obtain ⟨s', h, -⟩ := hreturns'.mpr hharmless'
            rw [hy] at h
            cases h
          · exact hpasses hharmless.toPasses
      | ok s₂ =>
          have hharmless' := harmless_of_finishRun hother hy
          refine iff_of_true ?_ (.inl (iff_of_true hharmless.counts hharmless'.counts))
          obtain ⟨result', hsettle', hcommit'⟩ := bind_eq_ok.mp hy
          obtain ⟨usage', hsettles'⟩ := settles_display hclean htext hother hsettles
          have hresult : result' = (reviewerOverride scored).display output usage' := by
            have := settleResult_eq_ok.mpr ⟨_, _, hsettles', rfl⟩
            rw [hsettle'] at this
            rw [Except.ok.inj this, reviewerOverride_display]
          rw [hresult] at hcommit'
          exact TaskStore.commitRun_display hcommit hcommit'

end

/-- **The display stream has no authority** under a native protocol: two clean runs that differ in
their display stream alone have one verdict in every context, a failed channel is never a success,
and the two commits leave the same rows if and only if the token counts of both streams fit, or of
neither, or another sink refuses the run anyway. -/
theorem displayStream_powerless_iff (rt : Runtime) (db : Db)
    (hreach : Db.Reachable rt TaskStore.plainTokens db) (id : Text) (s : TaskStore)
    (hs : dictGet id db = some s) (stamp : Stamp) (run : StageRun) (stage : Stage)
    (envelope : Option Envelope) (context : Option ConvergenceContext)
    (htail : s.AtTail rt (db.takenBeside id) stamp run stage envelope context)
    (raw other : RunResult) (hraw : Returned rt raw) (hother : Returned rt other)
    (hclean : raw.Clean) (hnative : raw.Native)
    (hsame : other = raw.display other.output other.usage) :
    ((∀ allowed context',
        (do
          let classified ← classifyResult rt allowed other
          let scored ← scoreWith rt context' classified
          return scored.verdict) =
        (do
          let classified ← classifyResult rt allowed raw
          let scored ← scoreWith rt context' classified
          return scored.verdict)) ∧
      (raw.finalResponseError ≠ none → ∀ allowed classified,
        classifyResult rt allowed raw = .ok classified → classified.classification ≠ .success) ∧
      s.rowsAfter (s.finishRun rt (db.takenBeside id) stamp run.runToken stage envelope context
          other) =
        s.rowsAfter (s.finishRun rt (db.takenBeside id) stamp run.runToken stage envelope context
          raw)) ↔
    ((raw.CountsFit rt ↔ other.CountsFit rt) ∨
      ¬ raw.Passes rt (allowedOutcomes (dictKeys stage.outcomes) envelope.isSome) context) := by
  have htext := hnative.finalResponse_isSome hraw.fromRunner.boundary
  have hdisplayed := hother.fromRunner
  rw [hsame] at hdisplayed ⊢
  have hrows := rowsAfter_display_iff (hreach.task hs) htail hclean hnative hraw.fromRunner
    hdisplayed
  refine ⟨fun h => hrows.mp h.2.2, fun h => ⟨fun allowed context' => ?_, fun herror allowed
    classified hclassified => not_success_of_error herror hclassified, hrows.mpr h⟩⟩
  exact scored_display hclean hraw.fromRunner hdisplayed htext

/-! ## One answer, two streams -/

def nativeLaunch : Launch := { sampleLaunch with protocol := .codexLastMessage }

def draftedAnswer : Text := "ORCHESTRATOR_OUTCOME: drafted"

/-- A provider that prints `output`, and answers through its own channel. -/
def answered (output : Text) (usage : Usage) : RunResult :=
  { printed output usage with
    finalResponse := some draftedAnswer
    finalResponseSource := some .codexLastMessage }

lemma returned_answered {rt : Runtime} {output : Text} {usage : Usage} (henc : Encodable output)
    (husage : extractUsage rt output = .ok usage) : Returned rt (answered output usage) := by
  refine .subprocess nativeLaunch
    (.exited ⟨some 0, output, false, .file (encodeReplace draftedAnswer), rfl⟩) _ ?_
  have hlog : SubprocessRunner.writeLog rt nativeLaunch output = .ok () := by
    refine bind_eq_ok.mpr ⟨usage, husage, require_eq_ok.mpr ?_⟩
    simp [henc, nativeLaunch, sampleLaunch.model_encodable]
  have hfinal : readFinalResponse .codexLastMessage (.file (encodeReplace draftedAnswer)) =
      ⟨.codexLastMessage, some draftedAnswer, none⟩ := by
    have hsmall : ¬ finalResponseMaxBytes < (encodeReplace draftedAnswer).length := by
      decide +kernel
    have hread : decodeStrict (encodeReplace draftedAnswer) = some draftedAnswer :=
      decodeStrict_encode (encodable_ofString _)
    have hblank : isBlank draftedAnswer = false := by decide
    simp [readFinalResponse, hsmall, hread, hblank]
  have hprotocol : nativeLaunch.protocol = .codexLastMessage := rfl
  refine bind_eq_ok.mpr ⟨(), hlog, bind_eq_ok.mpr ⟨usage, husage, ?_⟩⟩
  rw [hprotocol, hfinal]
  rfl

def silentUsage : Usage := ⟨none, none, none, some "provider_cli_usage_not_reported"⟩

lemma extractUsage_silent : extractUsage .standard [] = .ok silentUsage := by
  decide +kernel

lemma returned_silent : Returned .standard (answered [] silentUsage) :=
  returned_answered encodable_nil extractUsage_silent

lemma returned_loud : Returned .standard (answered oversizedStream oversizedUsage) :=
  returned_answered (encodable_ofString _) extractUsage_oversized

lemma native_answered (output : Text) (usage : Usage) : (answered output usage).Native :=
  ⟨.codexLastMessage, rfl, by simp⟩

theorem displayStream_powerless_iff_answered :
    ((∀ allowed context',
        (do
          let classified ← classifyResult .standard allowed (answered oversizedStream oversizedUsage)
          let scored ← scoreWith .standard context' classified
          return scored.verdict) =
        (do
          let classified ← classifyResult .standard allowed (answered [] silentUsage)
          let scored ← scoreWith .standard context' classified
          return scored.verdict)) ∧
      ((answered [] silentUsage).finalResponseError ≠ none → ∀ allowed classified,
        classifyResult .standard allowed (answered [] silentUsage) = .ok classified →
          classified.classification ≠ .success) ∧
      claimedDraft.rowsAfter (claimedDraft.finishRun .standard
          (Db.takenBeside [("task", claimedDraft)] "task") (sampleStamp 2) draftRun.runToken
          draftStage none none (answered oversizedStream oversizedUsage)) =
        claimedDraft.rowsAfter (claimedDraft.finishRun .standard
          (Db.takenBeside [("task", claimedDraft)] "task") (sampleStamp 2) draftRun.runToken
          draftStage none none (answered [] silentUsage))) ↔
    (((answered [] silentUsage).CountsFit .standard ↔
        (answered oversizedStream oversizedUsage).CountsFit .standard) ∨
      ¬ (answered [] silentUsage).Passes .standard
        (allowedOutcomes (dictKeys draftStage.outcomes) false) none) :=
  displayStream_powerless_iff .standard [("task", claimedDraft)] reachable_plainDraft "task"
    claimedDraft rfl (sampleStamp 2) draftRun draftStage none none atTail_claimedDraft
    (answered [] silentUsage) (answered oversizedStream oversizedUsage) returned_silent
    returned_loud ⟨rfl, rfl, rfl⟩ (native_answered _ _) rfl

theorem not_displayStream_powerless_answered :
    ¬ ∀ db, Db.Reachable .standard TaskStore.plainTokens db → ∀ id s, dictGet id db = some s →
      ∀ stamp run stage envelope context,
        s.AtTail .standard (db.takenBeside id) stamp run stage envelope context →
          ∀ raw other, Returned .standard raw → Returned .standard other → raw.Clean →
            raw.Native → other = raw.display other.output other.usage →
              s.rowsAfter (s.finishRun .standard (db.takenBeside id) stamp run.runToken stage
                  envelope context other) =
                s.rowsAfter (s.finishRun .standard (db.takenBeside id) stamp run.runToken stage
                  envelope context raw) := by
  intro hall
  have hrows := hall _ reachable_plainDraft "task" claimedDraft rfl (sampleStamp 2) draftRun
    draftStage none none atTail_claimedDraft (answered [] silentUsage)
    (answered oversizedStream oversizedUsage) returned_silent returned_loud ⟨rfl, rfl, rfl⟩
    (native_answered _ _) rfl
  have hreach := reachable_plainDraft.task (dictGet_single "task" claimedDraft)
  have hloud := returned_loud.fromRunner
  rcases (@rowsAfter_display_iff _ _ _ _ _ _ _ _ _ oversizedStream oversizedUsage hreach
    atTail_claimedDraft ⟨rfl, rfl, rfl⟩ (native_answered _ _) returned_silent.fromRunner
    hloud).mp hrows with hcounts | hpasses
  · -- the silent stream states no counts, the other one states too large a count
    have hsilent : (answered [] silentUsage).CountsFit .standard := by
      intro usage husage
      rw [show extractUsage .standard (answered [] silentUsage).output = _ from
        extractUsage_silent] at husage
      rw [← Except.ok.inj husage]
      exact ⟨rfl, rfl, rfl⟩
    exact absurd (hcounts.mp hsilent oversizedUsage extractUsage_oversized).2.2 (by decide)
  · refine hpasses ⟨fun _ _ _ hcontext => (nomatch hcontext), fun hreviewer => ?_, ?_⟩
    · exact absurd hreviewer (by decide)
    · decide +kernel

end AgentOrch
