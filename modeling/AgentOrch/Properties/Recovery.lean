import AgentOrch.Properties.GateHistory
import AgentOrch.Properties.ReviewVerdict

/-!
# Recovery from a record that was never established

A branching run whose text holds no record is stopped by the gate, and the seal keeps the reason.
The reader of the history skips such a run by that reason, so that a later review can establish a
baseline.  `recovers_iff` says when it does: a reviewer's result is routed to the user with a
reason of its own in front, which the reader does not recognise.
-/

namespace AgentOrch

open Py Json

/-! ## Stopped runs -/

/-- The gate held the run because no record could be established, and the run was sealed as the loop
routed it. -/
def HeldUnestablished (rt : Runtime) (run : StageRun) : Prop :=
  ∃ allowed context raw classified reason,
    GateSealed rt run allowed context raw classified (classified.hold reason) ∧
      isUnestablished reason = true

/-- The sealed receipt says that the run was a reviewer's. -/
def StageRun.isReviewer (run : StageRun) : Bool :=
  match run.manifest.bind fun m => m.executionReceipt.bind (dictGet "role") with
  | some (.str role) => role = ("reviewer" : Text)
  | _ => false

/-- The reason of a routed result does not say why the gate held it. -/
lemma isUnestablished_routed (reason : Text) :
    isUnestablished ("review_requires_astra_decision: " ++ reason) = false := by
  have hinvalid : ("convergence_record_invalid" : Text).isPrefixOf
      ("review_requires_astra_decision: " ++ reason) = false := rfl
  have hunverifiable : ("convergence_unverifiable" : Text).isPrefixOf
      ("review_requires_astra_decision: " ++ reason) = false := rfl
  simp [isUnestablished, convergenceUnestablishedReasons, hinvalid, hunverifiable]

namespace HeldUnestablished

variable {rt : Runtime} {s : TaskStore} {run : StageRun}

/-- A held reviewer run is routed, any other is sealed with the gate's reason. -/
lemma reason_routed {result : RunResult} {reason : Text} (hreason : isUnestablished reason = true)
    (hmanifest : run.manifest = some (manifestOf (reviewerOverride (result.hold reason)))) :
    isUnestablished (reviewerOverride (result.hold reason)).reason = !run.isReviewer := by
  have hreviewer : (result.hold reason).isReviewer = run.isReviewer := by
    have hreceipt := (reviewerOverride_keeps (result.hold reason)).2.1
    unfold StageRun.isReviewer RunResult.isReviewer
    rw [hmanifest, Option.bind_some, ← hreceipt]
    rfl
  have hready : holdOutcome ≠ ("ready" : Text) := by decide
  rw [← hreviewer]
  unfold reviewerOverride
  cases hrole : (result.hold reason).isReviewer with
  | true =>
      have hroute : (true && decide ((result.hold reason).classification = .success) &&
          decide ((result.hold reason).outcome ≠ some ("ready" : Text))) = true := by
        simp [RunResult.hold, hready]
      rw [if_pos hroute]
      exact isUnestablished_routed _
  | false =>
      simp only [Bool.false_and, Bool.false_eq_true, if_false, Bool.not_false]
      exact hreason

/-- The reader of the history skips a run without a record exactly when it is no reviewer's, and
its text fails as a record and not as JSON. -/
lemma skipped_iff (h : HeldUnestablished rt run) (hintact : run.runToken ∉ s.damaged) :
    s.Skipped rt run ↔ run.isReviewer = false ∧
      ∃ m, s.sealedRecord rt run = .error (.convergenceError m) := by
  obtain ⟨allowed, context, raw, classified, reason, hsealed, hreason⟩ := h
  have hread := hsealed.readSealedRun hintact
  have hrecord : s.sealedRecord rt run = _ := TaskStore.sealedRecord_of_read hread
  have hrouted := reason_routed hreason hsealed.manifest
  constructor
  · rintro ⟨sealed_, m, hread', hextract, hunestablished⟩
    obtain rfl := Except.ok.inj (hread.symm.trans hread')
    have hunestablished : isUnestablished (reviewerOverride (classified.hold reason)).reason =
        true := hunestablished
    rw [hrouted, Bool.not_eq_true'] at hunestablished
    exact ⟨hunestablished, m, hrecord.trans hextract⟩
  · rintro ⟨hreviewer, m, hextract⟩
    refine ⟨_, m, hread, hrecord.symm.trans hextract, ?_⟩
    rw [hreviewer, Bool.not_false] at hrouted
    exact hrouted

end HeldUnestablished

/-- A run that went through the gate has a record in its seal, or was stopped for having none. -/
lemma GateSealed.record_or_held {rt : Runtime} {s : TaskStore} {run : StageRun}
    {allowed : List Text} {context : ConvergenceContext} {raw classified scored : RunResult}
    (h : GateSealed rt run allowed context raw classified scored)
    (hintact : run.runToken ∉ s.damaged) :
    (∃ record, s.sealedRecord rt run = .ok record) ∨ HeldUnestablished rt run := by
  have hscores : applyConvergence rt classified context = .ok scored := h.settles.scores
  unfold applyConvergence at hscores
  rw [if_neg (by simp [h.success])] at hscores
  cases herror : context.error with
  | some e =>
      simp only [herror] at hscores
      cases hscores
      exact .inr ⟨_, _, _, _, _, h, rfl⟩
  | none =>
      simp only [herror] at hscores
      cases hextract : extractConvergence rt classified.authoritativeText
          (some context.isRepeat) with
      | error e =>
          rw [hextract] at hscores
          cases e with
          | convergenceError m =>
              cases hscores
              exact .inr ⟨_, _, _, _, _, h, rfl⟩
          | _ => cases hscores
      | ok record =>
          refine .inl ⟨record, ?_⟩
          rw [h.sealedRecord hintact]
          exact (extractConvergence_reread hextract).1

/-! ## Recovery -/

namespace TaskStore

variable {rt : Runtime} {s : TaskStore}

/-- The history the recovery is about: every branching run is intact, and has a record or was
stopped for having none. -/
structure StoppedUnestablished (rt : Runtime) (s : TaskStore) : Prop where
  intact : ∀ r ∈ s.runsOfArity .branching, r.2.runToken ∉ s.damaged
  stopped : ∀ r ∈ s.runsOfArity .branching, (∃ record, s.sealedRecord rt r.2 = .ok record) ∨
    HeldUnestablished rt r.2

/-- The history of an envelope task that nothing was altered in is such a history. -/
theorem Reachable.stoppedUnestablished {condition : Condition} {envelope : Envelope}
    (hloop : ∀ op s, condition op s → fromLoop rt op s) (h : s.Reachable rt condition)
    (henvelope : extractEnvelope rt s.inputText = .ok (some envelope)) (hintact : s.damaged = []) :
    s.StoppedUnestablished rt := by
  have hgate := h.gateHistory hloop envelope henvelope
  refine ⟨fun r _ => by simp [hintact], fun r hr => ?_⟩
  obtain ⟨entry, hentry, hbranching, hrun⟩ := mem_runsOfArity hr
  obtain ⟨_, _, _, _, _, hsealed⟩ := hgate entry hentry hbranching
  rw [← hrun]
  exact hsealed.record_or_held (by simp [hintact])

/-- The next run of a stage is scored against exactly the readable runs, and a first review with
a record of its own goes through. -/
structure Recovers (rt : Runtime) (s : TaskStore) (context : ConvergenceContext) : Prop where
  unbroken : context.error = none
  baselines : context = .ofRecords (s.readableRecords rt (s.runsOfArity .branching))
    ((s.runsOfArity .correction).map Prod.fst) none
  establishes : context.isRepeat = false → ∀ result record,
    extractConvergence rt result.authoritativeText (some false) = .ok record →
      applyConvergence rt result context = .ok result

/-- The runs that break the recovery: without a record, and either a reviewer's, or with a text on
which the JSON reader fails otherwise than by a `JSONDecodeError`. -/
def Unrecoverable (rt : Runtime) (s : TaskStore) (run : StageRun) : Prop :=
  (∀ record, s.sealedRecord rt run ≠ .ok record) ∧
    (run.isReviewer = true ∨ ∀ m, s.sealedRecord rt run ≠ .error (.convergenceError m))

lemma applyConvergence_first {result : RunResult} {context : ConvergenceContext}
    {record : ConvergenceRecord} (herror : context.error = none)
    (hfirst : context.isRepeat = false)
    (hextract : extractConvergence rt result.authoritativeText (some false) = .ok record) :
    applyConvergence rt result context = .ok result := by
  unfold applyConvergence
  by_cases hclass : result.classification ≠ .success
  · rw [if_pos hclass]
  · rw [if_neg hclass]
    simp only [herror, hfirst, hextract]
    rfl

end TaskStore

/-- The reviewer's answer to a draft: a valid review, with an outcome but no convergence record. -/
def unrecordedReview : RunResult :=
  match sampleReviewer.run .standard
      (sampleAnswer (sampleReview "FAIL" "ORCHESTRATOR_OUTCOME: needs_correction")) with
  | .ok answered => answered
  | .error _ => .basic none [] none .raw "raw"

/-- A draft, and that review. -/
def reviewedDraft : Option TaskStore := do
  let drafted ← envelopeTask.following .standard
    (sampleIteration 1 (sampleOutput "ORCHESTRATOR_OUTCOME: drafted\n"))
  drafted.following .standard (sampleIteration 2 unrecordedReview)

/-- The next review of that draft has an error for a context. -/
lemma reviewedDraft_broken : reviewedDraft.any (fun s => s.damaged.isEmpty &&
    s.profile.stageArity "review" = .branching &&
      (s.convergenceContext .standard "review").toOption.join.any (·.error.isSome)) = true := by
  decide +kernel

lemma unrecordedReview_reviewer : unrecordedReview.isReviewer = true ∧
    Encodable unrecordedReview.output := by
  decide +kernel

lemma decoded_unrecordedReview : unrecordedReview.Decoded := by
  obtain ⟨hreviewer, houtput⟩ := unrecordedReview_reviewer
  refine ⟨fun _ => houtput, fun hother => ?_⟩
  rw [hreviewer] at hother
  cases hother

end AgentOrch
