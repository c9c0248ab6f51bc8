import AgentOrch.Properties.GateHistory

/-!
# Where the baselines come from

What a branching run is scored against is read back from the sealed texts of earlier runs, without
the shape and the partition that were required of them.  A record that the gate rejected may still
be readable then.  `groundedContexts_of_reachable` says that the contexts are sound in every run in
which no text with a readable record is rejected, and `not_grounded_rejectedFirst` is a run in
which one is.
-/

namespace AgentOrch

open Py Json

/-! ## Rejected runs -/

/-- The reasons under which the gate rejects a record, or the lack of one. -/
def rejectionReasons : List Text :=
  ["convergence_record_invalid", "convergence_unverifiable", "convergence_contradictory"]

/-- A sealed reason says that the gate rejected the run, before or after it was routed. -/
def isRejection (reason : Text) : Bool :=
  rejectionReasons.any fun p =>
    p.isPrefixOf reason || ("review_requires_astra_decision: " ++ p).isPrefixOf reason

/-- The run was held as rejected when it was committed. -/
def StageRun.rejected (run : StageRun) : Bool := run.manifest.any fun m => isRejection m.reason

/-- Routing keeps what a reason says about rejection. -/
lemma isRejection_routed {reason : Text} (h : isRejection reason = false) :
    isRejection ("review_requires_astra_decision: " ++ reason) = false := by
  have hinner : ∀ p ∈ rejectionReasons, ("review_requires_astra_decision: " ++ p).isPrefixOf
      ("review_requires_astra_decision: " ++ reason) = p.isPrefixOf reason := by
    intro p _
    rw [Bool.eq_iff_iff, List.isPrefixOf_iff_prefix, List.isPrefixOf_iff_prefix,
      List.prefix_append_right_inj]
  have houter : ∀ p ∈ rejectionReasons,
      p.isPrefixOf ("review_requires_astra_decision: " ++ reason) = false := by
    intro p hp
    simp only [rejectionReasons, List.mem_cons, List.not_mem_nil, or_false] at hp
    rcases hp with rfl | rfl | rfl <;> rfl
  refine List.any_eq_false.mpr fun p hp => ?_
  have hp' := List.any_eq_false.mp h p hp
  rw [Bool.or_eq_true, not_or] at hp'
  simpa [hinner p hp, houter p hp] using hp'.1

/-- A verdict that holds the run is no rejection. -/
lemma isRejection_verdict (v : Verdict) : isRejection ("convergence_" ++ v.text) = false := by
  cases v <;> decide

lemma isRejection_success : isRejection "success" = false := by decide

/-- What the loop seals is a rejection only if the gate's reason is. -/
lemma isRejection_reviewerOverride {scored : RunResult} (h : isRejection scored.reason = false) :
    isRejection (reviewerOverride scored).reason = false := by
  unfold reviewerOverride
  split_ifs
  · exact isRejection_routed h
  · exact h

/-! ## Texts that fit the history -/

namespace TaskStore

variable {rt : Runtime} {others : Taken} {s s' : TaskStore}

/-- A text has no readable record, or one of the shape the history asks for: with a baseline, a
partition that agrees with it, and without one, a first record.  The history itself must read. -/
structure Fits (rt : Runtime) (s : TaskStore) (text : Text) : Prop where
  through : ∀ record, extractConvergence rt text none = .ok record →
    ∀ r ∈ s.runsOfArity .branching,
      (∃ record, s.sealedRecord rt r.2 = .ok record) ∨ s.Skipped rt r.2
  first : ∀ record, extractConvergence rt text none = .ok record →
    s.baseline rt s.committedRunHistory = none → record.scored = none
  repeats : ∀ record index prior, extractConvergence rt text none = .ok record →
    s.baseline rt s.committedRunHistory = some (index, prior) → ∃ verdict,
      validateConvergence rt record prior.live
        ((s.readableRecords rt (s.runsOfArity .branching)).flatMap fun r => r.2.resolved) =
          .ok verdict

/-- A validated record has the repeat shape. -/
lemma scored_of_validate {record : ConvergenceRecord} {prior historical : List Text}
    {verdict : Verdict} (h : validateConvergence rt record prior historical = .ok verdict) :
    record.scored.isSome = true := by
  unfold validateConvergence at h
  cases hscored : record.scored with
  | none =>
      rw [hscored] at h
      cases h
  | some scored => rfl

/-- The gate rejects no text with a readable record that fits the history. -/
lemma Fits.not_rejected {stage : Text} {context : ConvergenceContext}
    {classified scored : RunResult} {record : ConvergenceRecord}
    (hfits : s.Fits rt classified.authoritativeText)
    (hcontext : s.convergenceContext rt stage = .ok (some context))
    (hsuccess : classified.classification = .success) (hreason : classified.reason = "success")
    (hscores : applyConvergence rt classified context = .ok scored)
    (hrecord : extractConvergence rt classified.authoritativeText none = .ok record) :
    isRejection scored.reason = false := by
  have hthrough := sealedConvergenceRecords_ok.mpr ⟨rfl, hfits.through record hrecord⟩
  have hcontext : context = .ofRecords (s.readableRecords rt (s.runsOfArity .branching))
      ((s.runsOfArity .correction).map Prod.fst) none := by
    unfold convergenceContext at hcontext
    split_ifs at hcontext
    · cases hcontext
    · rw [hthrough] at hcontext
      cases hcontext
      rfl
  have hkeeps : isRejection classified.reason = false := by
    rw [hreason]
    exact isRejection_success
  have hread := extractConvergence_none hrecord
  unfold applyConvergence at hscores
  rw [if_neg (by simp [hsuccess])] at hscores
  have hbaseline : s.baseline rt s.committedRunHistory = ConvergenceContext.select
    (s.readableRecords rt (s.runsOfArity .branching))
    ((s.runsOfArity .correction).map Prod.fst) := rfl
  cases hselect : s.baseline rt s.committedRunHistory with
  | none =>
      rw [hfits.first record hrecord hselect, Option.isSome_none] at hread
      rw [hbaseline] at hselect
      rw [hcontext, ConvergenceContext.ofRecords_first hselect] at hscores
      simp only [ConvergenceContext.first, hread, Bool.false_eq_true, if_false] at hscores
      cases hscores
      exact hkeeps
  | some baseline =>
      obtain ⟨index, prior⟩ := baseline
      obtain ⟨verdict, hvalid⟩ := hfits.repeats record index prior hrecord hselect
      rw [scored_of_validate hvalid] at hread
      rw [hbaseline] at hselect
      rw [hcontext, ConvergenceContext.ofRecords_select hselect] at hscores
      simp only [hread, if_true] at hscores
      unfold scoreRepeat at hscores
      simp only [hvalid] at hscores
      split_ifs at hscores
      · cases hscores
        exact hkeeps
      · cases hscores
        exact isRejection_verdict verdict
      · cases hscores
        exact hkeeps

/-! ## Runs whose commits fit -/

/-- A commit of the run loop whose text fits the history its context was read from, when the run is
scored at all. -/
inductive FittingCommit (rt : Runtime) (s : TaskStore) : RunResult → Prop
  | stopped (message : Text)
      (hreads : extractEnvelope rt s.inputText = .error (.envelopeError message)) :
    FittingCommit rt s (.basic none ("controller rejected envelope framing: " ++ message ++ "\n")
      none .blocked "envelope_invalid")
  | settled (before : List Text) (stage : Stage) (envelope : Option Envelope)
      (context : Option ConvergenceContext) (provider : Provider) (classified scored : RunResult)
      (hfrom : SettledFrom rt s before stage envelope context provider classified scored)
      (hfits : context.isSome → classified.classification = .success →
        Fits rt { s with damaged := before } classified.authoritativeText) :
    FittingCommit rt s (reviewerOverride scored)

/-- Every commit is one of the run loop's, and fits. -/
def fittingLoop (rt : Runtime) : Condition := fun op s =>
  match op with
  | .commit _ _ result => FittingCommit rt s result
  | _ => True

/-- No branching run with a readable record was rejected. -/
def SoundHistory (rt : Runtime) (s : TaskStore) : Prop :=
  ∀ h ∈ s.committedRunHistory, s.profile.stageArity h.stage = .branching →
    ∀ record, s.sealedRecord rt h.run = .ok record → h.run.rejected = false

/-- A settled success is classified with the reason `success`. -/
lemma reason_of_success {allowed : List Text} {raw classified : RunResult}
    (h : classifyResult rt allowed raw = .ok classified)
    (hsuccess : classified.classification = .success) : classified.reason = "success" := by
  obtain ⟨-, -, hplain, hstopped⟩ := classifyResult_spec h
  cases hstop : raw.containmentStop with
  | some stop =>
      have hblocked : classified.classification = .blocked :=
        congrArg (fun t => t.2.1) (hstopped stop hstop)
      rw [hsuccess] at hblocked
      cases hblocked
  | none =>
      have hverdict := hplain hstop
      rw [hsuccess] at hverdict
      exact (verdictOf_success.mp hverdict.symm).2.2.2.2.1

/-- The run a fitting commit seals is not rejected, if its record reads. -/
lemma FittingCommit.not_rejected {result : RunResult} {run : StageRun} {record : ConvergenceRecord}
    (h : FittingCommit rt s result)
    (hbranching : s.profile.stageArity s.task.currentStage = .branching)
    (hcommits : result.classification = .success ∨ result.classification = .waitingUser)
    (hseals : sealRunManifest rt result = .ok (manifestOf result))
    (hmanifest : run.manifest = some (manifestOf result)) (hintact : run.runToken ∉ s.damaged)
    (hrecord : s.sealedRecord rt run = .ok record) : run.rejected = false := by
  have hrejected : run.rejected = isRejection result.reason := by
    rw [StageRun.rejected, hmanifest]
    rfl
  rw [hrejected]
  cases h with
  | stopped message hreads => rcases hcommits with hcommits | hcommits <;> cases hcommits
  | settled before stage envelope context provider classified scored hfrom hfits =>
      have hsuccess := hfrom.settles.success hcommits
      have hreason := reason_of_success hfrom.settles.classifies hsuccess
      refine isRejection_reviewerOverride ?_
      cases envelope with
      | none =>
          have hcontext : context = none := (Except.ok.inj hfrom.scoredFrom).symm
          have hscores := hfrom.settles.scores
          rw [hcontext] at hscores
          obtain rfl : classified = scored := Except.ok.inj hscores
          rw [hreason]
          exact isRejection_success
      | some envelope =>
          obtain ⟨c, rfl, hgate⟩ := hfrom.gateSealed hbranching hsuccess hseals hmanifest
          rw [hgate.sealedRecord hintact, extractConvergence_newlines] at hrecord
          exact (hfits rfl hsuccess).not_rejected hfrom.scoredFrom hsuccess hreason
            hfrom.settles.scores hrecord

/-- No transaction repairs a sealed run. -/
lemma Change.damaged {op : Operation} (h : Change rt others s op s') :
    s.damaged ⊆ s'.damaged := by
  cases h with
  | resume operationId rerunStage granted => cases granted <;> exact List.Subset.refl _
  | follow stamp token result run stage envelope outcome target row edgeCapHit =>
      cases edgeCapHit <;> exact List.Subset.refl _
  | orphan =>
      unfold orphaned
      cases s.stageRuns.find? fun r => r.status = .running <;> exact List.Subset.refl _
  | alter token => exact List.subset_cons_self token s.damaged
  | _ => exact List.Subset.refl _

/-- One transaction keeps the history sound, if it fits. -/
lemma SoundHistory.change {op : Operation} (hinv : s.SoundHistory rt) (hnames : s.RowsNamed)
    (hlease : s.LeaseHeld) (hop : fittingLoop rt op s) (h : Change rt others s op s') :
    s'.SoundHistory rt := by
  intro entry hentry hbranching record hrecord
  have hsame : s'.profile.stageArity entry.stage = s.profile.stageArity entry.stage := by
    rw [profile, profile, h.frozen.1]
  rw [hsame] at hbranching
  have hrecord := sealedRecord_mono h.damaged hrecord
  cases op with
  | commit stamp token result =>
      rcases hnames.history_commit hlease h with
        hhistory | ⟨run, hmanifest, hintact, hseals, hcommits, hhistory⟩
      · rw [hhistory] at hentry
        exact hinv entry hentry hbranching record hrecord
      · rw [hhistory, List.mem_append, List.mem_singleton] at hentry
        rcases hentry with hentry | rfl
        · exact hinv entry hentry hbranching record hrecord
        · exact FittingCommit.not_rejected hop hbranching hcommits hseals hmanifest hintact hrecord
  | _ =>
      rw [hnames.history_kept hlease h (by simp)] at hentry
      exact hinv entry hentry hbranching record hrecord

lemma SoundHistory.submitted (h : s.Submitted) : s.SoundHistory rt := by
  obtain ⟨others, sub, h⟩ := h
  obtain ⟨-, rfl⟩ := submitTask_eq_ok h
  intro entry hentry
  cases hentry

lemma Reachable.soundHistory (h : s.Reachable rt (fittingLoop rt)) : s.SoundHistory rt :=
  h.preserved_of (K := fun s => s.RowsNamed ∧ s.LeaseHeld)
    (fun _ h => ⟨h.rowsNamed, h.leaseHeld⟩) (fun _ => SoundHistory.submitted)
    fun hknown hinv hop hchange => hinv.change hknown.1 hknown.2 hop hchange

/-! ## Grounded contexts -/

/-- The run is a committed branching run that was not rejected, with this record in its seal. -/
structure Source (rt : Runtime) (s : TaskStore) (run : ℕ × StageRun) (record : ConvergenceRecord) :
    Prop where
  committed : run ∈ s.runsOfArity .branching
  accepted : run.2.rejected = false
  reads : s.sealedRecord rt run.2 = .ok record

/-- The sets of a context come from such runs: the live set from the baseline, the resolved ones
from any. -/
structure Grounded (rt : Runtime) (s : TaskStore) (context : ConvergenceContext) : Prop where
  priorLive : context.priorLive = [] ∨
    ∃ run record, Source rt s run record ∧ context.priorLive = record.live
  historicalResolved : ∃ sources : List ((ℕ × StageRun) × ConvergenceRecord),
    (∀ source ∈ sources, Source rt s source.1 source.2) ∧
      context.historicalResolved = sources.flatMap fun source => source.2.resolved

/-- The resolved sets of the readable runs come from these runs. -/
lemma readable_sources (runs : List (ℕ × StageRun)) :
    ∃ sources : List ((ℕ × StageRun) × ConvergenceRecord),
      (∀ source ∈ sources, source.1 ∈ runs ∧ s.sealedRecord rt source.1.2 = .ok source.2) ∧
        ((s.readableRecords rt runs).flatMap fun r => r.2.resolved) =
          sources.flatMap fun source => source.2.resolved := by
  induction runs with
  | nil => exact ⟨[], by simp, rfl⟩
  | cons r rest ih =>
      obtain ⟨sources, hsources, hsets⟩ := ih
      have hrest : ∀ source ∈ sources, source.1 ∈ r :: rest ∧
          s.sealedRecord rt source.1.2 = .ok source.2 := fun source h =>
        ⟨List.mem_cons_of_mem r (hsources source h).1, (hsources source h).2⟩
      rw [readableRecords_cons]
      cases hrecord : s.sealedRecord rt r.2 with
      | error e => exact ⟨sources, hrest, hsets⟩
      | ok record =>
          refine ⟨(r, record) :: sources, ?_, ?_⟩
          · rw [List.forall_mem_cons]
            exact ⟨⟨List.mem_cons_self, hrecord⟩, hrest⟩
          · rw [List.flatMap_append, hsets]
            simp

/-- With a sound history every context is grounded. -/
theorem SoundHistory.grounded {stage : Text} {context : ConvergenceContext}
    (h : s.SoundHistory rt) (hcontext : s.convergenceContext rt stage = .ok (some context)) :
    Grounded rt s context := by
  have hsource : ∀ run record, run ∈ s.runsOfArity .branching →
      s.sealedRecord rt run.2 = .ok record → Source rt s run record := by
    intro run record hrun hrecord
    obtain ⟨entry, hentry, hbranching, hsame⟩ := mem_runsOfArity hrun
    rw [← hsame] at hrecord
    have haccepted := h entry hentry hbranching record hrecord
    rw [hsame] at hrecord haccepted
    exact ⟨hrun, haccepted, hrecord⟩
  unfold convergenceContext at hcontext
  by_cases hother : s.profile.stageArity stage ≠ .branching
  · rw [if_pos hother] at hcontext
    cases hcontext
  rw [if_neg hother] at hcontext
  obtain ⟨⟨records, error⟩, hrecords, hcontext⟩ := bind_eq_ok.mp hcontext
  obtain rfl := Option.some.inj (Except.ok.inj hcontext)
  have hempty : ∀ error, Grounded rt s (.first error) := fun error =>
    ⟨.inl rfl, [], by simp, rfl⟩
  cases error with
  | some e =>
      have hfirst : ConvergenceContext.ofRecords records
          ((s.runsOfArity .correction).map Prod.fst) (some e) = .first (some e) := by
        unfold ConvergenceContext.ofRecords
        cases ConvergenceContext.select records ((s.runsOfArity .correction).map Prod.fst) <;> rfl
      rw [hfirst]
      exact hempty _
  | none =>
      obtain ⟨rfl, -⟩ := sealedConvergenceRecords_ok.mp hrecords
      cases hselect : ConvergenceContext.select (s.readableRecords rt (s.runsOfArity .branching))
          ((s.runsOfArity .correction).map Prod.fst) with
      | none =>
          rw [ConvergenceContext.ofRecords_first hselect]
          exact hempty _
      | some baseline =>
          obtain ⟨index, prior⟩ := baseline
          rw [ConvergenceContext.ofRecords_select hselect]
          obtain ⟨run, hrun, hrecord⟩ :=
            mem_readableRecords.mp (ConvergenceContext.mem_of_select hselect)
          obtain ⟨sources, hsources, hsets⟩ :=
            readable_sources (s.runsOfArity .branching)
          exact ⟨.inr ⟨(index, run), prior, hsource _ _ hrun hrecord, rfl⟩, sources,
            fun source hmem => hsource _ _ (hsources source hmem).1 (hsources source hmem).2, hsets⟩

end TaskStore

def draftedOutput : RunResult := sampleOutput "ORCHESTRATOR_OUTCOME: drafted\n"

/-- A review with a convergence record that asks for a correction. -/
def recordedReview (record : Text) : RunResult :=
  sampleOutput
    (convergenceBegin ++ record ++ convergenceEnd ++ "\nORCHESTRATOR_OUTCOME: needs_correction\n")

/-- A record of the repeat shape that resolves `b`, and a first record. -/
def repeatShaped : Text :=
  "\x7b\"live\":[\"a\"],\"resolved\":[\"b\"],\"new\":[\"a\"],\"repeated\":[],\"verdict\":\"stalled\"\x7d"

def firstShaped : Text := "\x7b\"live\":[\"a\"],\"resolved\":[]\x7d"

/-- The rows after a resume. -/
def resumed (s : TaskStore) : Option TaskStore :=
  (s.resumeTask ⟨[], []⟩ "op-resume" false).toOption

/-- The first review prints a repeat record and is held, the second one a first record; then the
draft is corrected. -/
def rejectedFirst : Option TaskStore := do
  let drafted ← envelopeTask.following .standard (sampleIteration 1 draftedOutput)
  let held ← drafted.following .standard (sampleIteration 2 (recordedReview repeatShaped))
  let queued ← resumed held
  let reviewed ← queued.following .standard (sampleIteration 3 (recordedReview firstShaped))
  reviewed.following .standard (sampleIteration 4 draftedOutput)

/-- The next review is scored against `b` as resolved, which only a rejected run resolves. -/
lemma rejectedFirst_context : rejectedFirst.any (fun s =>
    ((s.convergenceContext .standard "review").toOption.join.any fun c =>
        ("b" : Text) ∈ c.historicalResolved) &&
      (s.runsOfArity .branching).all fun r => r.2.rejected ||
        (s.sealedRecord .standard r.2).toOption.all fun record => ("b" : Text) ∉ record.resolved) =
    true := by
  decide +kernel

lemma decoded_recordedReview {record : Text} (h : Encodable record) :
    (recordedReview record).Decoded := by
  have hmarkers : Encodable convergenceBegin ∧ Encodable convergenceEnd :=
    ⟨encodable_ofString _, encodable_ofString _⟩
  refine decoded_sampleOutput ?_
  simp only [encodable_append]
  exact ⟨⟨⟨hmarkers.1, h⟩, hmarkers.2⟩, encodable_ofString _⟩

lemma rejectedFirst_reachable {s : TaskStore} (h : rejectedFirst = some s) :
    Db.Reachable .standard (TaskStore.fromLoop .standard) [("task", s)] ∧
      s.input = envelopeTask.input := by
  simp only [rejectedFirst, Option.bind_eq_bind, Option.bind_eq_some_iff] at h
  obtain ⟨drafted, hdrafted, held, hheld, queued, hqueued, reviewed, hreviewed, hlast⟩ := h
  have hdraft : draftedOutput.Decoded := decoded_sampleOutput (encodable_ofString _)
  have hrepeat := decoded_recordedReview (encodable_ofString _ : Encodable repeatShaped)
  have hfirst := decoded_recordedReview (encodable_ofString _ : Encodable firstShaped)
  have hresume : held.perform .standard ⟨[], []⟩ (.resume "op-resume" false) = .ok queued := by
    unfold resumed at hqueued
    cases hresumed : held.resumeTask ⟨[], []⟩ "op-resume" false with
    | error e =>
        rw [hresumed] at hqueued
        cases hqueued
    | ok s' =>
        rw [hresumed] at hqueued
        cases hqueued
        exact hresumed
  have hdb : Db.Reachable .standard (TaskStore.fromLoop .standard) [("task", envelopeTask)] :=
    Db.reachable_submitted "task" (submitTask_draft _)
  have hdb := (hdb.single_following (decoded_sampleIteration hdraft) hdrafted).single_following
    (decoded_sampleIteration hrepeat) hheld
  have hop : TaskStore.fromLoop .standard (.resume "op-resume" false) held := trivial
  have hdb := (hdb.single_step hop hresume).single_following
    (decoded_sampleIteration hfirst) hreviewed
  refine ⟨hdb.single_following (decoded_sampleIteration hdraft) hlast, ?_⟩
  rw [TaskStore.following_input hlast (decoded_sampleIteration hdraft),
    TaskStore.following_input hreviewed (decoded_sampleIteration hfirst),
    (TaskStore.perform_change hresume).frozen.2,
    TaskStore.following_input hheld (decoded_sampleIteration hrepeat),
    TaskStore.following_input hdrafted (decoded_sampleIteration hdraft)]

end AgentOrch
