import AgentOrch.Construction.ReviewTask
import AgentOrch.Properties.GateCrash
import AgentOrch.Properties.History
import AgentOrch.Properties.TerminalStage

/-!
# Recording a gate review

The reviewer's task ends along one of two edges, whose counters are zero until then; so a finished
task has one transition to its end, and that transition carries `allow` or `block`.  `run_gate_sync`
does not look for it: it collects the outcomes of all runs and all transitions.  Every transition
takes its outcome from a run, so the review is recorded where no run ended with another outcome, and
refused as ambiguous where one did, as after a review that was held for the user.
-/

namespace AgentOrch

open Py Json

/-! ## The reviewer's task -/

/-- The two outcomes of a review. -/
def IsVerdict (outcome : Text) : Prop := outcome = ("allow" : Text) ∨ outcome = ("block" : Text)

/-- The stage a reviewer works at. -/
def reviewStage (owner : Owner) (prompt : Text) : Stage :=
  ⟨"review", some owner, some 2, some 600, some prompt, [("allow", "done"), ("block", "done")],
    none⟩

lemma stage_stopGate {owner : Owner} {prompt name : Text} {stage : Stage}
    (h : (stopGateProfile owner prompt).stage name = .ok stage) :
    stage = reviewStage owner prompt ∨ stage.outcomes = [] := by
  have hmem := mem_of_dictGet (Profile.stage_eq_ok.mp h)
  simp only [stopGateProfile, List.mem_cons, List.not_mem_nil, or_false, Prod.mk.injEq] at hmem
  rcases hmem with ⟨-, rfl⟩ | ⟨-, rfl⟩
  · exact .inl rfl
  · exact .inr rfl

namespace TaskStore

variable {rt : Runtime} {others : Taken} {s s' : TaskStore}

/-- The task runs under one of the stop-gate profiles. -/
def IsGateReview (s : TaskStore) : Prop :=
  ∃ prompt, s.profile = stopGateClaude prompt ∨ s.profile = stopGateCodex prompt

lemma IsGateReview.profile_eq (h : s.IsGateReview) :
    ∃ owner prompt, s.profile = stopGateProfile owner prompt := by
  obtain ⟨prompt, h | h⟩ := h
  · exact ⟨.claude, prompt, h⟩
  · exact ⟨.codex, prompt, h⟩

/-- The outcome of the transition that led to the end. -/
def terminalOutcome (s : TaskStore) : Option Text :=
  (s.transitions.find? fun t => t.toStatus = .done).bind Transition.outcome

/-- A finished run carries the outcome. -/
def Printed (s : TaskStore) (outcome : Text) : Prop :=
  ∃ r ∈ s.stageRuns, r.status ≠ .running ∧ r.outcome = some outcome

/-- Until the end no edge is crossed, so no edge cap stops the task; and every outcome of a
transition is that of a run. -/
structure Reviewed (s : TaskStore) : Prop where
  uncrossed : s.task.status ≠ .done → ∀ e row, s.edgeRow e = some row → row.count = 0
  unended : s.task.status ≠ .done → ∀ t ∈ s.transitions, t.toStatus ≠ .done
  uncapped : ∀ t ∈ s.transitions, t.reason = ("edge_cap" : Text) → t.edge = none
  printed : ∀ t ∈ s.transitions, ∀ outcome, t.outcome = some outcome → s.Printed outcome
  ended : s.task.status = .done → ∃ outcome, s.terminalOutcome = some outcome ∧ IsVerdict outcome

/-- A step that crosses no edge. -/
lemma Reviewed.stays {t : Transition} (hinv : s.Reviewed) (hlive : s.task.status ≠ .done)
    (hstatus : s'.task.status ≠ .done) (hlog : s'.transitions = s.transitions ++ [t])
    (hedge : t.edge = none) (hto : t.toStatus ≠ .done) (hcounts : s'.edgeCounts = s.edgeCounts)
    (hkeeps : ∀ r ∈ s.stageRuns, r.status ≠ .running → r ∈ s'.stageRuns)
    (houtcome : ∀ outcome, t.outcome = some outcome → s'.Printed outcome) : s'.Reviewed where
  uncrossed _ e row hrow := by
    rw [edgeRow, hcounts] at hrow
    exact hinv.uncrossed hlive e row hrow
  unended _ u hu := by
    rw [hlog, List.mem_append, List.mem_singleton] at hu
    rcases hu with hu | rfl
    · exact hinv.unended hlive u hu
    · exact hto
  uncapped u hu hreason := by
    rw [hlog, List.mem_append, List.mem_singleton] at hu
    rcases hu with hu | rfl
    · exact hinv.uncapped u hu hreason
    · exact hedge
  printed u hu outcome hout := by
    rw [hlog, List.mem_append, List.mem_singleton] at hu
    rcases hu with hu | rfl
    · obtain ⟨r, hr, hover, hrout⟩ := hinv.printed u hu outcome hout
      exact ⟨r, hkeeps r hr hover, hover, hrout⟩
    · exact houtcome outcome hout
  ended h := absurd h hstatus

/-- A parked task has not ended. -/
lemma ParkCase.ne_done {result : RunResult} {runStatus : RunStatus} {status : Status}
    {outcome : Option Text} {reason : Text}
    (h : ParkCase rt s result runStatus status outcome reason) : status ≠ .done := by
  cases h with
  | hold => decide
  | stopped _ _ h =>
      cases hclass : result.classification <;> rw [hclass] at h <;> cases h <;> decide

/-- The run a commit settles carries the outcome of the transition. -/
lemma printed_settled {token : Text} {result : RunResult} {run : StageRun} {stage : Stage}
    {manifest : Manifest} {runStatus : RunStatus} {outcome : Option Text} {now : ℤ}
    (hcommit : Committable rt s token result run stage) (hover : runStatus ≠ .running)
    (hruns : s'.stageRuns =
      (s.updateRun run.runToken (settledRun result manifest runStatus outcome now)).stageRuns)
    {printed : Text} (h : outcome = some printed) : s'.Printed printed := by
  have hmem := (mem_runTokens_of_findRun hcommit.find).1
  refine ⟨settledRun result manifest runStatus outcome now run, ?_, hover, h⟩
  rw [hruns]
  exact List.mem_map.mpr ⟨run, hmem, if_pos rfl⟩

/-- The commit of a review ends the task with its outcome. -/
lemma Reviewed.follows {op : Operation} {stamp : Stamp} {token : Text} {result : RunResult}
    {run : StageRun} {stage target : Stage} {present edgeCapHit : Bool} {outcome : Text}
    {row : EdgeCount} (hinv : s.Reviewed) (hreview : s.IsGateReview) (hcounts : s.CountsLog)
    (hnamed : s.RowsNamed) (hcommit : Committable rt s token result run stage)
    (hedge : EdgeTaken s stage outcome present target row edgeCapHit)
    (hchange : Change rt others s op
      (s.followed stamp run stage result outcome target edgeCapHit)) :
    (s.followed stamp run stage result outcome target edgeCapHit).Reviewed := by
  have hlive : s.task.status ≠ .done := by simp [hcommit.running]
  obtain ⟨owner, prompt, hprofile⟩ := hreview.profile_eq
  -- only the review has outcomes, and both lead to the end
  have hstage : stage = reviewStage owner prompt := by
    have hcurrent := hcommit.current
    rw [hprofile] at hcurrent
    refine (stage_stopGate hcurrent).resolve_right fun hnone => ?_
    have hleads := hedge.leads
    rw [hnone] at hleads
    cases hleads
  have hleads : (outcome, target.name) ∈ (reviewStage owner prompt).outcomes :=
    hstage ▸ mem_of_dictGet hedge.leads
  simp only [reviewStage, List.mem_cons, List.not_mem_nil, or_false, Prod.mk.injEq] at hleads
  have htarget : target.name = ("done" : Text) := by
    rcases hleads with h | h
    · exact h.2
    · exact h.2
  have hverdict : IsVerdict outcome := by
    rcases hleads with h | h
    · exact .inl h.1
    · exact .inr h.1
  have hterminal : target.terminal = some .done := by
    have hknown := hedge.known
    rw [hprofile, htarget] at hknown
    obtain rfl := Except.ok.inj hknown
    rfl
  have hhold : outcome ≠ holdOutcome := by
    rcases hverdict with rfl | rfl
    · decide
    · decide
  -- the counter of the edge is zero, so its cap is not hit
  have hhit : edgeCapHit = false := by
    have hseeded := hcounts.seeded (Profile.edgeId stage.name outcome)
    rw [hedge.counter] at hseeded
    have hpos := s.frozen.wellFormed.caps_pos _ row.cap (mem_of_dictGet hseeded.symm)
    rw [hedge.hit, hinv.uncrossed hlive _ row hedge.counter]
    have hcap : ¬row.cap ≤ 0 := by omega
    simp [hcap]
  subst hhit
  have hstatus : edgeStatus false outcome target = (.done, none) := by
    simp [edgeStatus, hhold, hterminal, Terminal.status]
  have hdone : (s.followed stamp run stage result outcome target false).task.status = .done := by
    show (edgeStatus false outcome target).1 = .done
    rw [hstatus]
  have hprinted : (s.followed stamp run stage result outcome target false).Printed outcome :=
    printed_settled hcommit (by decide : RunStatus.committed ≠ .running) rfl rfl
  refine ⟨fun h => absurd hdone h, fun h => absurd hdone h, ?_, ?_, fun _ => ?_⟩
  · intro t ht hreason
    rcases List.mem_append.mp ht with ht | ht
    · exact hinv.uncapped t ht hreason
    · obtain rfl := List.mem_singleton.mp ht
      have hstop : (edgeStatus false outcome target).2.getD ("stage_completed" : Text) =
          "edge_cap" := hreason
      rw [hstatus] at hstop
      exact absurd hstop (by decide)
  · intro t ht printed hout
    rcases List.mem_append.mp ht with ht | ht
    · obtain ⟨r, hr, hover, hrout⟩ := hinv.printed t ht printed hout
      exact ⟨r, hnamed.keeps hchange hr hover, hover, hrout⟩
    · obtain rfl := List.mem_singleton.mp ht
      obtain rfl := Option.some.inj hout
      exact hprinted
  · refine ⟨outcome, ?_, hverdict⟩
    have hnone : s.transitions.find? (fun t => t.toStatus = .done) = none := by
      refine List.find?_eq_none.mpr fun t ht => ?_
      simpa using hinv.unended hlive t ht
    have hlog : (s.followed stamp run stage result outcome target false).transitions =
        s.transitions ++ [⟨s.nextSeq, stamp.operationId, run.runToken, stage.name, stage.owner,
          some (Profile.edgeId stage.name outcome), outcome, some .running,
          (edgeStatus false outcome target).1,
          (edgeStatus false outcome target).2.getD "stage_completed"⟩] := rfl
    rw [terminalOutcome, hlog, List.find?_append, hnone, hstatus]
    rfl

lemma Reviewed.change {op : Operation} (hinv : s.Reviewed) (hreview : s.IsGateReview)
    (hcounts : s.CountsLog) (hnamed : s.RowsNamed) (h : Change rt others s op s') :
    s'.Reviewed := by
  have hkeeps : ∀ r ∈ s.stageRuns, r.status ≠ .running → r ∈ s'.stageRuns :=
    fun r hr hover => hnamed.keeps h hr hover
  cases h with
  | stopCap stamp model stage envelope reason hclaim =>
      exact hinv.stays (by simp [hclaim.queued]) (by simp [capped]) rfl rfl (by simp) rfl hkeeps
        (by simp)
  | claim stamp model stage envelope hclaim =>
      have hlive : s.task.status ≠ .done := by simp [hclaim.queued]
      refine ⟨fun _ => hinv.uncrossed hlive, fun _ => hinv.unended hlive, hinv.uncapped, ?_, ?_⟩
      · intro t ht outcome hout
        obtain ⟨r, hr, hover, hrout⟩ := hinv.printed t ht outcome hout
        exact ⟨r, hkeeps r hr hover, hover, hrout⟩
      · intro hdone
        cases hdone
  | park stamp token result run stage runStatus status outcome reason hcommit hcase =>
      have hlive : s.task.status ≠ .done := by simp [hcommit.running]
      exact hinv.stays hlive hcase.ne_done rfl rfl hcase.ne_done rfl hkeeps fun printed hout =>
        printed_settled hcommit hcase.not_running.1 rfl hout
  | follow stamp token result run stage envelope outcome target row edgeCapHit hcommit hsuccess
      houtcome henvelope hhold hedge hfresh =>
      exact hinv.follows hreview hcounts hnamed hcommit hedge
        (.follow stamp token result run stage envelope outcome target row edgeCapHit hcommit
          hsuccess houtcome henvelope hhold hedge hfresh)
  | resume operationId rerunStage granted hstatus hgranted =>
      have hlive : s.task.status ≠ .done := by
        intro hdone
        simp [hdone] at hstatus
      cases granted with
      | none => exact hinv.stays hlive (by simp [resumedBy]) rfl rfl (by simp) rfl hkeeps (by simp)
      | some g =>
          obtain ⟨t, ht, hreason, hedge⟩ := mem_of_resumedEdge hgranted
          rw [hinv.uncapped t ht hreason] at hedge
          cases hedge
  | preflight stamp stop stage hqueued =>
      have hstop : (if stop.paused then Status.paused else .blocked) ≠ .done := by
        cases stop.paused <;> decide
      exact hinv.stays (by simp [hqueued]) hstop rfl rfl hstop rfl hkeeps (by simp)
  | preflightIdle => exact hinv
  | orphan stamp hrunning =>
      refine hinv.stays (t := ⟨s.nextSeq, stamp.operationId,
        (s.stageRuns.find? fun r => r.status = .running).map StageRun.runToken,
        some s.task.currentStage, s.task.owner, none, none, some .running, .blocked,
        "orphaned_running"⟩) (by simp [hrunning]) (by simp [orphaned]) ?_ rfl (by simp) ?_ hkeeps
        (by simp)
      all_goals
        unfold orphaned
        cases s.stageRuns.find? fun r => r.status = .running <;> rfl
  | alter => exact ⟨hinv.uncrossed, hinv.unended, hinv.uncapped, hinv.printed, hinv.ended⟩

lemma Reviewed.submitted (h : s.Submitted) : s.Reviewed := by
  have hcounts := CountsLog.submitted h
  obtain ⟨others, sub, hsub⟩ := h
  obtain ⟨-, rfl⟩ := submitTask_eq_ok hsub
  refine ⟨fun _ e row hrow => ?_, fun _ t ht => ?_, fun t ht hreason => ?_,
    fun t ht outcome hout => ?_, fun hdone => ?_⟩
  · obtain ⟨cap, hcap, rfl⟩ := List.mem_map.mp (List.mem_of_find?_eq_some hrow)
    rfl
  · obtain rfl := List.mem_singleton.mp ht
    simp
  · obtain rfl := List.mem_singleton.mp ht
    rfl
  · obtain rfl := List.mem_singleton.mp ht
    cases hout
  · cases hdone

/-- The frozen profile is the one of every earlier state. -/
lemma Reachable.reviewed {condition : Condition} (h : s.Reachable rt condition)
    (hreview : s.IsGateReview) : s.Reviewed := by
  revert hreview
  refine h.preserved_of (K := fun s => s.CountsLog ∧ s.RowsNamed)
    (I := fun s => s.IsGateReview → s.Reviewed) (fun _ h => ⟨h.countsLog, h.rowsNamed⟩)
    (fun _ h _ => .submitted h) ?_
  intro others op s s' hknown hinv _ hchange hreview
  have hbefore : s.IsGateReview := by
    unfold IsGateReview profile at hreview ⊢
    rwa [hchange.frozen.1] at hreview
  exact (hinv hbefore).change hbefore hknown.1 hknown.2 hchange

end TaskStore

/-! ## What the sync collects -/

/-- The outcomes that name something. -/
def namedOutcomes {α : Type} (outcome : α → Option Text) (items : List α) : List Text :=
  items.filterMap fun a => (outcome a).filter fun o => !o.isEmpty

lemma mem_namedOutcomes {α : Type} {outcome : α → Option Text} {items : List α} {o : Text} :
    o ∈ namedOutcomes outcome items ↔ o ≠ [] ∧ ∃ a ∈ items, outcome a = some o := by
  simp only [namedOutcomes, List.mem_filterMap, Option.filter_eq_some_iff, Bool.not_eq_true',
    List.isEmpty_eq_false_iff]
  constructor
  · rintro ⟨a, ha, hout, hne⟩
    exact ⟨hne, a, ha, hout⟩
  · rintro ⟨hne, a, ha, hout⟩
    exact ⟨a, ha, hout, hne⟩

/-- The outcomes of rows are read as they stand there. -/
lemma outcomesOf_rows {α : Type} {row : α → List (Text × Value)} {outcome : α → Option Text}
    (h : ∀ a, getValue "outcome" (row a) = Trajectory.optText (outcome a)) (items : List α) :
    Lifecycle.outcomesOf (items.map fun a => .obj (row a)) = .ok (namedOutcomes outcome items) := by
  induction items with
  | nil => rfl
  | cons a rest ih =>
      have hcons : namedOutcomes outcome (a :: rest) =
          ((outcome a).filter fun o => !o.isEmpty).toList ++ namedOutcomes outcome rest := by
        unfold namedOutcomes
        rw [List.filterMap_cons]
        cases (outcome a).filter fun o => !o.isEmpty <;> rfl
      rw [hcons]
      simp only [List.map_cons, Lifecycle.outcomesOf, ih, h, bind, Except.bind, pure, Except.pure]
      cases outcome a with
      | none => rfl
      | some o =>
          by_cases hempty : o = []
          · simp [Trajectory.optText, Option.filter_some, hempty]
          · simp [Trajectory.optText, Option.filter_some, hempty]

/-- A list without repetitions that has one member. -/
lemma dedup_eq_singleton_iff {items : List Text} {o : Text} :
    items.dedup = [o] ↔ o ∈ items ∧ ∀ o' ∈ items, o' = o := by
  constructor
  · intro h
    have hmem : ∀ o', o' ∈ items ↔ o' ∈ [o] := fun o' => by rw [← h, List.mem_dedup]
    exact ⟨(hmem o).mpr (List.mem_singleton.mpr rfl), fun o' ho' =>
      List.mem_singleton.mp ((hmem o').mp ho')⟩
  · rintro ⟨hmem, hall⟩
    have hperm : items.dedup.Perm [o] := by
      refine (List.perm_ext_iff_of_nodup (List.nodup_dedup items) (List.nodup_singleton o)).mpr ?_
      intro o'
      rw [List.mem_dedup, List.mem_singleton]
      exact ⟨hall o', fun h => h ▸ hmem⟩
    exact List.perm_singleton.mp hperm

namespace TaskStore

variable {rt : Runtime} {s : TaskStore} {id requestId : Text} {request notifications : Value}
  {evidencePath : Option Text}

/-- The outcomes in the result of a task. -/
def collected (s : TaskStore) : List Text :=
  namedOutcomes StageRun.outcome s.runsByStart ++
    namedOutcomes Transition.outcome s.transitionsBySeq

lemma mem_collected {outcome : Text} : outcome ∈ s.collected ↔
    outcome ≠ [] ∧ ((∃ r ∈ s.stageRuns, r.outcome = some outcome) ∨
      ∃ t ∈ s.transitions, t.outcome = some outcome) := by
  simp only [collected, List.mem_append, mem_namedOutcomes, runsByStart, transitionsBySeq,
    List.mem_insertionSort]
  exact and_or_left.symm

lemma extract_handledResult (hid : requestId ≠ []) (hdone : s.task.status = .done)
    {known : Text} (hknown : known = requestId) {outcome : Text} :
    Lifecycle.extractGateReviewOutcome (s.handledResult id requestId request notifications
      evidencePath) known = .ok outcome ↔ s.collected.dedup = [outcome] ∧ IsVerdict outcome := by
  subst hknown
  have hrequest : Lifecycle.inSet (getValue "request_id" (s.handledResult id known request
      notifications evidencePath)) [known] = .ok true := by
    have hget : getValue "request_id" (s.handledResult id known request notifications
        evidencePath) = .str known := rfl
    simp [hget, Lifecycle.inSet, Lifecycle.isText, Value.eqv]
  have herror : ("error" : Text) ∉ dictKeys (s.handledResult id known request notifications
      evidencePath) := by
    have hkeys : dictKeys (s.handledResult id known request notifications evidencePath) =
        ["task", "edge_counts", "stage_runs", "transitions", "notifications", "request",
          "request_id", "task_id", "status", "stop_reason", "evidence_path"] := rfl
    rw [hkeys]
    decide
  have hstatus : Lifecycle.isText (getValue "status" (s.handledResult id known request notifications
      evidencePath)) "done" = true := by
    have hget : getValue "status" (s.handledResult id known request notifications
        evidencePath) = .str s.task.status.text := rfl
    rw [hget, hdone]
    rfl
  have hrows : Lifecycle.outcomesOf (s.runsByStart.map fun r => .obj r.row) =
      .ok (namedOutcomes StageRun.outcome s.runsByStart) := outcomesOf_rows (fun _ => rfl) _
  have hlog : Lifecycle.outcomesOf (s.transitionsBySeq.map fun t => .obj t.row) =
      .ok (namedOutcomes Transition.outcome s.transitionsBySeq) := outcomesOf_rows (fun _ => rfl) _
  have hruns : getValue "stage_runs" (s.handledResult id known request notifications
      evidencePath) = .arr (s.runsByStart.map fun r => .obj r.row) := rfl
  have htransitions : getValue "transitions" (s.handledResult id known request notifications
      evidencePath) = .arr (s.transitionsBySeq.map fun t => .obj t.row) := rfl
  unfold Lifecycle.extractGateReviewOutcome
  simp only [hrequest, herror, hstatus, hruns, htransitions, hrows, hlog, bind, Except.bind,
    require, Bool.true_or, Bool.and_self, not_false_eq_true, decide_true, if_true]
  have hcollected : namedOutcomes StageRun.outcome s.runsByStart ++
      namedOutcomes Transition.outcome s.transitionsBySeq = s.collected := rfl
  rw [hcollected]
  cases hdedup : s.collected.dedup with
  | nil => simp
  | cons o rest =>
      cases rest with
      | cons => simp
      | nil =>
          by_cases hverdict : IsVerdict o
          · have hpass : (decide (o = ("allow" : Text)) || decide (o = ("block" : Text))) =
                true := by
              simpa [IsVerdict] using hverdict
            simp only [hpass, if_true, pure, Except.pure, Except.ok.injEq, List.cons.injEq,
              and_true]
            exact ⟨fun h => ⟨h, h ▸ hverdict⟩, fun h => h.1⟩
          · have hfail : (decide (o = ("allow" : Text)) || decide (o = ("block" : Text))) =
                false := by
              simpa [IsVerdict] using hverdict
            simp only [hfail, List.cons.injEq, and_true]
            constructor
            · intro h
              cases h
            · rintro ⟨rfl, h⟩
              exact absurd h hverdict

/-- The sync finds one outcome, the one that ended the task, where no run has another one. -/
lemma Reviewed.collected_iff (hinv : s.Reviewed) (hdone : s.task.status = .done) :
    (∃ outcome, s.collected.dedup = [outcome] ∧ IsVerdict outcome ∧
        s.terminalOutcome = some outcome) ↔
      ∀ r ∈ s.stageRuns, ∀ outcome, r.outcome = some outcome → outcome ≠ [] →
        s.terminalOutcome = some outcome := by
  constructor
  · rintro ⟨outcome, hdedup, -, hterminal⟩ r hr outcome' hout hne
    have hmem : outcome' ∈ s.collected := mem_collected.mpr ⟨hne, .inl ⟨r, hr, hout⟩⟩
    rw [(dedup_eq_singleton_iff.mp hdedup).2 outcome' hmem]
    exact hterminal
  · intro hall
    obtain ⟨outcome, hterminal, hverdict⟩ := hinv.ended hdone
    refine ⟨outcome, dedup_eq_singleton_iff.mpr ⟨?_, ?_⟩, hverdict, hterminal⟩
    · obtain ⟨t, ht, hout⟩ := Option.bind_eq_some_iff.mp hterminal
      refine mem_collected.mpr ⟨?_, .inr ⟨t, List.mem_of_find?_eq_some ht, hout⟩⟩
      rcases hverdict with rfl | rfl
      · decide
      · decide
    · intro outcome' hmem
      obtain ⟨hne, hprinted⟩ := mem_collected.mp hmem
      have hrun : ∃ r ∈ s.stageRuns, r.outcome = some outcome' := by
        rcases hprinted with hrun | ⟨t, ht, hout⟩
        · exact hrun
        · obtain ⟨r, hr, -, hrout⟩ := hinv.printed t ht outcome' hout
          exact ⟨r, hr, hrout⟩
      obtain ⟨r, hr, hout⟩ := hrun
      rw [hall r hr outcome' hout hne] at hterminal
      exact Option.some.inj hterminal

end TaskStore

/-! ## The sync -/

namespace Lifecycle

variable {id : Text} {l : Lifecycle} {processed : List ProcessedFile} {file : ProcessedFile}
  {result : List (Text × Value)}

/-- A review was sent off, nothing is decided or recorded yet, and the latest result of the
reviewer's task is this one. -/
structure AwaitsReview (id : Text) (l : Lifecycle) (processed : List ProcessedFile)
    (file : ProcessedFile) (result : List (Text × Value)) : Prop where
  undecided : l.gateDecision = none
  unrecorded : l.gateReviewResult = none
  pending : ∃ gate original, l.requirePendingStopGate id = .ok (gate, original)
  found : ∃ execution seed seedResult, l.gateReviewExecution = some execution ∧
    execution.requestId ≠ [] ∧ findProcessedResult processed execution.requestId = some seed ∧
    parseProcessed "stop-gate reviewer result" seed = .ok (.obj seedResult) ∧
    findLatestProcessedResult processed seed seedResult = .ok (file, result)

/-- The sync succeeds and records this outcome, which is a verdict. -/
def Records (id : Text) (l : Lifecycle) (processed : List ProcessedFile) (now : Text)
    (terminal : Option Text) : Prop :=
  ∃ l' notices outcome summary, l.runGateSync id processed now = .ok (l', notices) ∧
    terminal = some outcome ∧ IsVerdict outcome ∧ l'.gateReviewResult = some summary ∧
    summary.outcome = outcome

/-- Where a review is awaited, the sync is the recording of the result found. -/
lemma AwaitsReview.runGateSync_eq (h : l.AwaitsReview id processed file result) (now : Text) :
    ∃ gate original execution, l.runGateSync id processed now =
      l.gateSynced id gate original execution (processedRequestId result execution.requestId)
        file.name now result := by
  obtain ⟨gate, original, hpending⟩ := h.pending
  obtain ⟨execution, seed, seedResult, hexecution, hid, hseed, hparse, hlatest⟩ := h.found
  refine ⟨gate, original, execution, ?_⟩
  have hnonempty : (!execution.requestId.isEmpty) = true := by simpa using hid
  unfold runGateSync
  simp only [h.undecided, h.unrecorded, hpending, hexecution, hseed, hparse, hlatest, hnonempty,
    require, bind, Except.bind, Option.isNone_none, if_true]

/-- The result of a finished task is recorded as its outcome is extracted. -/
lemma gateSynced_records {s : TaskStore} {gate : Gate} {original : ExecutionResult}
    {execution : GateReviewExecution} {task requestId path now : Text}
    {request notifications : Value} {evidencePath : Option Text} (hid : requestId ≠ [])
    (hdone : s.task.status = .done) (terminal : Option Text) :
    (∃ l' notices outcome summary, l.gateSynced id gate original execution
        (processedRequestId (s.handledResult task requestId request notifications evidencePath)
          execution.requestId) path now
        (s.handledResult task requestId request notifications evidencePath) = .ok (l', notices) ∧
      terminal = some outcome ∧ IsVerdict outcome ∧ l'.gateReviewResult = some summary ∧
      summary.outcome = outcome) ↔
    ∃ outcome, s.collected.dedup = [outcome] ∧ IsVerdict outcome ∧ terminal = some outcome := by
  have hstatus : getValue "status" (s.handledResult task requestId request notifications
      evidencePath) = .str "done" := by
    have hget : getValue "status" (s.handledResult task requestId request notifications
        evidencePath) = .str s.task.status.text := rfl
    rw [hget, hdone]
    rfl
  have hpending : isPendingUserDecision (s.handledResult task requestId request notifications
      evidencePath) = false := by
    have hno : isText (.str ("done" : Text)) "waiting_user" = false := by decide
    simp [isPendingUserDecision, hstatus, hno]
  have hprocessed : processedRequestId (s.handledResult task requestId request notifications
      evidencePath) execution.requestId = requestId := by
    have hget : getValue "request_id" (s.handledResult task requestId request notifications
        evidencePath) = .str requestId := rfl
    simp [processedRequestId, hget, hid]
  have hstage : lifecycleStageFromResult (s.handledResult task requestId request notifications
      evidencePath) = .ok .done := by
    have hkeys : ("error" : Text) ∉ dictKeys (s.handledResult task requestId request notifications
        evidencePath) := by
      show ("error" : Text) ∉ (["task", "edge_counts", "stage_runs", "transitions", "notifications",
        "request", "request_id", "task_id", "status", "stop_reason", "evidence_path"] : List Text)
      decide
    have hyes : isText (.str ("done" : Text)) "done" = true := by decide
    simp [lifecycleStageFromResult, hkeys, hstatus, hyes]
  have hextract : ∀ outcome, extractGateReviewOutcome (s.handledResult task requestId request
      notifications evidencePath) requestId = .ok outcome ↔
        s.collected.dedup = [outcome] ∧ IsVerdict outcome :=
    fun _ => TaskStore.extract_handledResult hid hdone rfl
  unfold gateSynced
  simp only [hpending, hprocessed, hstage]
  cases hcase : extractGateReviewOutcome (s.handledResult task requestId request notifications
      evidencePath) requestId with
  | error e =>
      constructor
      · rintro ⟨_, _, _, _, h, -⟩
        cases h
      · rintro ⟨outcome, hdedup, hverdict, -⟩
        rw [(hextract outcome).mpr ⟨hdedup, hverdict⟩] at hcase
        cases hcase
  | ok recorded =>
      obtain ⟨hdedup, hverdict⟩ := (hextract recorded).mp hcase
      constructor
      · rintro ⟨l', notices, outcome, summary, h, hterminal, -, hsummary, rfl⟩
        obtain ⟨rfl, -⟩ := Prod.mk.inj (Except.ok.inj h)
        obtain rfl := Option.some.inj hsummary
        exact ⟨recorded, hdedup, hverdict, hterminal⟩
      · rintro ⟨outcome, hdedup', -, hterminal⟩
        have hsame : outcome = recorded := by
          rw [hdedup] at hdedup'
          exact (List.cons.inj hdedup').1.symm
        subst hsame
        exact ⟨_, _, outcome, _, rfl, hterminal, hverdict, rfl, rfl⟩

/-- Whatever a reviewer's task went through, once it is done the sync records the outcome that ended
it if and only if no run of the review ended with another one. -/
theorem gateReview_recorded_iff (rt : Runtime) (db : Db) (hdb : Db.Reachable rt anything db)
    (task : Text) (s : TaskStore) (hs : dictGet task db = some s) (hreview : s.IsGateReview)
    (hdone : s.task.status = .done) (requestId : Text) (hid : Trajectory.isUuid requestId = true)
    (request notifications : Value) (evidencePath : Option Text) (id : Text) (l : Lifecycle)
    (processed : List ProcessedFile) (file : ProcessedFile) (now : Text)
    (h : l.AwaitsReview id processed file
      (s.handledResult task requestId request notifications evidencePath)) :
    l.Records id processed now s.terminalOutcome ↔
      ∀ r ∈ s.stageRuns, ∀ outcome, r.outcome = some outcome → outcome ≠ [] →
        s.terminalOutcome = some outcome := by
  have hnonempty : requestId ≠ [] := by
    rintro rfl
    exact absurd hid (by decide)
  have hinv := (Db.Reachable.task hdb hs).reviewed hreview
  obtain ⟨gate, original, execution, hsync⟩ := h.runGateSync_eq now
  unfold Records
  rw [hsync, gateSynced_records hnonempty hdone]
  exact hinv.collected_iff hdone

/-! ### A review of a gated task -/

/-- The request of the review, and of the resume. -/
def reviewRequest : Text := "00000000-0000-4000-8000-000000000001"

def resumeRequest : Text := "00000000-0000-4000-8000-000000000002"

/-- The profile as its file spells it, with a short prompt. -/
def reviewDocument : Value :=
  .obj [("version", .int 1), ("type", .str "stop-gate"), ("initial_stage", .str "review"),
    ("max_transitions", .int 2),
    ("stages", .obj [
      ("review", .obj [("owner", .str "claude"), ("attempt_cap", .int 2), ("timeout", .int 600),
        ("prompt", .str "Review."),
        ("outcomes", .obj [("allow", .str "done"), ("block", .str "done")])]),
      ("done", .obj [("terminal", .str "done")])]),
    ("edge_caps", .obj [("review.allow", .int 1), ("review.block", .int 1)])]

lemma validateProfile_review : validateProfile reviewDocument = .ok (stopGateClaude "Review.") := by
  decide +kernel

/-- A review of an input with an envelope. -/
def reviewSubmission : Submission where
  taskType := "stop-gate"
  frozen := ⟨stopGateClaude "Review.", validateProfile_wellFormed validateProfile_review⟩
  input := encodeReplace plainInput
  operationId := "op-submit"

/-- The rows after the operations, if all of them succeed. -/
def reviewedBy (ops : List Operation) : Except Exc TaskStore :=
  (submitTask ⟨[], []⟩ reviewSubmission).bind fun s => s.performAll .standard ⟨[], []⟩ ops

/-- What a run of the sample comes to. -/
structure Finished (s : TaskStore) (outcomes : List (Option Text)) : Prop where
  reachable : Db.Reachable .standard anything [(reviewRequest, s)]
  review : s.IsGateReview
  done : s.task.status = .done
  terminal : s.terminalOutcome = some ("allow" : Text)
  outcomes : s.stageRuns.map StageRun.outcome = outcomes

lemma exists_finished {ops : List Operation} {outcomes : List (Option Text)}
    (h : (reviewedBy ops).map (fun s => decide (s.profile = stopGateClaude "Review.") &&
        decide (s.task.status = .done) && decide (s.terminalOutcome = some ("allow" : Text)) &&
        decide (s.stageRuns.map StageRun.outcome = outcomes)) = .ok true) :
    ∃ s, Finished s outcomes := by
  unfold reviewedBy at h
  cases hsub : submitTask ⟨[], []⟩ reviewSubmission with
  | error e =>
      rw [hsub] at h
      cases h
  | ok s0 =>
      rw [hsub] at h
      cases hops : s0.performAll .standard ⟨[], []⟩ ops with
      | error e =>
          simp only [Except.bind, hops] at h
          cases h
      | ok s =>
          simp only [Except.bind, hops, Except.map, Except.ok.injEq, Bool.and_eq_true,
            decide_eq_true_eq] at h
          obtain ⟨⟨⟨hprofile, hdone⟩, hterminal⟩, houtcomes⟩ := h
          exact ⟨s, Db.reachable_single reviewRequest ops hsub hops, ⟨"Review.", .inl hprofile⟩,
            hdone, hterminal, houtcomes⟩

/-- The review is interrupted, is resumed, and prints its verdict. -/
def interruptedReview : List Operation :=
  [.claim (sampleStamp 1) none,
    .blockOrphan (sampleStamp 2),
    .resume "op-resume" false,
    .claim (sampleStamp 3) none,
    .commit (sampleStamp 4) (sampleStamp 3).runToken (sampleSuccess "allow")]

/-- The review asks for a decision of the user, is resumed, and prints its verdict. -/
def heldReview : List Operation :=
  [.claim (sampleStamp 1) none,
    .commit (sampleStamp 2) (sampleStamp 1).runToken (sampleSuccess holdOutcome),
    .resume "op-resume" false,
    .claim (sampleStamp 3) none,
    .commit (sampleStamp 4) (sampleStamp 3).runToken (sampleSuccess "allow")]

lemma finished_interruptedReview : ∃ s, Finished s [none, some ("allow" : Text)] :=
  @exists_finished interruptedReview _ (by decide +kernel)

lemma finished_heldReview : ∃ s, Finished s [some holdOutcome, some "allow"] :=
  @exists_finished heldReview _ (by decide +kernel)

/-- A gated task whose execution is done and whose review is sent off. -/
def reviewEnqueued : Lifecycle :=
  afterwards .standard "gated" (runStart .standard "gated" gatedIntake (.rejected [])).state
    [.startGo (smokeAttempt "first" drawn_first), .startSync [doneResult] false "now",
      .gateRun ⟨true, .ok (), "now", reviewRequest, "inbox/review.json", "stop_gate_claude.yaml",
        "tasks/gated-gate-review-input.md", "tasks/gated-gate-review.md"⟩]

/-- The result the service wrote when the task had stopped for the first time. -/
def firstResult (status stopReason : Text) : ProcessedFile where
  name := "20260929-" ++ reviewRequest ++ ".1.result.json"
  mtime := 1
  content := .ok (.obj [("request_id", .str reviewRequest), ("task_id", .str reviewRequest),
    ("status", .str status), ("stop_reason", .str stopReason)])

/-- The result of a resume, which ended the task. -/
def lastResult (s : TaskStore) : ProcessedFile where
  name := "20260930-" ++ resumeRequest ++ ".2.result.json"
  mtime := 2
  content := .ok (.obj (s.handledResult reviewRequest resumeRequest .null .null none))

lemma awaitsReview (s : TaskStore) (status stopReason : Text) :
    reviewEnqueued.AwaitsReview "gated" [firstResult status stopReason, lastResult s] (lastResult s)
      (s.handledResult reviewRequest resumeRequest .null .null none) := by
  refine ⟨by rfl, by rfl, ⟨_, _, by rfl⟩, _, firstResult status stopReason, _, by rfl, by decide,
    ?_, by rfl, ?_⟩
  · rfl
  · rfl

theorem gateReview_recorded_interrupted : ∃ s, Finished s [none, some ("allow" : Text)] ∧
    reviewEnqueued.Records "gated" [firstResult "blocked" "orphaned_running", lastResult s] "later"
      s.terminalOutcome := by
  obtain ⟨s, hs⟩ := finished_interruptedReview
  refine ⟨s, hs, (gateReview_recorded_iff .standard _ hs.reachable reviewRequest s rfl hs.review
    hs.done resumeRequest (by decide) .null .null none "gated" _ _ _ "later"
    (awaitsReview s "blocked" "orphaned_running")).mpr ?_⟩
  intro r hr outcome hout _
  have hmem : some outcome ∈ s.stageRuns.map StageRun.outcome := List.mem_map.mpr ⟨r, hr, hout⟩
  rw [hs.outcomes] at hmem
  rw [hs.terminal]
  simpa [eq_comm] using hmem

/-- The review was held for the user before it allowed the task: its result cannot be recorded. -/
theorem not_recorded_held : ∃ s, Finished s [some holdOutcome, some "allow"] ∧
    ¬reviewEnqueued.Records "gated" [firstResult "waiting_user" holdStopReason, lastResult s]
      "later" s.terminalOutcome := by
  obtain ⟨s, hs⟩ := finished_heldReview
  refine ⟨s, hs, ?_⟩
  have hrow : dictGet reviewRequest [(reviewRequest, s)] = some s := dictGet_single reviewRequest s
  have hinv := (Db.Reachable.task hs.reachable hrow).reviewed hs.review
  obtain ⟨gate, original, execution, hsync⟩ :=
    (awaitsReview s "waiting_user" holdStopReason).runGateSync_eq "later"
  have hmem : some holdOutcome ∈ s.stageRuns.map StageRun.outcome := by
    rw [hs.outcomes]
    exact List.mem_cons_self
  obtain ⟨r, hr, hout⟩ := List.mem_map.mp hmem
  unfold Records
  rw [hsync, gateSynced_records (by decide) hs.done, hinv.collected_iff hs.done]
  intro hall
  have hterminal := hall r hr holdOutcome hout (by decide)
  rw [hs.terminal] at hterminal
  exact absurd hterminal (by decide)

end Lifecycle

end AgentOrch
