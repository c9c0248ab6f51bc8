import AgentOrch.Properties.Changes

/-!
# The loop budget

Two counters bound an unattended loop: the counter of each edge against its cap, and the number
of committed edges against `max_transitions`.  Both are read off the log exactly, and while the
caps are in force neither exceeds its cap by more than the operator granted with resumes.
-/

namespace AgentOrch

open Py Json

/-- A resume is the only operation that starts from a parked status. -/
def Transition.isResume (t : Transition) : Bool :=
  t.fromStatus = some .waitingUser || t.fromStatus = some .paused || t.fromStatus = some .blocked

namespace TaskStore

variable {rt : Runtime} {others : Taken} {s s' : TaskStore}

/-! ## What the log counts -/

/-- The transitions that name an edge and were not stopped at its cap. -/
def crossings (s : TaskStore) (edge : Text) : ℕ :=
  s.transitions.countP fun t => t.edge = some edge && t.reason ≠ ("edge_cap" : Text)

/-- The resumes that granted an edge. -/
def grants (s : TaskStore) (edge : Text) : ℕ :=
  s.transitions.countP fun t => t.isResume && t.edge = some edge

/-- The transitions that committed an edge. -/
def committedEdges (s : TaskStore) : ℕ :=
  s.transitions.countP fun t => t.fromStatus = some .running && t.edge.isSome

/-- The resumes out of `waiting_user`. -/
def resumesFromWaiting (s : TaskStore) : ℕ :=
  s.transitions.countP fun t => t.fromStatus = some .waitingUser

/-- The caps bind: the task has no envelope, or its profile fails `_gate_reachable`. -/
def CapsInForce (rt : Runtime) (s : TaskStore) : Prop :=
  ∀ envelope, s.envelopeForTask rt = .ok envelope → s.uncapped envelope = false

/-! ## The counters are exact -/

/-- The rows of `edge_counts` are those of the profile, and both counters agree with the log. -/
structure CountsLog (s : TaskStore) : Prop where
  seeded : ∀ e, (s.edgeRow e).map EdgeCount.cap = dictGet e s.profile.edgeCaps
  counted : ∀ e row, s.edgeRow e = some row → row.count = s.crossings e
  limit : s.task.maxTransitions = s.profile.maxTransitions
  committed : s.task.transitionsCount = s.committedEdges

lemma edgeRow_bumpEdge {e e' : Text} : (s.bumpEdge e).edgeRow e' =
    (s.edgeRow e').map fun row => if e' = e then { row with count := row.count + 1 } else row := by
  unfold edgeRow bumpEdge
  simp only [List.find?_map]
  have hsame : ((fun r : EdgeCount => decide (r.edge = e')) ∘ fun r : EdgeCount =>
      if r.edge = e then { r with count := r.count + 1 } else r) =
        fun r => decide (r.edge = e') := by
    funext r
    simp only [Function.comp_apply]
    split_ifs <;> rfl
  rw [hsame]
  cases hrow : s.edgeCounts.find? fun r => decide (r.edge = e') with
  | none => rfl
  | some row =>
      have hedge : row.edge = e' := by simpa using List.find?_some hrow
      simp only [Option.map_some, hedge]

/-- A change of one transition without an edge keeps the counters exact. -/
lemma CountsLog.plain {t : Transition} (hinv : s.CountsLog)
    (hlog : s'.transitions = s.transitions ++ [t]) (hedge : t.edge = none)
    (hcounts : s'.edgeCounts = s.edgeCounts) (hfrozen : s'.frozen = s.frozen)
    (hlimit : s'.task.maxTransitions = s.task.maxTransitions)
    (hcount : s'.task.transitionsCount = s.task.transitionsCount) : s'.CountsLog where
  seeded e := by
    have := hinv.seeded e
    unfold edgeRow at this ⊢
    rw [hcounts, profile, hfrozen]
    exact this
  counted e row hrow := by
    unfold edgeRow at hrow
    rw [hcounts] at hrow
    rw [hinv.counted e row hrow]
    simp [crossings, hlog, hedge]
  limit := by rw [hlimit, hinv.limit, profile, profile, hfrozen]
  committed := by
    rw [hcount, hinv.committed]
    simp [committedEdges, hlog, hedge]

/-- Crossing an edge counts it, unless its cap stops the crossing. -/
lemma CountsLog.crossed {e : Text} {t : Transition} {b : Bool} (hinv : s.CountsLog)
    (hlog : s'.transitions = s.transitions ++ [t]) (hedge : t.edge = some e)
    (hreason : t.reason ≠ ("edge_cap" : Text) ↔ b = true)
    (hcounts : s'.edgeCounts = (if b then s.bumpEdge e else s).edgeCounts)
    (hfrozen : s'.frozen = s.frozen)
    (hlimit : s'.task.maxTransitions = s.task.maxTransitions)
    (hcount : s'.task.transitionsCount =
      s.task.transitionsCount + if t.fromStatus = some .running then 1 else 0) :
    s'.CountsLog where
  seeded e' := by
    have hsame : s'.edgeRow e' = (if b then s.bumpEdge e else s).edgeRow e' := by
      unfold edgeRow
      rw [hcounts]
    rw [hsame, profile, hfrozen]
    have := hinv.seeded e'
    cases b with
    | false => exact this
    | true =>
        simp only [if_true, edgeRow_bumpEdge, Option.map_map]
        rw [← profile, ← this]
        cases s.edgeRow e' with
        | none => rfl
        | some row =>
            simp only [Option.map_some, Function.comp_apply]
            split_ifs <;> rfl
  counted e' row hrow := by
    have hsame : s'.edgeRow e' = (if b then s.bumpEdge e else s).edgeRow e' := by
      unfold edgeRow
      rw [hcounts]
    have hcross : s'.crossings e' =
        s.crossings e' + if e = e' ∧ b = true then 1 else 0 := by
      simp only [crossings, hlog, List.countP_append, List.countP_singleton, hedge,
        Option.some.injEq, Bool.and_eq_true, decide_eq_true_eq, hreason]
    rw [hcross]
    rw [hsame] at hrow
    cases b with
    | false => simpa using hinv.counted e' row hrow
    | true =>
        rw [if_pos rfl, edgeRow_bumpEdge] at hrow
        obtain ⟨old, hold, rfl⟩ := Option.map_eq_some_iff.mp hrow
        have := hinv.counted e' old hold
        by_cases he : e = e'
        · simp [he, this]
        · simp [he, Ne.symm he, this]
  limit := by rw [hlimit, hinv.limit, profile, profile, hfrozen]
  committed := by
    rw [hcount, hinv.committed]
    simp [committedEdges, hlog, List.countP_singleton, hedge]

/-- The reason of a crossing names the edge cap exactly when the cap was hit. -/
lemma edgeStatus_reason {edgeCapHit : Bool} {outcome : Text} {target : Stage} :
    (edgeStatus edgeCapHit outcome target).2.getD "stage_completed" ≠ ("edge_cap" : Text) ↔
      (!edgeCapHit) = true := by
  unfold edgeStatus
  cases edgeCapHit with
  | true => simp
  | false =>
      simp only [Bool.false_eq_true, if_false, Bool.not_false, iff_true]
      by_cases hhold : outcome = holdOutcome
      · rw [if_pos hhold]
        decide
      · rw [if_neg hhold]
        exact (by decide : ("stage_completed" : Text) ≠ ("edge_cap" : Text))

/-- The reason of a resume. -/
lemma resumeReason_ne (rerunStage : Bool) :
    (if rerunStage then "manual_rerun_stage" else "manual_resume" : Text) ≠
      ("edge_cap" : Text) := by
  cases rerunStage <;> decide

/-- Only a task stopped at an edge cap grants an edge. -/
lemma resumedEdge_some {g : Text × Option Text} (h : s.resumedEdge = .ok (some g)) :
    s.task.status = .waitingUser := by
  unfold resumedEdge at h
  by_cases hcap : s.task.status = .waitingUser ∧ s.task.stopReason = some ("edge_cap" : Text)
  · exact hcap.1
  · rw [if_neg hcap] at h
    cases h

/-- One transaction keeps the counters exact. -/
lemma CountsLog.change {op : Operation} (hinv : s.CountsLog) (h : Change rt others s op s') :
    s'.CountsLog := by
  cases h with
  | stopCap => exact hinv.plain rfl rfl rfl rfl rfl rfl
  | claim => exact ⟨hinv.seeded, hinv.counted, hinv.limit, hinv.committed⟩
  | park => exact hinv.plain rfl rfl rfl rfl rfl rfl
  | follow stamp token result run stage envelope outcome target row edgeCapHit =>
      refine hinv.crossed (e := Profile.edgeId stage.name outcome) (b := !edgeCapHit)
        (t := ⟨s.nextSeq, stamp.operationId, some run.runToken, some stage.name,
          stage.owner, some (Profile.edgeId stage.name outcome), some outcome, some .running,
          (edgeStatus edgeCapHit outcome target).1,
          (edgeStatus edgeCapHit outcome target).2.getD "stage_completed"⟩) ?_ rfl
        edgeStatus_reason ?_ ?_ rfl rfl
      all_goals cases edgeCapHit <;> rfl
  | resume operationId rerunStage granted hstatus hgranted =>
      cases granted with
      | none => exact hinv.plain rfl rfl rfl rfl rfl rfl
      | some g =>
          have hwaiting := resumedEdge_some hgranted
          refine hinv.crossed (e := g.1) (b := true)
            (t := ⟨s.nextSeq, operationId, none, some s.task.currentStage, s.task.owner,
              some g.1, g.2, some s.task.status, .queued,
              if rerunStage then "manual_rerun_stage" else "manual_resume"⟩) rfl rfl ?_ rfl rfl
            rfl (by simp [resumedBy, hwaiting])
          simpa using resumeReason_ne rerunStage
  | preflight => exact hinv.plain rfl rfl rfl rfl rfl rfl
  | preflightIdle => exact hinv
  | orphan stamp =>
      refine hinv.plain (t := ⟨s.nextSeq, stamp.operationId,
        (s.stageRuns.find? fun r => r.status = .running).map StageRun.runToken,
        some s.task.currentStage, s.task.owner, none, none, some .running, .blocked,
        "orphaned_running"⟩) ?_ rfl ?_ ?_ rfl rfl
      all_goals
        unfold orphaned
        cases s.stageRuns.find? fun r => r.status = .running <;> rfl
  | alter => exact ⟨hinv.seeded, hinv.counted, hinv.limit, hinv.committed⟩

lemma CountsLog.submitted (h : s.Submitted) : s.CountsLog := by
  obtain ⟨others, sub, h⟩ := h
  obtain ⟨-, rfl⟩ := submitTask_eq_ok h
  have hrow : ∀ e, ((newTask sub).edgeRow e) =
      (dictGet e sub.frozen.profile.edgeCaps).map fun cap => ⟨e, 0, cap⟩ := by
    intro e
    simp only [edgeRow, newTask]
    generalize sub.frozen.profile.edgeCaps = caps
    induction caps with
    | nil => rfl
    | cons c caps ih =>
        obtain ⟨k, cap⟩ := c
        rw [List.map_cons, List.find?_cons, dictGet_cons]
        by_cases hk : k = e
        · simp [hk]
        · simpa [hk] using ih
  refine ⟨fun e => ?_, fun e row h => ?_, rfl, rfl⟩
  · have := hrow e
    simp only [edgeRow, logged_edgeCounts] at this ⊢
    rw [this, Option.map_map]
    exact Option.map_id'
  · have hsub := hrow e
    simp only [edgeRow, logged_edgeCounts] at hsub h
    rw [hsub] at h
    obtain ⟨cap, -, rfl⟩ := Option.map_eq_some_iff.mp h
    rfl

lemma Reachable.countsLog {condition : Condition} (h : s.Reachable rt condition) :
    s.CountsLog :=
  h.preserved (fun _ => CountsLog.submitted)
    fun hinv _ hchange => hinv.change hchange

/-! ## The counters stay within the caps -/

/-- A counter exceeds its cap only by grants, the committed edges exceed `max_transitions` only by
resumes; a running task, and a queued one that holds an allowance, has one commit in hand. -/
structure WithinCaps (s : TaskStore) : Prop where
  edge : ∀ e row, s.edgeRow e = some row → row.count ≤ row.cap + s.grants e
  total : s.task.transitionsCount ≤ s.task.maxTransitions + s.resumesFromWaiting
  running : s.task.status = .running →
    s.task.transitionsCount + 1 ≤ s.task.maxTransitions + s.resumesFromWaiting ∧
      s.task.resumeAllowance = false
  allowance : s.task.resumeAllowance = true →
    s.task.transitionsCount + 1 ≤ s.task.maxTransitions + s.resumesFromWaiting

/-- What one more transition adds to the log's counts. -/
lemma grants_logs {t : Transition} (hlog : s'.transitions = s.transitions ++ [t]) (e : Text) :
    s'.grants e = s.grants e + if t.isResume && t.edge = some e then 1 else 0 := by
  simp [grants, hlog, List.countP_singleton]

lemma resumesFromWaiting_logs {t : Transition} (hlog : s'.transitions = s.transitions ++ [t]) :
    s'.resumesFromWaiting =
      s.resumesFromWaiting + if t.fromStatus = some .waitingUser then 1 else 0 := by
  simp [resumesFromWaiting, hlog, List.countP_singleton]

/-- Parking a task at its stage keeps it within its caps. -/
lemma WithinCaps.parks {t : Transition} (hinv : s.WithinCaps)
    (hlog : s'.transitions = s.transitions ++ [t]) (hcounts : s'.edgeCounts = s.edgeCounts)
    (hstatus : s'.task.status ≠ .running)
    (hlimit : s'.task.maxTransitions = s.task.maxTransitions)
    (hcount : s'.task.transitionsCount = s.task.transitionsCount)
    (hallowance : s'.task.resumeAllowance = s.task.resumeAllowance) : s'.WithinCaps where
  edge e row hrow := by
    unfold edgeRow at hrow
    rw [hcounts] at hrow
    have := hinv.edge e row hrow
    rw [grants_logs hlog]
    omega
  total := by
    have := hinv.total
    rw [hlimit, hcount, resumesFromWaiting_logs hlog]
    omega
  running h := absurd h hstatus
  allowance h := by
    have := hinv.allowance (hallowance ▸ h)
    rw [hlimit, hcount, resumesFromWaiting_logs hlog]
    omega

lemma CapsInForce.uncapped {envelope : Option Envelope} (h : s.CapsInForce rt)
    (henvelope : s.envelopeForTask rt = .ok envelope) :
    (envelope.isSome && s.profile.gateReachable) = false :=
  h envelope henvelope

/-- Claiming a run uses up the allowance, or the room below the transition cap. -/
lemma WithinCaps.claimed {stamp : Stamp} {stage : Stage} {model : Option Text}
    {envelope : Option Envelope} (hinv : s.WithinCaps) (hcaps : s.CapsInForce rt)
    (hclaim : Claimable rt s stage envelope) (hcap : ¬ s.TransitionCapped envelope) :
    (s.claimedBy stamp stage model).WithinCaps where
  edge := hinv.edge
  total := hinv.total
  running _ := by
    refine ⟨?_, rfl⟩
    show s.task.transitionsCount + 1 ≤ s.task.maxTransitions + s.resumesFromWaiting
    by_cases hroom : s.task.maxTransitions ≤ s.task.transitionsCount
    · refine hinv.allowance ?_
      by_contra hnone
      exact hcap ⟨hroom, by simpa using hnone, hcaps envelope hclaim.reads⟩
    · omega
  allowance h := by cases h

/-- Committing an edge spends the commit in hand; below its cap the edge counts once more. -/
lemma WithinCaps.followed {stamp : Stamp} {token : Text} {result : RunResult} {run : StageRun}
    {stage target : Stage} {envelope : Option Envelope} {outcome : Text} {row : EdgeCount}
    {edgeCapHit : Bool} (hinv : s.WithinCaps) (hcaps : s.CapsInForce rt)
    (hcommit : Committable rt s token result run stage)
    (henvelope : s.envelopeForTask rt = .ok envelope)
    (hedge : EdgeTaken s stage outcome envelope.isSome target row edgeCapHit)
    (hidle : (s.followed stamp run stage result outcome target edgeCapHit).task.status ≠
      .running) :
    (s.followed stamp run stage result outcome target edgeCapHit).WithinCaps where
  edge e row' hrow := by
    have hhit := hedge.hit
    rw [hcaps.uncapped henvelope, Bool.not_false, Bool.and_true] at hhit
    have hgrants : s.grants e ≤
        (s.followed stamp run stage result outcome target edgeCapHit).grants e := by
      unfold grants
      refine List.Sublist.countP_le ?_
      cases edgeCapHit <;> exact List.sublist_append_left _ _
    cases edgeCapHit with
    | true => exact (hinv.edge e row' hrow).trans (Nat.add_le_add_left hgrants _)
    | false =>
        have hrow : (s.bumpEdge (Profile.edgeId stage.name outcome)).edgeRow e = some row' := hrow
        rw [edgeRow_bumpEdge] at hrow
        obtain ⟨old, hold, rfl⟩ := Option.map_eq_some_iff.mp hrow
        have := hinv.edge e old hold
        by_cases he : e = Profile.edgeId stage.name outcome
        · have hroom : ¬ row.cap ≤ row.count := by simpa using hhit.symm
          rw [he, hedge.counter] at hold
          cases hold
          simp only [he, if_true]
          omega
        · simp only [he, if_false]
          omega
  total := by
    have hrunning := (hinv.running hcommit.running).1
    have hresumes : (s.followed stamp run stage result outcome target
        edgeCapHit).resumesFromWaiting = s.resumesFromWaiting := by
      unfold resumesFromWaiting
      cases edgeCapHit <;> simp [TaskStore.followed]
    rw [hresumes]
    exact hrunning
  running h := absurd h hidle
  allowance h := by
    have hnone : s.task.resumeAllowance = true := h
    rw [(hinv.running hcommit.running).2] at hnone
    cases hnone

/-- A resume counts itself before it grants an edge or an allowance. -/
lemma WithinCaps.resumed {operationId : Text} {rerunStage : Bool}
    {granted : Option (Text × Option Text)} (hinv : s.WithinCaps)
    (hgranted : s.resumedEdge = .ok granted) :
    (s.resumedBy operationId rerunStage granted).WithinCaps := by
  have hlog : (s.resumedBy operationId rerunStage granted).transitions = s.transitions ++
      [⟨s.nextSeq, operationId, none, some s.task.currentStage, s.task.owner,
        granted.map Prod.fst, granted.bind Prod.snd, some s.task.status, .queued,
        if rerunStage then "manual_rerun_stage" else "manual_resume"⟩] := by
    cases granted <;> rfl
  refine ⟨fun e row hrow => ?_, ?_, fun h => (nomatch h), fun h => ?_⟩
  · rw [grants_logs hlog]
    cases granted with
    | none => exact (hinv.edge e row hrow).trans (by omega)
    | some g =>
        have hwaiting := resumedEdge_some hgranted
        have hrow : (s.bumpEdge g.1).edgeRow e = some row := hrow
        rw [edgeRow_bumpEdge] at hrow
        obtain ⟨old, hold, rfl⟩ := Option.map_eq_some_iff.mp hrow
        have := hinv.edge e old hold
        by_cases he : e = g.1
        · simp only [he, if_true, Option.map_some, Transition.isResume, hwaiting, decide_true,
            Bool.true_or, Bool.and_self]
          rw [he] at this
          omega
        · simp only [he, if_false]
          omega
  · rw [resumesFromWaiting_logs hlog]
    exact hinv.total.trans (by simp only [resumedBy]; omega)
  · have hwaiting : s.task.status = .waitingUser := by simpa [resumedBy] using h
    rw [resumesFromWaiting_logs hlog]
    have := hinv.total
    simp only [resumedBy, hwaiting, if_true]
    omega

/-- One transaction keeps a task within its caps. -/
lemma WithinCaps.change {op : Operation} (hinv : s.WithinCaps) (hcaps : s.CapsInForce rt)
    (h : Change rt others s op s') : s'.WithinCaps := by
  cases h with
  | stopCap => exact hinv.parks rfl rfl (by simp [capped]) rfl rfl rfl
  | claim stamp model stage envelope hclaim hcap => exact hinv.claimed hcaps hclaim hcap
  | park stamp token result run stage runStatus status outcome reason hcommit hcase =>
      exact hinv.parks rfl rfl hcase.not_running.2 rfl rfl rfl
  | follow stamp token result run stage envelope outcome target row edgeCapHit hcommit hsuccess
      houtcome henvelope hhold hedge =>
      exact hinv.followed hcaps hcommit henvelope hedge edgeStatus_ne_running
  | resume operationId rerunStage granted hstatus hgranted => exact hinv.resumed hgranted
  | preflight stamp stop =>
      refine hinv.parks rfl rfl ?_ rfl rfl rfl
      simp only [preflighted]
      split <;> simp
  | preflightIdle => exact hinv
  | orphan stamp =>
      refine hinv.parks (t := ⟨s.nextSeq, stamp.operationId,
        (s.stageRuns.find? fun r => r.status = .running).map StageRun.runToken,
        some s.task.currentStage, s.task.owner, none, none, some .running, .blocked,
        "orphaned_running"⟩) ?_ ?_ (by simp [orphaned]) rfl rfl rfl
      all_goals
        unfold orphaned
        cases s.stageRuns.find? fun r => r.status = .running <;> rfl
  | alter => exact ⟨hinv.edge, hinv.total, hinv.running, hinv.allowance⟩

lemma WithinCaps.submitted (h : s.Submitted) : s.WithinCaps := by
  have hexact := CountsLog.submitted h
  obtain ⟨others, sub, h⟩ := h
  obtain ⟨-, rfl⟩ := submitTask_eq_ok h
  refine ⟨fun e row hrow => ?_, Nat.zero_le _, fun h => (nomatch h), fun h => (nomatch h)⟩
  have hzero : row.count = 0 := hexact.counted e row hrow
  omega

/-- The caps of a task are in force from its submission on or not at all. -/
lemma Change.capsInForce {op : Operation} (h : Change rt others s op s') :
    s'.CapsInForce rt ↔ s.CapsInForce rt := by
  obtain ⟨hfrozen, hinput⟩ := h.frozen
  simp only [CapsInForce, TaskStore.envelopeForTask, TaskStore.uncapped, profile, hfrozen, hinput]

lemma Reachable.withinCaps {condition : Condition} (h : s.Reachable rt condition)
    (hcaps : s.CapsInForce rt) : s.WithinCaps :=
  h.preserved (I := fun s => s.CapsInForce rt → s.WithinCaps)
    (fun _ h _ => WithinCaps.submitted h)
    (fun hinv _ hchange hcaps =>
      (hinv (hchange.capsInForce.mp hcaps)).change (hchange.capsInForce.mp hcaps) hchange) hcaps

end TaskStore

/-- **Loop budget** of every task whose caps are in force: the counters agree with the log, and
exceed their caps by no more than the resumes that granted it. -/
theorem loopBudget_of_reachable (rt : Runtime) (db : Db) (h : Db.Reachable rt anything db)
    (id : Text) (s : TaskStore) (hs : dictGet id db = some s) (hcaps : s.CapsInForce rt) :
    (∀ e cap, dictGet e s.profile.edgeCaps = some cap →
      ∃ row, s.edgeRow e = some row ∧ row.count = s.crossings e ∧
        row.count ≤ cap + s.grants e) ∧
      s.task.transitionsCount = s.committedEdges ∧
      s.task.transitionsCount ≤ s.profile.maxTransitions + s.resumesFromWaiting := by
  have hcounts := (h.task hs).countsLog
  have hwithin := (h.task hs).withinCaps hcaps
  refine ⟨fun e cap hcap => ?_, hcounts.committed, hcounts.limit ▸ hwithin.total⟩
  have hseeded := hcounts.seeded e
  rw [hcap] at hseeded
  obtain ⟨row, hrow, hrowcap⟩ := Option.map_eq_some_iff.mp hseeded
  exact ⟨row, hrow, hcounts.counted e row hrow, hrowcap ▸ hwithin.edge e row hrow⟩

lemma capsInForce_draft : (draftTask []).CapsInForce .standard := by
  have hlegacy : (draftTask []).envelopeForTask .standard = .ok none := rfl
  intro envelope h
  rw [hlegacy] at h
  cases h
  rfl

theorem loopBudget_of_reachable_draft :
    (∀ e cap, dictGet e draftReviewProfile.edgeCaps = some cap →
      ∃ row, (draftTask []).edgeRow e = some row ∧ row.count = (draftTask []).crossings e ∧
        row.count ≤ cap + (draftTask []).grants e) ∧
      0 = (draftTask []).committedEdges ∧ 0 ≤ 14 + (draftTask []).resumesFromWaiting :=
  loopBudget_of_reachable .standard [("task", draftTask [])]
    (Db.reachable_single "task" [] (submitTask_draft []) rfl) "task" (draftTask []) rfl
    capsInForce_draft

end AgentOrch
