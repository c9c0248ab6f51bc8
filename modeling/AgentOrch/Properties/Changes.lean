import AgentOrch.Construction.Database

/-!
# What a transaction changes

One inversion lemma for each statement and each operation: if it succeeds, this is what it
checked and these are the rows it leaves.  `perform_change` collects them; every invariant of the
store is then a case analysis over `Change`, and never unfolds an operation again.
-/

namespace AgentOrch

open Py Json

namespace TaskStore

variable {rt : Runtime} {others : Taken} {s s' : TaskStore} {stamp : Stamp}

/-! ## Statements -/

/-- An operation identity no transition has. -/
def FreshOperation (others : Taken) (s : TaskStore) (operationId : Text) : Prop :=
  operationId ∉ others.operationIds ∧ operationId ∉ s.operationIds

/-- The rows once a transition is logged. -/
def logged (s : TaskStore) (operationId : Text) (runToken stage : Option Text)
    (owner : Option Owner) (edge outcome : Option Text) (fromStatus : Option Status)
    (toStatus : Status) (reason : Text) : TaskStore :=
  { s with transitions := s.transitions ++ [⟨s.nextSeq, operationId, runToken, stage, owner,
    edge, outcome, fromStatus, toStatus, reason⟩] }

lemma insertTransition_eq_ok {operationId : Text} {runToken stage : Option Text}
    {owner : Option Owner} {edge outcome : Option Text} {fromStatus : Option Status}
    {toStatus : Status} {reason : Text} :
    s.insertTransition others operationId runToken stage owner edge outcome fromStatus toStatus
        reason = .ok s' ↔
      FreshOperation others s operationId ∧ Encodable reason ∧
        s' = s.logged operationId runToken stage owner edge outcome fromStatus toStatus reason := by
  simp only [insertTransition, bind_eq_ok, require_eq_ok, bindText, Option.all_some,
    Bool.and_eq_true, decide_eq_true_eq, exists_const]
  exact and_congr_right fun _ => and_congr_right fun _ => ⟨fun h => by cases h; rfl,
    fun h => by rw [h]; rfl⟩

/-- What `INSERT INTO stage_runs` checks. -/
structure Insertable (others : Taken) (s : TaskStore) (run : StageRun) : Prop where
  owner : run.owner.isSome
  token : run.runToken ∉ others.runTokens
  token_self : run.runToken ∉ s.runTokens
  attempt : ∀ r ∈ s.stageRuns,
    ¬ (r.stage = run.stage ∧ r.cycle = run.cycle ∧ r.attempt = run.attempt)
  active : run.status = .running → ∀ r ∈ s.stageRuns, r.status ≠ .running

lemma insertRun_eq_ok {run : StageRun} :
    s.insertRun others run = .ok s' ↔
      Insertable others s run ∧ s' = { s with stageRuns := s.stageRuns ++ [run] } := by
  simp only [insertRun, bind_eq_ok, require_eq_ok, exists_const]
  constructor
  · rintro ⟨howner, htoken, hattempt, hactive, h⟩
    simp only [Bool.and_eq_true, decide_eq_true_eq] at htoken
    refine ⟨⟨howner, htoken.1, htoken.2, ?_, ?_⟩, by cases h; rfl⟩
    · intro r hr
      have := List.all_eq_true.mp hattempt r hr
      simp only [Bool.not_eq_true', Bool.and_eq_false_iff, decide_eq_false_iff_not] at this
      tauto
    · intro hrun r hr
      have := by simpa [hrun] using hactive
      exact this r hr
  · rintro ⟨⟨howner, htoken, hself, hattempt, hactive⟩, rfl⟩
    refine ⟨howner, by simp [htoken, hself], ?_, ?_, rfl⟩
    · refine List.all_eq_true.mpr fun r hr => ?_
      simp only [Bool.not_eq_true', Bool.and_eq_false_iff, decide_eq_false_iff_not]
      have := hattempt r hr
      tauto
    · by_cases hrun : run.status = .running
      · simpa [hrun] using hactive hrun
      · simp [hrun]

section Rows
variable {operationId : Text} {runToken stage : Option Text} {owner : Option Owner}
  {edge outcome : Option Text} {fromStatus : Option Status} {toStatus : Status} {reason : Text}

@[simp] lemma logged_task : (s.logged operationId runToken stage owner edge outcome fromStatus
    toStatus reason).task = s.task := rfl

@[simp] lemma logged_stageRuns : (s.logged operationId runToken stage owner edge outcome
    fromStatus toStatus reason).stageRuns = s.stageRuns := rfl

@[simp] lemma logged_edgeCounts : (s.logged operationId runToken stage owner edge outcome
    fromStatus toStatus reason).edgeCounts = s.edgeCounts := rfl

@[simp] lemma logged_frozen : (s.logged operationId runToken stage owner edge outcome
    fromStatus toStatus reason).frozen = s.frozen := rfl

@[simp] lemma logged_input : (s.logged operationId runToken stage owner edge outcome
    fromStatus toStatus reason).input = s.input := rfl

@[simp] lemma logged_damaged : (s.logged operationId runToken stage owner edge outcome
    fromStatus toStatus reason).damaged = s.damaged := rfl

@[simp] lemma logged_transitions : (s.logged operationId runToken stage owner edge outcome
    fromStatus toStatus reason).transitions = s.transitions ++ [⟨s.nextSeq, operationId, runToken,
      stage, owner, edge, outcome, fromStatus, toStatus, reason⟩] := rfl

variable {token : Text} {f : StageRun → StageRun}

@[simp] lemma updateRun_task : (s.updateRun token f).task = s.task := rfl
@[simp] lemma updateRun_transitions : (s.updateRun token f).transitions = s.transitions := rfl
@[simp] lemma updateRun_edgeCounts : (s.updateRun token f).edgeCounts = s.edgeCounts := rfl
@[simp] lemma updateRun_frozen : (s.updateRun token f).frozen = s.frozen := rfl
@[simp] lemma updateRun_input : (s.updateRun token f).input = s.input := rfl
@[simp] lemma updateRun_damaged : (s.updateRun token f).damaged = s.damaged := rfl
@[simp] lemma updateRun_nextSeq : (s.updateRun token f).nextSeq = s.nextSeq := rfl
@[simp] lemma updateRun_operationIds : (s.updateRun token f).operationIds = s.operationIds := rfl

lemma updateRun_stageRuns : (s.updateRun token f).stageRuns =
    s.stageRuns.map fun r => if r.runToken = token then f r else r := rfl

variable {e : Text}

@[simp] lemma bumpEdge_task : (s.bumpEdge e).task = s.task := rfl
@[simp] lemma bumpEdge_stageRuns : (s.bumpEdge e).stageRuns = s.stageRuns := rfl
@[simp] lemma bumpEdge_transitions : (s.bumpEdge e).transitions = s.transitions := rfl
@[simp] lemma bumpEdge_frozen : (s.bumpEdge e).frozen = s.frozen := rfl
@[simp] lemma bumpEdge_input : (s.bumpEdge e).input = s.input := rfl
@[simp] lemma bumpEdge_damaged : (s.bumpEdge e).damaged = s.damaged := rfl
@[simp] lemma bumpEdge_nextSeq : (s.bumpEdge e).nextSeq = s.nextSeq := rfl
@[simp] lemma bumpEdge_operationIds : (s.bumpEdge e).operationIds = s.operationIds := rfl

end Rows

/-! ## Operations -/

/-- A task that may be claimed: queued at a working stage, with an envelope that reads. -/
structure Claimable (rt : Runtime) (s : TaskStore) (stage : Stage) (envelope : Option Envelope) :
    Prop where
  queued : s.task.status = .queued
  current : s.profile.stage s.task.currentStage = .ok stage
  working : stage.terminal = none
  reads : s.envelopeForTask rt = .ok envelope

/-- The transition cap stops the claim. -/
def TransitionCapped (s : TaskStore) (envelope : Option Envelope) : Prop :=
  s.task.maxTransitions ≤ s.task.transitionsCount ∧ s.task.resumeAllowance = false ∧
    s.uncapped envelope = false

/-- The rows after a cap stop. -/
def capped (s : TaskStore) (stamp : Stamp) (reason : Text) : TaskStore :=
  { s.logged stamp.operationId none s.task.currentStage s.task.owner none none (some .queued)
      .waitingUser reason with
    task := { s.task with
      status := .waitingUser
      stopReason := some reason
      leaseToken := none
      revision := s.task.revision + 1 } }

/-- The rows after a claim. -/
def claimedBy (s : TaskStore) (stamp : Stamp) (stage : Stage) (model : Option Text) : TaskStore :=
  { s with
    stageRuns := s.stageRuns ++ [s.claimedRun stamp stage model]
    task := { s.task with
      status := .running
      owner := stage.owner
      resumeAllowance := false
      leaseToken := some stamp.leaseToken
      revision := s.task.revision + 1 } }

lemma stopForCap_eq_ok {reason : Text} : s.stopForCap others stamp reason = .ok s' ↔
    FreshOperation others s stamp.operationId ∧ Encodable reason ∧ s' = s.capped stamp reason := by
  simp only [stopForCap, bind_eq_ok, insertTransition_eq_ok]
  constructor
  · rintro ⟨t, ⟨hfresh, hreason, rfl⟩, h⟩
    cases h
    exact ⟨hfresh, hreason, rfl⟩
  · rintro ⟨hfresh, hreason, rfl⟩
    exact ⟨_, ⟨hfresh, hreason, rfl⟩, rfl⟩

/-- What a claim does: a cap stop, or a new running run. -/
lemma claimStage_eq_ok {model : Option Text} {claim : Claim}
    (h : s.claimStage rt others stamp model = .ok claim) :
    ∃ stage envelope, Claimable rt s stage envelope ∧
      ((∃ reason, claim = .stopped (s.capped stamp reason) ∧
          FreshOperation others s stamp.operationId ∧ Encodable reason ∧
          (reason = ("transition_cap" : Text) ∧ s.TransitionCapped envelope ∨
            reason = ("attempt_cap" : Text) ∧ s.task.resumeAllowance = false)) ∨
        (claim = .claimed (s.claimedBy stamp stage model) ∧ ¬ s.TransitionCapped envelope ∧
          Insertable others s (s.claimedRun stamp stage model))) := by
  simp only [claimStage, bind_eq_ok, require_eq_ok] at h
  obtain ⟨_, hqueued, stage, hstage, _, hworking, envelope, henvelope, h⟩ := h
  refine ⟨stage, envelope, ⟨by simpa using hqueued, hstage, by simpa using hworking, henvelope⟩, ?_⟩
  split_ifs at h with htransition hattempt
  · simp only [bind_eq_ok, stopForCap_eq_ok] at h
    obtain ⟨t, ⟨hfresh, hreason, rfl⟩, h⟩ := h
    cases h
    exact .inl ⟨_, rfl, hfresh, hreason, .inl ⟨rfl, htransition⟩⟩
  · simp only [bind_eq_ok, stopForCap_eq_ok] at h
    obtain ⟨t, ⟨hfresh, hreason, rfl⟩, h⟩ := h
    cases h
    exact .inl ⟨_, rfl, hfresh, hreason, .inr ⟨rfl, hattempt.2⟩⟩
  · simp only [bind_eq_ok, insertRun_eq_ok] at h
    obtain ⟨t, ⟨hinsert, rfl⟩, h⟩ := h
    cases h
    exact .inr ⟨rfl, htransition, hinsert⟩

/-- A run that may be committed. -/
structure Committable (rt : Runtime) (s : TaskStore) (token : Text) (result : RunResult)
    (run : StageRun) (stage : Stage) : Prop where
  find : s.findRun token = some run
  run_running : run.status = .running
  running : s.task.status = .running
  lease : run.leaseToken = s.task.leaseToken
  current : s.profile.stage run.stage = .ok stage
  sealed_ : sealRunManifest rt result = .ok (manifestOf result)

/-- The rows after a commit that parks the task at its stage. -/
def parked (s : TaskStore) (stamp : Stamp) (run : StageRun) (stage : Stage) (result : RunResult)
    (runStatus : RunStatus) (status : Status) (outcome : Option Text) (reason : Text) : TaskStore :=
  { (s.updateRun run.runToken
        (settledRun result (manifestOf result) runStatus outcome stamp.now)).logged
      stamp.operationId run.runToken stage.name stage.owner none outcome (some .running) status
      reason with
    task := { s.task with
      status := status
      stopReason := some reason
      leaseToken := none
      revision := s.task.revision + 1 } }

/-- The rows after a commit along an edge. -/
def followed (s : TaskStore) (stamp : Stamp) (run : StageRun) (stage : Stage) (result : RunResult)
    (outcome : Text) (target : Stage) (edgeCapHit : Bool) : TaskStore :=
  { ((if edgeCapHit then s else s.bumpEdge (Profile.edgeId stage.name outcome)).updateRun
        run.runToken (settledRun result (manifestOf result) .committed outcome stamp.now)).logged
      stamp.operationId run.runToken stage.name stage.owner
      (some (Profile.edgeId stage.name outcome)) outcome (some .running)
      (edgeStatus edgeCapHit outcome target).1
      ((edgeStatus edgeCapHit outcome target).2.getD "stage_completed") with
    task := { s.task with
      status := (edgeStatus edgeCapHit outcome target).1
      stopReason := (edgeStatus edgeCapHit outcome target).2
      currentStage := target.name
      owner := if target.terminal.isSome then none else target.owner
      leaseToken := none
      transitionsCount := s.task.transitionsCount + 1
      revision := s.task.revision + 1 } }

/-- Why a commit parks a task: the hold of an envelope task, or a classification that is no
success. -/
inductive ParkCase (rt : Runtime) (s : TaskStore) (result : RunResult) :
    RunStatus → Status → Option Text → Text → Prop
  | hold (envelope : Envelope) (henvelope : s.envelopeForTask rt = .ok (some envelope))
      (hsuccess : result.classification = .success) (houtcome : result.outcome = some holdOutcome) :
      ParkCase rt s result .committed .waitingUser (some holdOutcome) holdStopReason
  | stopped (runStatus : RunStatus) (status : Status)
      (h : parkedAs result.classification = some (runStatus, status)) :
      ParkCase rt s result runStatus status result.outcome result.reason

lemma parkRun_eq_ok {run : StageRun} {stage : Stage} {result : RunResult} {runStatus : RunStatus}
    {status : Status} {outcome : Option Text} {reason : Text}
    (h : s.parkRun others stamp run stage result (manifestOf result) runStatus status outcome reason
      = .ok s') :
    FreshOperation others s stamp.operationId ∧ s.task.leaseToken.isSome ∧
      s' = s.parked stamp run stage result runStatus status outcome reason := by
  simp only [parkRun, bind_eq_ok, insertTransition_eq_ok, require_eq_ok] at h
  obtain ⟨_, _, t, ⟨hfresh, _, rfl⟩, _, hlease, h⟩ := h
  cases h
  exact ⟨hfresh, hlease, rfl⟩

/-- The target of an edge, the counter it finds, and whether the cap stops it. -/
structure EdgeTaken (s : TaskStore) (stage : Stage) (outcome : Text) (envelopePresent : Bool)
    (target : Stage) (row : EdgeCount) (edgeCapHit : Bool) : Prop where
  leads : dictGet outcome stage.outcomes = some target.name
  known : s.profile.stage target.name = .ok target
  counter : s.edgeRow (Profile.edgeId stage.name outcome) = some row
  hit : edgeCapHit = (row.cap ≤ row.count && !(envelopePresent && s.profile.gateReachable))

/-- A stage of a frozen profile is found under its own name. -/
lemma stage_name {name : Text} {stage : Stage} (h : s.profile.stage name = .ok stage) :
    stage.name = name :=
  (s.frozen.wellFormed.named name stage (mem_of_dictGet (Profile.stage_eq_ok.mp h))).1

lemma followEdge_eq_ok {run : StageRun} {stage : Stage} {result : RunResult} {outcome : Text}
    {envelopePresent : Bool}
    (h : s.followEdge others stamp run stage result (manifestOf result) outcome envelopePresent
      = .ok s') :
    ∃ target row edgeCapHit, EdgeTaken s stage outcome envelopePresent target row edgeCapHit ∧
      FreshOperation others s stamp.operationId ∧ s.task.leaseToken.isSome ∧
      s' = s.followed stamp run stage result outcome target edgeCapHit := by
  unfold followEdge at h
  cases hleads : dictGet outcome stage.outcomes with
  | none =>
      rw [hleads] at h
      cases h
  | some name =>
      simp only [hleads, bind_eq_ok] at h
      obtain ⟨target, htarget, h⟩ := h
      have hname := stage_name htarget
      cases hrow : s.edgeRow (Profile.edgeId stage.name outcome) with
      | none =>
          rw [hrow] at h
          cases h
      | some row =>
          simp only [hrow, bind_eq_ok, insertTransition_eq_ok, require_eq_ok] at h
          obtain ⟨_, _, t, ⟨hfresh, _, rfl⟩, _, hlease, h⟩ := h
          cases h
          refine ⟨target, row, _, ⟨?_, ?_, hrow, rfl⟩, ?_, hlease, ?_⟩
          · rw [hleads, hname]
          · rw [hname]
            exact htarget
          · revert hfresh
            unfold FreshOperation
            split <;> exact id
          · subst hname
            rfl

/-- The rows after a resume; a granted edge counts again. -/
def resumedBy (s : TaskStore) (operationId : Text) (rerunStage : Bool)
    (granted : Option (Text × Option Text)) : TaskStore :=
  { (granted.elim s fun g => s.bumpEdge g.1).logged operationId none s.task.currentStage
      s.task.owner (granted.map Prod.fst) (granted.bind Prod.snd) (some s.task.status) .queued
      (if rerunStage then "manual_rerun_stage" else "manual_resume") with
    task := { s.task with
      status := .queued
      stopReason := none
      leaseToken := none
      resumeAllowance := s.task.status = .waitingUser
      revision := s.task.revision + 1 } }

lemma resumeTask_eq_ok {operationId : Text} {rerunStage : Bool}
    (h : s.resumeTask others operationId rerunStage = .ok s') :
    s.task.status ∈ [Status.waitingUser, .paused, .blocked] ∧
      FreshOperation others s operationId ∧
      ∃ granted, s.resumedEdge = .ok granted ∧ s' = s.resumedBy operationId rerunStage granted := by
  simp only [resumeTask, bind_eq_ok, require_eq_ok, decide_eq_true_eq, insertTransition_eq_ok] at h
  obtain ⟨_, hstatus, _, _, granted, hgranted, t, ⟨hfresh, _, rfl⟩, h⟩ := h
  cases h
  refine ⟨hstatus, ?_, granted, hgranted, rfl⟩
  cases granted with
  | none => exact hfresh
  | some g => exact hfresh

/-- The row of a run that was left running. -/
def closedRun (now : ℤ) (run : StageRun) : StageRun :=
  { run with status := .blocked, endedAt := some now }

/-- The rows after an orphan is blocked. -/
def orphaned (s : TaskStore) (stamp : Stamp) : TaskStore :=
  { ((s.stageRuns.find? fun r => r.status = .running).elim s fun r =>
        s.updateRun r.runToken (closedRun stamp.now)).logged stamp.operationId
      ((s.stageRuns.find? fun r => r.status = .running).map StageRun.runToken)
      s.task.currentStage s.task.owner none none (some .running) .blocked "orphaned_running" with
    task := { s.task with
      status := .blocked
      stopReason := some ("orphaned_running" : Text)
      leaseToken := none
      revision := s.task.revision + 1 } }

lemma blockOrphanedRunning_eq_ok (h : s.blockOrphanedRunning others stamp = .ok s') :
    FreshOperation others s stamp.operationId ∧ s' = s.orphaned stamp := by
  simp only [blockOrphanedRunning, bind_eq_ok, insertTransition_eq_ok] at h
  obtain ⟨t, ⟨hfresh, _, rfl⟩, h⟩ := h
  cases h
  refine ⟨?_, rfl⟩
  revert hfresh
  unfold FreshOperation
  cases s.stageRuns.find? fun r => r.status = .running with
  | none => exact id
  | some r => exact id

/-- The rows after a preflight stop. -/
def preflighted (s : TaskStore) (stamp : Stamp) (stage : Stage) (stop : PreflightStop) :
    TaskStore :=
  { ({ s with stageRuns := s.stageRuns ++ [s.preflightRun stamp stage stop] } : TaskStore).logged
      stamp.operationId stamp.runToken stage.name stage.owner none none (some .queued)
      (if stop.paused then .paused else .blocked) stop.reason with
    task := { s.task with
      status := if stop.paused then .paused else .blocked
      stopReason := some stop.reason
      revision := s.task.revision + 1 } }

lemma recordPreflightStop_eq_ok {stage : Stage} {stop : PreflightStop}
    (h : s.recordPreflightStop others stamp stage stop = .ok s') :
    (s.task.status ≠ .queued ∧ s' = s) ∨
      (s.task.status = .queued ∧ Insertable others s (s.preflightRun stamp stage stop) ∧
        FreshOperation others s stamp.operationId ∧ s' = s.preflighted stamp stage stop) := by
  unfold recordPreflightStop at h
  by_cases hqueued : s.task.status ≠ .queued
  · rw [if_pos hqueued] at h
    cases h
    exact .inl ⟨hqueued, rfl⟩
  · rw [if_neg hqueued] at h
    simp only [bind_eq_ok, insertRun_eq_ok, insertTransition_eq_ok] at h
    obtain ⟨_, _, t, ⟨hinsert, rfl⟩, t', ⟨hfresh, _, rfl⟩, h⟩ := h
    cases h
    exact .inr ⟨not_not.mp hqueued, hinsert, hfresh, rfl⟩

/-! ## All of them -/

/-- What a successful operation checked, and the rows it left. -/
inductive Change (rt : Runtime) (others : Taken) (s : TaskStore) : Operation → TaskStore → Prop
  | stopCap (stamp : Stamp) (model : Option Text) (stage : Stage) (envelope : Option Envelope)
      (reason : Text) (hclaim : Claimable rt s stage envelope)
      (hfresh : FreshOperation others s stamp.operationId)
      (hcap : reason = ("transition_cap" : Text) ∧ s.TransitionCapped envelope ∨
        reason = ("attempt_cap" : Text) ∧ s.task.resumeAllowance = false) :
      Change rt others s (.claim stamp model) (s.capped stamp reason)
  | claim (stamp : Stamp) (model : Option Text) (stage : Stage) (envelope : Option Envelope)
      (hclaim : Claimable rt s stage envelope) (hcap : ¬ s.TransitionCapped envelope)
      (hinsert : Insertable others s (s.claimedRun stamp stage model)) :
      Change rt others s (.claim stamp model) (s.claimedBy stamp stage model)
  | park (stamp : Stamp) (token : Text) (result : RunResult) (run : StageRun) (stage : Stage)
      (runStatus : RunStatus) (status : Status) (outcome : Option Text) (reason : Text)
      (hcommit : Committable rt s token result run stage)
      (hcase : ParkCase rt s result runStatus status outcome reason)
      (hfresh : FreshOperation others s stamp.operationId) :
      Change rt others s (.commit stamp token result)
        (s.parked stamp run stage result runStatus status outcome reason)
  | follow (stamp : Stamp) (token : Text) (result : RunResult) (run : StageRun) (stage : Stage)
      (envelope : Option Envelope) (outcome : Text) (target : Stage) (row : EdgeCount)
      (edgeCapHit : Bool) (hcommit : Committable rt s token result run stage)
      (hsuccess : result.classification = .success) (houtcome : result.outcome = some outcome)
      (henvelope : s.envelopeForTask rt = .ok envelope)
      (hhold : ¬ (outcome = holdOutcome ∧ envelope.isSome))
      (hedge : EdgeTaken s stage outcome envelope.isSome target row edgeCapHit)
      (hfresh : FreshOperation others s stamp.operationId) :
      Change rt others s (.commit stamp token result)
        (s.followed stamp run stage result outcome target edgeCapHit)
  | resume (operationId : Text) (rerunStage : Bool) (granted : Option (Text × Option Text))
      (hstatus : s.task.status ∈ [Status.waitingUser, .paused, .blocked])
      (hgranted : s.resumedEdge = .ok granted) (hfresh : FreshOperation others s operationId) :
      Change rt others s (.resume operationId rerunStage)
        (s.resumedBy operationId rerunStage granted)
  | preflight (stamp : Stamp) (stop : PreflightStop) (stage : Stage)
      (hqueued : s.task.status = .queued)
      (hstage : s.profile.stage s.task.currentStage = .ok stage) (hworking : stage.terminal = none)
      (hinsert : Insertable others s (s.preflightRun stamp stage stop))
      (hfresh : FreshOperation others s stamp.operationId) :
      Change rt others s (.preflightStop stamp stop) (s.preflighted stamp stage stop)
  | preflightIdle (stamp : Stamp) (stop : PreflightStop) (hqueued : s.task.status ≠ .queued) :
      Change rt others s (.preflightStop stamp stop) s
  | orphan (stamp : Stamp) (hrunning : s.task.status = .running)
      (hfresh : FreshOperation others s stamp.operationId) :
      Change rt others s (.blockOrphan stamp) (s.orphaned stamp)
  | alter (token : Text) (hover : ∃ r ∈ s.stageRuns, r.runToken = token ∧ r.status ≠ .running) :
      Change rt others s (.alter token) { s with damaged := token :: s.damaged }

/-- What a commit does: it parks the task, or follows an edge. -/
lemma commitRun_change {token : Text} {result : RunResult}
    (h : s.commitRun rt others stamp token result = .ok s') :
    Change rt others s (.commit stamp token result) s' := by
  unfold commitRun at h
  cases hfind : s.findRun token with
  | none =>
      rw [hfind] at h
      cases h
  | some run =>
      simp only [hfind, bind_eq_ok, require_eq_ok, Bool.and_eq_true, decide_eq_true_eq] at h
      obtain ⟨_, ⟨hrun, hrunning⟩, _, hlease, stage, hstage, manifest, hseal, h⟩ := h
      obtain rfl := (sealRunManifest_ok.mp hseal).1
      have hcommit : Committable rt s token result run stage :=
        ⟨hfind, hrun, hrunning, hlease, hstage, hseal⟩
      split_ifs at h with hsuccess
      · cases houtcome : result.outcome with
        | none =>
            rw [houtcome] at h
            cases h
        | some outcome =>
            simp only [houtcome, bind_eq_ok] at h
            obtain ⟨envelope, henvelope, h⟩ := h
            split_ifs at h with hhold
            · obtain ⟨hfresh, _, rfl⟩ := parkRun_eq_ok h
              obtain ⟨rfl, hpresent⟩ := hhold
              obtain ⟨envelope, rfl⟩ := Option.isSome_iff_exists.mp hpresent
              exact .park _ _ _ _ _ _ _ _ _ hcommit
                (.hold envelope henvelope hsuccess houtcome) hfresh
            · obtain ⟨target, row, edgeCapHit, hedge, hfresh, _, rfl⟩ := followEdge_eq_ok h
              exact .follow _ _ _ _ _ envelope _ _ _ _ hcommit hsuccess houtcome henvelope hhold
                hedge hfresh
      · cases hparked : parkedAs result.classification with
        | none =>
            rw [hparked] at h
            cases h
        | some statuses =>
            obtain ⟨runStatus, status⟩ := statuses
            rw [hparked] at h
            obtain ⟨hfresh, _, rfl⟩ := parkRun_eq_ok h
            exact .park _ _ _ _ _ _ _ _ _ hcommit (.stopped _ _ hparked) hfresh

/-- Every successful operation is a change. -/
theorem perform_change {op : Operation} (h : s.perform rt others op = .ok s') :
    Change rt others s op s' := by
  cases op with
  | claim stamp model =>
      simp only [perform] at h
      cases hclaim : s.claimStage rt others stamp model with
      | error e =>
          rw [hclaim] at h
          cases h
      | ok claim =>
          rw [hclaim] at h
          cases h
          obtain ⟨stage, envelope, hable, ⟨reason, rfl, hfresh, _, hcap⟩ | ⟨rfl, hcap, hinsert⟩⟩ :=
            claimStage_eq_ok hclaim
          · exact .stopCap stamp model stage envelope reason hable hfresh hcap
          · exact .claim stamp model stage envelope hable hcap hinsert
  | commit stamp token result => exact commitRun_change h
  | resume operationId rerunStage =>
      obtain ⟨hstatus, hfresh, granted, hgranted, rfl⟩ := resumeTask_eq_ok h
      exact .resume operationId rerunStage granted hstatus hgranted hfresh
  | preflightStop stamp stop =>
      simp only [perform, bind_eq_ok, require_eq_ok] at h
      obtain ⟨stage, hstage, _, hworking, h⟩ := h
      rcases recordPreflightStop_eq_ok h with ⟨hqueued, rfl⟩ | ⟨hqueued, hinsert, hfresh, rfl⟩
      · exact .preflightIdle stamp stop hqueued
      · exact .preflight stamp stop stage hqueued hstage (by simpa using hworking) hinsert hfresh
  | blockOrphan stamp =>
      simp only [perform, bind_eq_ok, require_eq_ok, decide_eq_true_eq] at h
      obtain ⟨_, hrunning, h⟩ := h
      obtain ⟨hfresh, rfl⟩ := blockOrphanedRunning_eq_ok h
      exact .orphan stamp hrunning hfresh
  | alter token =>
      simp only [perform, bind_eq_ok, require_eq_ok] at h
      obtain ⟨_, hover, h⟩ := h
      cases h
      exact .alter token (by simpa using hover)

/-- A commit leaves neither the run nor the task running. -/
lemma ParkCase.not_running {result : RunResult} {runStatus : RunStatus} {status : Status}
    {outcome : Option Text} {reason : Text}
    (h : ParkCase rt s result runStatus status outcome reason) :
    runStatus ≠ .running ∧ status ≠ .running := by
  cases h with
  | hold => simp
  | stopped _ _ h =>
      cases hclass : result.classification <;> rw [hclass] at h <;> cases h <;> simp

lemma edgeStatus_ne_running {edgeCapHit : Bool} {outcome : Text} {target : Stage} :
    (edgeStatus edgeCapHit outcome target).1 ≠ .running := by
  unfold edgeStatus
  split_ifs
  · simp
  · simp
  · cases target.terminal with
    | none => simp
    | some t => cases t <;> simp [Terminal.status]

/-- The first transition of a task. -/
lemma submitTask_eq_ok {sub : Submission} (h : submitTask others sub = .ok s) :
    sub.operationId ∉ others.operationIds ∧
      s = (newTask sub).logged sub.operationId none none none none none none .queued
        "submitted" := by
  simp only [submitTask, bind_eq_ok, insertTransition_eq_ok] at h
  obtain ⟨_, _, _, _, _, _, hfresh, _, rfl⟩ := h
  exact ⟨hfresh.1, rfl⟩

/-- The frozen snapshots never change. -/
lemma Change.frozen {op : Operation} (h : Change rt others s op s') :
    s'.frozen = s.frozen ∧ s'.input = s.input := by
  cases h with
  | resume operationId rerunStage granted => cases granted <;> exact ⟨rfl, rfl⟩
  | follow stamp token result run stage envelope outcome target row edgeCapHit =>
      cases edgeCapHit <;> exact ⟨rfl, rfl⟩
  | orphan =>
      unfold orphaned
      cases s.stageRuns.find? fun r => r.status = .running <;> exact ⟨rfl, rfl⟩
  | _ => exact ⟨rfl, rfl⟩

/-- The rule of every invariant of a task's rows: it holds of a submission, and every change the
condition admits keeps it, given what is known of all reachable rows already. -/
theorem Reachable.preserved_of {condition : Condition} {I K : TaskStore → Prop}
    (hknown : ∀ s : TaskStore, s.Reachable rt condition → K s)
    (hinit : ∀ s : TaskStore, s.Submitted → I s)
    (hstep : ∀ {others op s s'}, K s → I s → condition op s → Change rt others s op s' → I s')
    (h : s.Reachable rt condition) : I s :=
  AgentOrch.Reachable.invariant_of hknown hinit
    (fun _ _ hk hinv ⟨_, _, hop, hperform⟩ => hstep hk hinv hop (perform_change hperform)) h

theorem Reachable.preserved {condition : Condition} {I : TaskStore → Prop}
    (hinit : ∀ s : TaskStore, s.Submitted → I s)
    (hstep : ∀ {others op s s'}, I s → condition op s → Change rt others s op s' → I s')
    (h : s.Reachable rt condition) : I s :=
  h.preserved_of (K := fun _ => True) (fun _ _ => trivial) hinit
    fun _ hinv hop hchange => hstep hinv hop hchange

end TaskStore

/-! ## A claimed draft -/

def draftStage : Stage :=
  ⟨"draft", some .claude, some 2, some 600, some ("Write the draft." : Text),
    [("drafted", "review")], none⟩

/-- The run of a legacy task whose draft is being written. -/
def draftRun : StageRun := (draftTask []).claimedRun (sampleStamp 1) draftStage none

def claimedDraft : TaskStore := (draftTask []).claimedBy (sampleStamp 1) draftStage none

lemma claimStage_draft : (draftTask []).claimStage .standard ⟨[], []⟩ (sampleStamp 1) none =
    .ok (.claimed claimedDraft) := by rfl

lemma reachable_claimedDraft {condition : Condition}
    (hop : condition (.claim (sampleStamp 1) none) (draftTask [])) :
    Db.Reachable .standard condition [("task", claimedDraft)] := by
  refine (Db.reachable_submitted "task" (submitTask_draft [])).single_step hop ?_
  simp only [TaskStore.perform, claimStage_draft]
  rfl

end AgentOrch
