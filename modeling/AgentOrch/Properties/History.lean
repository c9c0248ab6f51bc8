import AgentOrch.Properties.StatusLog

/-!
# The committed history

The convergence gate reads the history of a task off its transitions, joined with the runs they
name.  Run tokens are unique and a transition never names a running run; so the history only ever
grows, by one entry, when a run is committed, and what an entry holds is never rewritten.
-/

namespace AgentOrch

open Py Json

namespace TaskStore

variable {rt : Runtime} {others : Taken} {s s' : TaskStore}

/-! ## Names of runs -/

/-- The tokens of a task's runs are unique, its transitions and its altered artifacts name runs
that are over, and its running run stands at the current stage, which the profile can reach. -/
structure RowsNamed (s : TaskStore) : Prop where
  nodup : s.runTokens.Nodup
  named : ∀ t ∈ s.transitions, ∀ token, t.runToken = some token →
    ∃ r ∈ s.stageRuns, r.runToken = token ∧ r.status ≠ .running
  damaged : ∀ token ∈ s.damaged, ∃ r ∈ s.stageRuns, r.runToken = token ∧ r.status ≠ .running
  staged : ∀ r ∈ s.stageRuns, r.status = .running → r.stage = s.task.currentStage
  current : s.task.currentStage ∈ s.profile.reachableStages

lemma runTokens_updateRun {token : Text} {f : StageRun → StageRun}
    (hf : ∀ r, (f r).runToken = r.runToken) : (s.updateRun token f).runTokens = s.runTokens := by
  unfold runTokens
  rw [updateRun_stageRuns, List.map_map]
  refine List.map_congr_left fun r _ => ?_
  simp only [Function.comp_apply]
  split_ifs
  · exact hf r
  · rfl

lemma mem_updateRun {token : Text} {f : StageRun → StageRun} {r : StageRun}
    (h : r ∈ (s.updateRun token f).stageRuns) :
    ∃ r' ∈ s.stageRuns, r = if r'.runToken = token then f r' else r' := by
  obtain ⟨r', hr', rfl⟩ := List.mem_map.mp h
  exact ⟨r', hr', rfl⟩

/-- A run that was over, or the one that is ended, is over afterwards. -/
lemma over_updateRun {token token' : Text} {f : StageRun → StageRun} {r : StageRun}
    (hf : ∀ r, (f r).runToken = r.runToken) (hends : ∀ r, (f r).status ≠ .running)
    (hruns : s'.stageRuns = (s.updateRun token f).stageRuns) (hr : r ∈ s.stageRuns)
    (hrt : r.runToken = token') (hcase : r.status ≠ .running ∨ token' = token) :
    ∃ r' ∈ s'.stageRuns, r'.runToken = token' ∧ r'.status ≠ .running := by
  refine ⟨if r.runToken = token then f r else r, ?_, ?_, ?_⟩
  · rw [hruns]
    exact List.mem_map.mpr ⟨r, hr, rfl⟩
  · split_ifs
    · rw [hf, hrt]
    · exact hrt
  · split_ifs with hsame
    · exact hends r
    · rcases hcase with hover | rfl
      · exact hover
      · exact absurd hrt hsame

/-- Updating a run keeps the names, when the update ends the run and keeps its token; what it
names afterwards is the updated run. -/
lemma RowsNamed.updated (hinv : s.RowsNamed) (token : Text) (f : StageRun → StageRun)
    (t : Transition) (hf : ∀ r, (f r).runToken = r.runToken)
    (hends : ∀ r, (f r).status ≠ .running)
    (hruns : s'.stageRuns = (s.updateRun token f).stageRuns)
    (hlog : s'.transitions = s.transitions ++ [t])
    (hdamaged : s'.damaged = s.damaged)
    (hname : t.runToken = some token) (hmem : token ∈ s.runTokens)
    (hidle : ∀ r ∈ s.stageRuns, r.status = .running → r.runToken = token)
    (hcurrent : s'.task.currentStage ∈ s'.profile.reachableStages) : s'.RowsNamed where
  nodup := by
    have htokens : s'.runTokens = s.runTokens := calc
      s'.runTokens = (s.updateRun token f).runTokens :=
        congrArg (List.map StageRun.runToken) hruns
      _ = s.runTokens := runTokens_updateRun hf
    rw [htokens]
    exact hinv.nodup
  named u hu token' htoken' := by
    rw [hlog, List.mem_append, List.mem_singleton] at hu
    rcases hu with hu | rfl
    · obtain ⟨r, hr, hrt, hover⟩ := hinv.named u hu token' htoken'
      exact over_updateRun hf hends hruns hr hrt (.inl hover)
    · rw [hname] at htoken'
      obtain rfl := Option.some.inj htoken'
      obtain ⟨r, hr, hrt⟩ := List.mem_map.mp hmem
      exact over_updateRun hf hends hruns hr hrt (.inr rfl)
  damaged token' htoken' := by
    rw [hdamaged] at htoken'
    obtain ⟨r, hr, hrt, hover⟩ := hinv.damaged token' htoken'
    exact over_updateRun hf hends hruns hr hrt (.inl hover)
  staged r hr hrunning := by
    rw [hruns] at hr
    obtain ⟨r', hr', rfl⟩ := mem_updateRun hr
    split_ifs at hrunning with hsame
    · exact absurd hrunning (hends r')
    · exact absurd (hidle r' hr' hrunning) hsame
  current := hcurrent

/-- Inserting a run with a fresh token keeps the names. -/
lemma RowsNamed.inserted {run : StageRun} (hinv : s.RowsNamed) (ts : List Transition)
    (hinsert : Insertable others s run) (hruns : s'.stageRuns = s.stageRuns ++ [run])
    (hlog : s'.transitions = s.transitions ++ ts) (hdamaged : s'.damaged = s.damaged)
    (hnames : ∀ t ∈ ts, t.runToken = some run.runToken ∧ run.status ≠ .running)
    (hstage : run.status = .running → run.stage = s'.task.currentStage)
    (hidle : ∀ r ∈ s.stageRuns, r.status ≠ .running)
    (hcurrent : s'.task.currentStage ∈ s'.profile.reachableStages) : s'.RowsNamed where
  nodup := by
    have htokens : s'.runTokens = s.runTokens ++ [run.runToken] := by
      unfold runTokens
      rw [hruns, List.map_append]
      rfl
    rw [htokens, List.nodup_append]
    refine ⟨hinv.nodup, List.nodup_singleton _, fun a ha b hb hab => ?_⟩
    rw [List.mem_singleton] at hb
    exact hinsert.token_self (by rwa [← hb, ← hab])
  named t ht token htoken := by
    rw [hlog, List.mem_append] at ht
    rcases ht with ht | ht
    · obtain ⟨r, hr, hrt, hover⟩ := hinv.named t ht token htoken
      exact ⟨r, by rw [hruns]; exact List.mem_append_left _ hr, hrt, hover⟩
    · obtain ⟨hname, hover⟩ := hnames t ht
      rw [hname] at htoken
      exact ⟨run, by rw [hruns]; simp, Option.some.inj htoken, hover⟩
  damaged token htoken := by
    rw [hdamaged] at htoken
    obtain ⟨r, hr, hrt, hover⟩ := hinv.damaged token htoken
    exact ⟨r, by rw [hruns]; exact List.mem_append_left _ hr, hrt, hover⟩
  staged r hr hrunning := by
    rw [hruns, List.mem_append, List.mem_singleton] at hr
    rcases hr with hr | rfl
    · exact absurd hrunning (hidle r hr)
    · exact hstage hrunning
  current := hcurrent

/-- A change of the task row and the log alone keeps the names. -/
lemma RowsNamed.plain (hinv : s.RowsNamed) (ts : List Transition)
    (hruns : s'.stageRuns = s.stageRuns) (hlog : s'.transitions = s.transitions ++ ts)
    (hdamaged : s'.damaged = s.damaged)
    (hnames : ∀ t ∈ ts, t.runToken = none) (hfrozen : s'.frozen = s.frozen)
    (hstage : s'.task.currentStage = s.task.currentStage) : s'.RowsNamed where
  nodup := by
    have htokens : s'.runTokens = s.runTokens := congrArg (List.map StageRun.runToken) hruns
    rw [htokens]
    exact hinv.nodup
  named t ht token htoken := by
    rw [hlog, List.mem_append] at ht
    rcases ht with ht | ht
    · rw [hruns]
      exact hinv.named t ht token htoken
    · rw [hnames t ht] at htoken
      cases htoken
  damaged token htoken := by
    rw [hdamaged] at htoken
    rw [hruns]
    exact hinv.damaged token htoken
  staged r hr hrunning := by
    rw [hstage]
    rw [hruns] at hr
    exact hinv.staged r hr hrunning
  current := by
    rw [hstage, profile, hfrozen]
    exact hinv.current

lemma mem_runTokens_of_findRun {token : Text} {run : StageRun} (h : s.findRun token = some run) :
    run ∈ s.stageRuns ∧ run.runToken = token :=
  ⟨List.mem_of_find?_eq_some h, by simpa using List.find?_some h⟩

/-- The lone running run of a task that holds its lease. -/
lemma LeaseHeld.running_unique {token : Text} {run : StageRun} (hlease : s.LeaseHeld)
    (hrunning : s.task.status = .running) (hfind : s.findRun token = some run)
    (hrun : run.status = .running) :
    ∀ r ∈ s.stageRuns, r.status = .running → r.runToken = run.runToken := by
  obtain ⟨r', hactive, -⟩ := hlease.active hrunning
  obtain rfl := active_of_findRun hactive hfind hrun
  intro r hr hstatus
  have hmem : r ∈ s.activeRuns := List.mem_filter.mpr ⟨hr, by simpa using hstatus⟩
  rw [hactive] at hmem
  rw [List.mem_singleton.mp hmem]

lemma LeaseHeld.none_running (hlease : s.LeaseHeld) (hidle : s.task.status ≠ .running) :
    ∀ r ∈ s.stageRuns, r.status ≠ .running := by
  intro r hr hstatus
  have hmem : r ∈ s.activeRuns := List.mem_filter.mpr ⟨hr, by simpa using hstatus⟩
  rw [hlease.inactive hidle] at hmem
  cases hmem

/-- The stage an edge leads to is reachable when the stage it leaves is. -/
lemma reachable_target {stage target : Stage} {outcome : Text}
    (hstage : s.profile.stage stage.name = .ok stage)
    (hleads : dictGet outcome stage.outcomes = some target.name)
    (hreach : stage.name ∈ s.profile.reachableStages) :
    target.name ∈ s.profile.successors stage.name ∧
      target.name ∈ s.profile.reachableStages := by
  obtain ⟨-, hclosed, -⟩ := s.frozen.wellFormed.reachableStages_closed
  have hsucc : target.name ∈ s.profile.successors stage.name :=
    Profile.mem_successors.mpr ⟨stage, outcome, hstage, mem_of_dictGet hleads⟩
  exact ⟨hsucc, hclosed stage.name hreach target.name hsucc⟩

/-- The run of a commit stands at the current stage. -/
lemma Committable.stage_eq {token : Text} {result : RunResult} {run : StageRun} {stage : Stage}
    (hcommit : Committable rt s token result run stage) (hinv : s.RowsNamed) :
    stage.name = s.task.currentStage := by
  rw [stage_name hcommit.current]
  exact hinv.staged run (mem_runTokens_of_findRun hcommit.find).1 hcommit.run_running

/-- One transaction keeps the names. -/
lemma RowsNamed.change {op : Operation} (hinv : s.RowsNamed) (hlease : s.LeaseHeld)
    (h : Change rt others s op s') : s'.RowsNamed := by
  cases h with
  | stopCap => exact hinv.plain _ rfl rfl rfl (by simp) rfl rfl
  | claim stamp model stage envelope hclaim hcap hinsert =>
      have hidle := hlease.none_running (by simp [hclaim.queued])
      refine hinv.inserted [] hinsert rfl (by simp [claimedBy]) rfl (by simp) (fun _ => ?_)
        hidle hinv.current
      exact stage_name hclaim.current
  | park stamp token result run stage runStatus status outcome reason hcommit hcase =>
      have hmem := mem_runTokens_of_findRun hcommit.find
      exact hinv.updated run.runToken
        (settledRun result (manifestOf result) runStatus outcome stamp.now) _ (fun _ => rfl)
        (fun _ => hcase.not_running.1) rfl rfl rfl rfl (List.mem_map.mpr ⟨run, hmem.1, rfl⟩)
        (hlease.running_unique hcommit.running hcommit.find hcommit.run_running) hinv.current
  | follow stamp token result run stage envelope outcome target row edgeCapHit hcommit hsuccess
      houtcome henvelope hhold hedge =>
      have hmem := mem_runTokens_of_findRun hcommit.find
      have hname := hcommit.stage_eq hinv
      have hstage : s.profile.stage stage.name = .ok stage := by
        rw [stage_name hcommit.current]
        exact hcommit.current
      have htarget := (reachable_target hstage hedge.leads (hname ▸ hinv.current)).2
      refine hinv.updated run.runToken
        (settledRun result (manifestOf result) .committed outcome stamp.now)
        ⟨s.nextSeq, stamp.operationId, some run.runToken, some stage.name,
          stage.owner, some (Profile.edgeId stage.name outcome), some outcome, some .running,
          (edgeStatus edgeCapHit outcome target).1,
          (edgeStatus edgeCapHit outcome target).2.getD "stage_completed"⟩
        (fun _ => rfl) (fun _ => by simp [settledRun]) ?_ ?_ ?_ rfl
        (List.mem_map.mpr ⟨run, hmem.1, rfl⟩)
        (hlease.running_unique hcommit.running hcommit.find hcommit.run_running) ?_
      all_goals cases edgeCapHit <;> first | rfl | exact htarget
  | resume operationId rerunStage granted =>
      refine hinv.plain [⟨s.nextSeq, operationId, none, some s.task.currentStage,
        s.task.owner, granted.map Prod.fst, granted.bind Prod.snd, some s.task.status, .queued,
        if rerunStage then "manual_rerun_stage" else "manual_resume"⟩] ?_ ?_ ?_ (by simp) ?_ rfl
      all_goals cases granted <;> rfl
  | preflight stamp stop stage hqueued hstage hworking hinsert =>
      have hidle := hlease.none_running (by simp [hqueued])
      have hover : (s.preflightRun stamp stage stop).status ≠ .running := by
        simp only [preflightRun]
        split <;> simp
      exact hinv.inserted _ hinsert rfl rfl rfl
        (fun t ht => by obtain rfl := List.mem_singleton.mp ht; exact ⟨rfl, hover⟩)
        (fun h => absurd h hover) hidle hinv.current
  | preflightIdle => exact hinv
  | orphan stamp hrunning =>
      obtain ⟨run, hactive, -⟩ := hlease.active hrunning
      have hfind := find_active hactive
      have hmem : run ∈ s.stageRuns := List.mem_of_find?_eq_some hfind
      refine hinv.updated run.runToken (closedRun stamp.now)
        ⟨s.nextSeq, stamp.operationId, some run.runToken, some s.task.currentStage,
          s.task.owner, none, none, some .running, .blocked, "orphaned_running"⟩
        (fun _ => rfl) (fun _ => by simp [closedRun]) ?_ ?_ ?_ rfl
        (List.mem_map.mpr ⟨run, hmem, rfl⟩) (fun r hr hstatus => ?_) ?_
      · simp only [orphaned, hfind, Option.elim_some, logged_stageRuns]
      · simp only [orphaned, hfind, Option.elim_some, logged_transitions, updateRun_transitions,
          updateRun_nextSeq, Option.map_some]
      · simp only [orphaned, hfind, Option.elim_some, logged_damaged, updateRun_damaged]
      · have hactiveMem : r ∈ s.activeRuns := List.mem_filter.mpr ⟨hr, by simpa using hstatus⟩
        rw [hactive] at hactiveMem
        rw [List.mem_singleton.mp hactiveMem]
      · simp only [orphaned, hfind, Option.elim_some]
        exact hinv.current
  | alter token hover =>
      refine ⟨hinv.nodup, hinv.named, fun token' htoken' => ?_, hinv.staged, hinv.current⟩
      rcases List.mem_cons.mp htoken' with rfl | htoken'
      · exact hover
      · exact hinv.damaged token' htoken'

lemma RowsNamed.submitted (h : s.Submitted) : s.RowsNamed := by
  obtain ⟨others, sub, h⟩ := h
  obtain ⟨-, rfl⟩ := submitTask_eq_ok h
  have hinitial := sub.frozen.wellFormed.reachableStages_closed.1
  refine ⟨List.nodup_nil, fun t ht token htoken => ?_, by simp [newTask], by simp [newTask],
    hinitial⟩
  obtain rfl := List.mem_singleton.mp ht
  cases htoken

lemma Reachable.rowsNamed {condition : Condition} (h : s.Reachable rt condition) :
    s.RowsNamed :=
  h.preserved_of (fun _ => Reachable.leaseHeld) (fun _ => RowsNamed.submitted)
    fun hlease hinv _ hchange => hinv.change hlease hchange

/-! ## The history -/

/-- A run found by its token among unique ones. -/
lemma RowsNamed.findRun (hinv : s.RowsNamed) {r : StageRun} (hr : r ∈ s.stageRuns) :
    s.findRun r.runToken = some r := by
  have hsome : (s.findRun r.runToken).isSome := by
    rw [TaskStore.findRun, List.find?_isSome]
    exact ⟨r, hr, by simp⟩
  obtain ⟨r', hfind⟩ := Option.isSome_iff_exists.mp hsome
  have hmem := mem_runTokens_of_findRun hfind
  rw [hfind, List.inj_on_of_nodup_map hinv.nodup hmem.1 hr hmem.2]

/-- The entry of the history a transition stands for. -/
def historyEntry (s : TaskStore) (t : Transition) : Option HistoryRun :=
  match t.runToken.bind s.findRun with
  | some run => if run.status = .committed then some ⟨t.stage.getD [], run⟩ else none
  | none => none

lemma committedRunHistory_eq : s.committedRunHistory = s.transitions.filterMap s.historyEntry := rfl

/-- What is logged keeps its entry when every run that is over keeps its row. -/
lemma RowsNamed.history_logs (hinv : s.RowsNamed) (ts : List Transition)
    (hlog : s'.transitions = s.transitions ++ ts)
    (hkeep : ∀ r ∈ s.stageRuns, r.status ≠ .running → s'.findRun r.runToken = some r) :
    s'.committedRunHistory = s.committedRunHistory ++ ts.filterMap s'.historyEntry := by
  rw [committedRunHistory_eq, committedRunHistory_eq, hlog, List.filterMap_append]
  congr 1
  refine List.filterMap_congr fun t ht => ?_
  unfold historyEntry
  cases htoken : t.runToken with
  | none => rfl
  | some token =>
      obtain ⟨r, hr, rfl, hover⟩ := hinv.named t ht token htoken
      simp only [Option.bind_some, hkeep r hr hover, hinv.findRun hr]

/-- Updating a running run leaves the runs that are over alone. -/
lemma RowsNamed.mem_updateRun_of_over (hinv : s.RowsNamed) {run r : StageRun}
    {f : StageRun → StageRun} (hrun : run ∈ s.stageRuns) (hstatus : run.status = .running)
    (hr : r ∈ s.stageRuns) (hover : r.status ≠ .running) :
    r ∈ (s.updateRun run.runToken f).stageRuns := by
  have hne : r.runToken ≠ run.runToken := by
    intro h
    rw [List.inj_on_of_nodup_map hinv.nodup hr hrun h] at hover
    exact hover hstatus
  exact List.mem_map.mpr ⟨r, hr, by rw [if_neg hne]⟩

/-- No transaction rewrites a run that is over. -/
lemma RowsNamed.keeps {op : Operation} (hinv : s.RowsNamed) (h : Change rt others s op s')
    {r : StageRun} (hr : r ∈ s.stageRuns) (hover : r.status ≠ .running) : r ∈ s'.stageRuns := by
  cases h with
  | stopCap => exact hr
  | claim => exact List.mem_append_left _ hr
  | park stamp token result run stage runStatus status outcome reason hcommit =>
      have hmem := (mem_runTokens_of_findRun hcommit.find).1
      exact hinv.mem_updateRun_of_over hmem hcommit.run_running hr hover
  | follow stamp token result run stage envelope outcome target row edgeCapHit hcommit =>
      have hmem := (mem_runTokens_of_findRun hcommit.find).1
      cases edgeCapHit <;> exact hinv.mem_updateRun_of_over hmem hcommit.run_running hr hover
  | resume operationId rerunStage granted => cases granted <;> exact hr
  | preflight => exact List.mem_append_left _ hr
  | preflightIdle => exact hr
  | orphan stamp =>
      unfold orphaned
      cases hfind : s.stageRuns.find? fun r => r.status = .running with
      | none => exact hr
      | some run =>
          have hrunning : run.status = .running := by simpa using List.find?_some hfind
          exact hinv.mem_updateRun_of_over (List.mem_of_find?_eq_some hfind) hrunning hr hover
  | alter => exact hr

/-- The row a commit writes is found under its token. -/
lemma RowsNamed.findRun_settled (hinv : s'.RowsNamed) {run : StageRun} {f : StageRun → StageRun}
    (hf : (f run).runToken = run.runToken) (hrun : run ∈ s.stageRuns)
    (hruns : s'.stageRuns = (s.updateRun run.runToken f).stageRuns) :
    s'.findRun run.runToken = some (f run) := by
  have hmem : f run ∈ s'.stageRuns := by
    rw [hruns]
    exact List.mem_map.mpr ⟨run, hrun, if_pos rfl⟩
  rw [← hf]
  exact hinv.findRun hmem

/-- Settling the running run adds it to the history, if it commits it. -/
lemma RowsNamed.history_settled (hinv : s.RowsNamed) (hinv' : s'.RowsNamed) {run : StageRun}
    {f : StageRun → StageRun} {t : Transition} (hf : (f run).runToken = run.runToken)
    (hrun : run ∈ s.stageRuns) (hrunning : run.status = .running)
    (hruns : s'.stageRuns = (s.updateRun run.runToken f).stageRuns)
    (hlog : s'.transitions = s.transitions ++ [t]) (htoken : t.runToken = some run.runToken) :
    s'.committedRunHistory = s.committedRunHistory ++
      if (f run).status = .committed then [⟨t.stage.getD [], f run⟩] else [] := by
  have hkeep : ∀ r ∈ s.stageRuns, r.status ≠ .running → s'.findRun r.runToken = some r := by
    intro r hr hover
    refine hinv'.findRun ?_
    rw [hruns]
    exact hinv.mem_updateRun_of_over hrun hrunning hr hover
  have hfind := hinv'.findRun_settled hf hrun hruns
  rw [hinv.history_logs [t] hlog hkeep]
  congr 1
  simp only [List.filterMap_cons, List.filterMap_nil, historyEntry, htoken, Option.bind_some,
    hfind]
  split_ifs <;> rfl

/-- A commit along an edge adds its run to the history. -/
lemma RowsNamed.history_followed (hinv : s.RowsNamed) {stamp : Stamp} {token : Text}
    {result : RunResult} {run : StageRun} {stage target : Stage} {outcome : Text}
    {edgeCapHit : Bool} (hcommit : Committable rt s token result run stage)
    (hinv' : (s.followed stamp run stage result outcome target edgeCapHit).RowsNamed) :
    (s.followed stamp run stage result outcome target edgeCapHit).committedRunHistory =
      s.committedRunHistory ++ [⟨stage.name,
        settledRun result (manifestOf result) .committed outcome stamp.now run⟩] := by
  have hmem := mem_runTokens_of_findRun hcommit.find
  have hadds := hinv.history_settled hinv'
    (f := settledRun result (manifestOf result) .committed outcome stamp.now)
    (t := ⟨s.nextSeq, stamp.operationId, some run.runToken,
      some stage.name, stage.owner, some (Profile.edgeId stage.name outcome), some outcome,
      some .running, (edgeStatus edgeCapHit outcome target).1,
      (edgeStatus edgeCapHit outcome target).2.getD "stage_completed"⟩)
    rfl hmem.1 hcommit.run_running (by cases edgeCapHit <;> rfl) (by cases edgeCapHit <;> rfl) rfl
  exact hadds

/-- A commit that parks the task adds its run to the history, if it commits it. -/
lemma RowsNamed.history_parked (hinv : s.RowsNamed) {stamp : Stamp} {token : Text}
    {result : RunResult} {run : StageRun} {stage : Stage} {runStatus : RunStatus}
    {status : Status} {outcome : Option Text} {reason : Text}
    (hcommit : Committable rt s token result run stage)
    (hinv' : (s.parked stamp run stage result runStatus status outcome reason).RowsNamed) :
    (s.parked stamp run stage result runStatus status outcome reason).committedRunHistory =
      s.committedRunHistory ++ if runStatus = .committed then [⟨stage.name,
        settledRun result (manifestOf result) runStatus outcome stamp.now run⟩] else [] :=
  hinv.history_settled hinv' rfl (mem_runTokens_of_findRun hcommit.find).1 hcommit.run_running rfl
    rfl rfl

/-- What a commit adds to the history: nothing, or the run it sealed, when its result is a success
or waits for the user. -/
lemma RowsNamed.history_commit (hinv : s.RowsNamed) (hlease : s.LeaseHeld) {stamp : Stamp}
    {token : Text} {result : RunResult} (h : Change rt others s (.commit stamp token result) s') :
    s'.committedRunHistory = s.committedRunHistory ∨
      ∃ run, run.manifest = some (manifestOf result) ∧ run.runToken ∉ s.damaged ∧
        sealRunManifest rt result = .ok (manifestOf result) ∧
        (result.classification = .success ∨ result.classification = .waitingUser) ∧
        s'.committedRunHistory = s.committedRunHistory ++ [⟨s.task.currentStage, run⟩] := by
  have hinv' := hinv.change hlease h
  have hintact : ∀ (run : StageRun) (stage : Stage), Committable rt s token result run stage →
      run.runToken ∉ s.damaged := by
    intro run stage hcommit hdamaged
    have hmem := mem_runTokens_of_findRun hcommit.find
    obtain ⟨r, hr, htoken, hover⟩ := hinv.damaged run.runToken hdamaged
    rw [List.inj_on_of_nodup_map hinv.nodup hr hmem.1 htoken] at hover
    exact hover hcommit.run_running
  cases h with
  | park _ _ _ run stage runStatus status outcome reason hcommit hcase =>
      rw [hinv.history_parked hcommit hinv', hcommit.stage_eq hinv]
      by_cases hstatus : runStatus = .committed
      · rw [if_pos hstatus]
        refine .inr ⟨settledRun result (manifestOf result) runStatus outcome stamp.now run, rfl,
          hintact run stage hcommit, hcommit.sealed_, ?_, rfl⟩
        cases hcase with
        | hold _ _ hsuccess => exact .inl hsuccess
        | stopped _ _ hparked =>
            cases hclass : result.classification <;> rw [hclass] at hparked <;> cases hparked <;>
              cases hstatus
            exact .inr rfl
      · rw [if_neg hstatus, List.append_nil]
        exact .inl rfl
  | follow _ _ _ run stage envelope outcome target row edgeCapHit hcommit hsuccess =>
      rw [hinv.history_followed hcommit hinv', hcommit.stage_eq hinv]
      exact .inr ⟨settledRun result (manifestOf result) .committed outcome stamp.now run, rfl,
        hintact run stage hcommit, hcommit.sealed_, .inl hsuccess, rfl⟩

/-- Every other transaction leaves the history alone. -/
lemma RowsNamed.history_kept {op : Operation} (hinv : s.RowsNamed) (hlease : s.LeaseHeld)
    (h : Change rt others s op s') (hop : ∀ stamp token result, op ≠ .commit stamp token result) :
    s'.committedRunHistory = s.committedRunHistory := by
  have hinv' := hinv.change hlease h
  have hkeep : ∀ r ∈ s.stageRuns, r.status ≠ .running → s'.findRun r.runToken = some r :=
    fun r hr hover => hinv'.findRun (hinv.keeps h hr hover)
  cases h with
  | stopCap =>
      rw [hinv.history_logs _ rfl hkeep]
      exact List.append_nil _
  | claim =>
      rw [hinv.history_logs [] (by simp [claimedBy]) hkeep]
      exact List.append_nil _
  | park => exact absurd rfl (hop _ _ _)
  | follow => exact absurd rfl (hop _ _ _)
  | resume operationId rerunStage granted =>
      rw [hinv.history_logs [⟨s.nextSeq, operationId, none, some s.task.currentStage,
        s.task.owner, granted.map Prod.fst, granted.bind Prod.snd, some s.task.status, .queued,
        if rerunStage then "manual_rerun_stage" else "manual_resume"⟩]
        (by cases granted <;> rfl) hkeep]
      exact List.append_nil _
  | preflight stamp stop stage hqueued hstage hworking hinsert =>
      rw [hinv.history_logs _ rfl hkeep]
      have hfind : (s.preflighted stamp stage stop).findRun stamp.runToken =
          some (s.preflightRun stamp stage stop) :=
        hinv'.findRun (r := s.preflightRun stamp stage stop) (by simp [preflighted])
      have hover : (s.preflightRun stamp stage stop).status ≠ .committed := by
        simp only [preflightRun]
        split <;> simp
      simp only [List.filterMap_cons, List.filterMap_nil, historyEntry, Option.bind_some, hfind,
        if_neg hover, List.append_nil]
  | preflightIdle => rfl
  | orphan stamp hrunning =>
      obtain ⟨run, hactive, -⟩ := hlease.active hrunning
      have hfind := find_active hactive
      have hmem : run ∈ s.stageRuns := List.mem_of_find?_eq_some hfind
      rw [hinv.history_logs [⟨s.nextSeq, stamp.operationId, some run.runToken,
        some s.task.currentStage, s.task.owner, none, none, some .running, .blocked,
        "orphaned_running"⟩] (by simp [orphaned, hfind]) hkeep]
      have hclosed := hinv'.findRun_settled (f := closedRun stamp.now) rfl hmem
        (by simp [orphaned, hfind])
      simp only [List.filterMap_cons, List.filterMap_nil, historyEntry, Option.bind_some, hclosed]
      simp [closedRun]
  | alter =>
      rw [hinv.history_logs [] (by simp) hkeep]
      exact List.append_nil _

end TaskStore

end AgentOrch
