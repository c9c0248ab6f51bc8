import AgentOrch.Properties.Changes

/-!
# The status of a task, its lease and its log

Seven operations write the status of a task.  Whatever their order, a task is running exactly
while one of its runs is, under the lease of that run, and its transitions are a gapless log that
leads to its present status.  The claim of a queued task is the one status change that is not
logged.
-/

namespace AgentOrch

open Py Json

namespace TaskStore

variable {rt : Runtime} {others : Taken} {s s' : TaskStore}

/-! ## Running runs -/

/-- The runs of a task that are running. -/
def activeRuns (s : TaskStore) : List StageRun := s.stageRuns.filter fun r => r.status = .running

/-- A task is running while exactly one of its runs is, and holds the lease of that run; in every
other status it holds none. -/
structure LeaseHeld (s : TaskStore) : Prop where
  running_iff : s.task.status = .running ↔ ∃ r, s.activeRuns = [r]
  leased : ∀ r, s.activeRuns = [r] →
    s.task.leaseToken = r.leaseToken ∧ s.task.leaseToken.isSome
  unleased : s.task.status ≠ .running → s.task.leaseToken = none
  inactive : s.task.status ≠ .running → s.activeRuns = []

/-- A task that is not running holds no lease and has no running run. -/
lemma LeaseHeld.of_idle (hstatus : s.task.status ≠ .running) (hlease : s.task.leaseToken = none)
    (hactive : s.activeRuns = []) : s.LeaseHeld where
  running_iff := by simp [hstatus, hactive]
  leased := by simp [hactive]
  unleased _ := hlease
  inactive _ := hactive

lemma LeaseHeld.of_active {r : StageRun} {lease : Text} (hstatus : s.task.status = .running)
    (hactive : s.activeRuns = [r]) (hrun : r.leaseToken = some lease)
    (hlease : s.task.leaseToken = some lease) : s.LeaseHeld where
  running_iff := by simp [hstatus, hactive]
  leased r' hr := by
    obtain rfl : r = r' := by simpa [hactive] using hr
    simp [hrun, hlease]
  unleased h := absurd hstatus h
  inactive h := absurd hstatus h

/-- The running run of a running task. -/
lemma LeaseHeld.active (h : s.LeaseHeld) (hstatus : s.task.status = .running) :
    ∃ run, s.activeRuns = [run] ∧ s.task.leaseToken = run.leaseToken ∧
      s.task.leaseToken.isSome := by
  obtain ⟨run, hrun⟩ := h.running_iff.mp hstatus
  exact ⟨run, hrun, h.leased run hrun⟩

/-- A running run found by its token is the running run. -/
lemma active_of_findRun {token : Text} {run r : StageRun} (hactive : s.activeRuns = [r])
    (hfind : s.findRun token = some run) (hrun : run.status = .running) : run = r := by
  have hmem : run ∈ s.activeRuns :=
    List.mem_filter.mpr ⟨List.mem_of_find?_eq_some hfind, by simpa using hrun⟩
  rw [hactive] at hmem
  exact List.mem_singleton.mp hmem

/-- The first running run is the only one. -/
lemma find_active {r : StageRun} (hactive : s.activeRuns = [r]) :
    s.stageRuns.find? (fun r => r.status = .running) = some r := by
  rw [← List.head?_filter]
  exact congrArg List.head? hactive

/-- Settling the running run leaves none. -/
lemma activeRuns_updateRun {run : StageRun} {f : StageRun → StageRun}
    (hactive : s.activeRuns = [run]) (hf : ∀ r, (f r).status ≠ .running) :
    (s.updateRun run.runToken f).activeRuns = [] := by
  refine List.filter_eq_nil_iff.mpr fun r hr => ?_
  obtain ⟨r', hr', rfl⟩ := List.mem_map.mp hr
  split_ifs with htoken
  · simpa using hf r'
  · intro hrun
    have hmem : r' ∈ s.activeRuns := List.mem_filter.mpr ⟨hr', hrun⟩
    rw [hactive] at hmem
    exact htoken (congrArg StageRun.runToken (List.mem_singleton.mp hmem))

/-- One transaction keeps the lease with the running run. -/
lemma LeaseHeld.change {op : Operation} (hinv : s.LeaseHeld) (h : Change rt others s op s') :
    s'.LeaseHeld := by
  cases h with
  | stopCap stamp model stage envelope reason hclaim =>
      have hidle : s.task.status ≠ .running := by simp [hclaim.queued]
      exact .of_idle (by simp [capped]) rfl (hinv.inactive hidle)
  | claim stamp model stage envelope hclaim =>
      have hidle : s.task.status ≠ .running := by simp [hclaim.queued]
      refine .of_active (r := s.claimedRun stamp stage model) rfl ?_ rfl rfl
      have hnone := hinv.inactive hidle
      unfold activeRuns at hnone ⊢
      simp [claimedBy, hnone, claimedRun]
  | park stamp token result run stage runStatus status outcome reason hcommit hcase =>
      obtain ⟨r, hactive, -⟩ := hinv.active hcommit.running
      obtain rfl := active_of_findRun hactive hcommit.find hcommit.run_running
      exact .of_idle hcase.not_running.2 rfl
        (activeRuns_updateRun hactive fun _ => hcase.not_running.1)
  | follow stamp token result run stage envelope outcome target row edgeCapHit hcommit =>
      obtain ⟨r, hactive, -⟩ := hinv.active hcommit.running
      obtain rfl := active_of_findRun hactive hcommit.find hcommit.run_running
      refine .of_idle edgeStatus_ne_running rfl ?_
      have hbumped : (if edgeCapHit then s else
          s.bumpEdge (Profile.edgeId stage.name outcome)).activeRuns = [run] := by
        split <;> exact hactive
      exact activeRuns_updateRun hbumped fun _ => by simp [settledRun]
  | resume operationId rerunStage granted hstatus =>
      have hidle : s.task.status ≠ .running := by
        intro hrunning
        simp [hrunning] at hstatus
      refine .of_idle (by simp [resumedBy]) rfl ?_
      have hnone := hinv.inactive hidle
      cases granted <;> exact hnone
  | preflight stamp stop stage hqueued =>
      have hidle : s.task.status ≠ .running := by simp [hqueued]
      refine .of_idle ?_ (hinv.unleased hidle) ?_
      · simp only [preflighted]
        split <;> simp
      · have hnone := hinv.inactive hidle
        unfold activeRuns at hnone ⊢
        simp only [preflighted, logged_stageRuns, List.filter_append, hnone, List.nil_append]
        cases hpaused : stop.paused <;> simp [preflightRun, hpaused]
  | preflightIdle => exact hinv
  | orphan stamp hrunning =>
      obtain ⟨r, hactive, -⟩ := hinv.active hrunning
      have hfind := find_active hactive
      refine .of_idle (by simp [orphaned]) rfl ?_
      simp only [orphaned, hfind, Option.elim_some]
      exact activeRuns_updateRun hactive fun _ => by simp [closedRun]
  | alter => exact ⟨hinv.running_iff, hinv.leased, hinv.unleased, hinv.inactive⟩

/-! ## The log -/

/-- A change only appends to the log. -/
lemma Change.log_extends {op : Operation} (h : Change rt others s op s') :
    ∃ ts, s'.transitions = s.transitions ++ ts := by
  cases h with
  | resume operationId rerunStage granted =>
      cases granted
      · exact ⟨[_], rfl⟩
      · exact ⟨[_], rfl⟩
  | follow stamp token result run stage envelope outcome target row edgeCapHit =>
      cases edgeCapHit
      · exact ⟨[_], rfl⟩
      · exact ⟨[_], rfl⟩
  | orphan stamp =>
      unfold orphaned
      cases s.stageRuns.find? fun r => r.status = .running with
      | none => exact ⟨[_], rfl⟩
      | some r => exact ⟨[_], rfl⟩
  | stopCap | park | preflight => exact ⟨[_], rfl⟩
  | claim | preflightIdle | alter => exact ⟨[], (List.append_nil _).symm⟩

/-- The status a log entry, or the task, may show after a logged one: the same, or `running`
after `queued`. -/
def Follows (previous : Status) (current : Option Status) : Prop :=
  current = some previous ∨ previous = .queued ∧ current = some .running

/-- The transitions of a task are numbered from 1, start from nothing, chain, and lead to its
status. -/
structure LogChained (s : TaskStore) : Prop where
  numbered : s.transitions.map Transition.seq = List.range' 1 s.transitions.length
  starts : ∃ t, s.transitions.head? = some t ∧ t.fromStatus = none
  follows : s.transitions.IsChain fun t u => Follows t.toStatus u.fromStatus
  ends : ∃ t, s.transitions.getLast? = some t ∧ Follows t.toStatus (some s.task.status)

lemma foldr_max_of_le {l : List ℕ} {m : ℕ} (h : ∀ n ∈ l, n ≤ m) : l.foldr max m = m := by
  induction l with
  | nil => rfl
  | cons n l ih =>
      rw [List.foldr_cons, ih fun k hk => h k (List.mem_cons_of_mem n hk)]
      exact max_eq_right (h n List.mem_cons_self)

/-- The next sequence number of a gapless log. -/
lemma LogChained.nextSeq (h : s.LogChained) : s.nextSeq = s.transitions.length + 1 := by
  unfold TaskStore.nextSeq
  rw [h.numbered]
  generalize s.transitions.length = n
  cases n with
  | zero => rfl
  | succ n =>
      rw [List.range'_1_concat, List.foldr_append]
      have hle : ∀ k ∈ List.range' 1 n, k ≤ 1 + n := fun k hk => by
        have := List.mem_range'_1.mp hk
        omega
      have hlast : List.foldr max 0 [1 + n] = 1 + n := by simp
      rw [hlast, foldr_max_of_le hle]
      omega

/-- Logging a transition from the present status, or from `running` when the task is queued,
keeps the log chained. -/
lemma LogChained.logs {t : Transition} (hinv : s.LogChained)
    (hlog : s'.transitions = s.transitions ++ [t]) (hseq : t.seq = s.nextSeq)
    (hfrom : t.fromStatus = some s.task.status) (hto : t.toStatus = s'.task.status) :
    s'.LogChained where
  numbered := by
    rw [hlog, List.map_append, hinv.numbered, List.length_append]
    simp [List.range'_1_concat, hseq, hinv.nextSeq, Nat.add_comm]
  starts := by
    obtain ⟨first, hfirst, hnone⟩ := hinv.starts
    refine ⟨first, ?_, hnone⟩
    rw [hlog, List.head?_append, hfirst]
    rfl
  follows := by
    obtain ⟨last, hlast, hfollows⟩ := hinv.ends
    rw [hlog, List.isChain_append]
    refine ⟨hinv.follows, List.isChain_singleton t, fun x hx y hy => ?_⟩
    obtain rfl : last = x := by simpa [hlast] using hx
    obtain rfl : t = y := by simpa using hy
    rwa [hfrom]
  ends := ⟨t, by simp [hlog], .inl (by rw [hto])⟩

/-- One transaction keeps the log chained. -/
lemma LogChained.change {op : Operation} (hinv : s.LogChained) (h : Change rt others s op s') :
    s'.LogChained := by
  cases h with
  | stopCap stamp model stage envelope reason hclaim =>
      exact hinv.logs rfl rfl (by rw [hclaim.queued]) rfl
  | claim stamp model stage envelope hclaim =>
      obtain ⟨last, hlast, hfollows⟩ := hinv.ends
      refine ⟨hinv.numbered, hinv.starts, hinv.follows, last, hlast, .inr ⟨?_, rfl⟩⟩
      rcases hfollows with hsame | ⟨hqueued, -⟩
      · rw [hclaim.queued] at hsame
        exact (Option.some.inj hsame).symm
      · exact hqueued
  | park stamp token result run stage runStatus status outcome reason hcommit =>
      exact hinv.logs rfl rfl (by rw [hcommit.running]) rfl
  | follow stamp token result run stage envelope outcome target row edgeCapHit hcommit =>
      refine hinv.logs (t := ⟨s.nextSeq, stamp.operationId, some run.runToken, some stage.name,
        stage.owner, some (Profile.edgeId stage.name outcome), some outcome, some .running,
        (edgeStatus edgeCapHit outcome target).1,
        (edgeStatus edgeCapHit outcome target).2.getD "stage_completed"⟩) ?_ rfl
        (by rw [hcommit.running]) rfl
      cases edgeCapHit <;> rfl
  | resume operationId rerunStage granted =>
      refine hinv.logs (t := ⟨s.nextSeq, operationId, none, some s.task.currentStage, s.task.owner,
        granted.map Prod.fst, granted.bind Prod.snd, some s.task.status, .queued,
        if rerunStage then "manual_rerun_stage" else "manual_resume"⟩) ?_ rfl rfl rfl
      cases granted <;> rfl
  | preflight stamp stop stage hqueued => exact hinv.logs rfl rfl (by rw [hqueued]) rfl
  | preflightIdle => exact hinv
  | orphan stamp hrunning =>
      refine hinv.logs (t := ⟨s.nextSeq, stamp.operationId,
        (s.stageRuns.find? fun r => r.status = .running).map StageRun.runToken,
        some s.task.currentStage, s.task.owner, none, none, some .running, .blocked,
        "orphaned_running"⟩) ?_ rfl (by rw [hrunning]) rfl
      unfold orphaned
      cases s.stageRuns.find? fun r => r.status = .running <;> rfl
  | alter => exact ⟨hinv.numbered, hinv.starts, hinv.follows, hinv.ends⟩

/-! ## Every reachable state -/

lemma LeaseHeld.submitted (h : s.Submitted) : s.LeaseHeld := by
  obtain ⟨others, sub, h⟩ := h
  obtain ⟨-, rfl⟩ := submitTask_eq_ok h
  exact .of_idle (by simp [newTask]) rfl rfl

lemma LogChained.submitted (h : s.Submitted) : s.LogChained := by
  obtain ⟨others, sub, h⟩ := h
  obtain ⟨-, rfl⟩ := submitTask_eq_ok h
  exact ⟨rfl, ⟨_, rfl, rfl⟩, List.isChain_singleton _, ⟨_, rfl, .inl rfl⟩⟩

lemma Reachable.leaseHeld {condition : Condition} (h : s.Reachable rt condition) :
    s.LeaseHeld :=
  h.preserved (fun _ => LeaseHeld.submitted)
    fun hinv _ hchange => hinv.change hchange

lemma Reachable.logChained {condition : Condition} (h : s.Reachable rt condition) :
    s.LogChained :=
  h.preserved (fun _ => LogChained.submitted)
    fun hinv _ hchange => hinv.change hchange

end TaskStore

/-- **Status, lease and log** of every task of every reachable database. -/
theorem statusLog_of_reachable (rt : Runtime) (db : Db) (h : Db.Reachable rt anything db)
    (id : Text) (s : TaskStore) (hs : dictGet id db = some s) : s.LeaseHeld ∧ s.LogChained :=
  ⟨(h.task hs).leaseHeld, (h.task hs).logChained⟩

theorem statusLog_of_reachable_draft : (draftTask []).LeaseHeld ∧ (draftTask []).LogChained :=
  statusLog_of_reachable .standard [("task", draftTask [])]
    (Db.reachable_single "task" [] (submitTask_draft []) rfl) "task" (draftTask []) rfl

end AgentOrch
