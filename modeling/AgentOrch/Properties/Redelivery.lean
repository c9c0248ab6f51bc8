import AgentOrch.Construction.Daemon
import AgentOrch.Properties.History

/-!
# Redelivered requests

A request file outlives a crash, so its action may be carried out again.  Providers are called once
for each claimed run all the same: a call follows its claim within one handling, and a run that a
crash left running is blocked before anything else happens to its task, and stays blocked until a
resume that was not applied before.
-/

namespace AgentOrch

open Py Json

/-! ## The database along a step -/

namespace Db

variable {rt : Runtime} {db db' : Db} {id : Text} {s s' : TaskStore}

/-- Tasks stay, and so do the names of their runs and of their operations. -/
def Grows (db db' : Db) : Prop :=
  ∀ id s, dictGet id db = some s → ∃ s', dictGet id db' = some s' ∧
    s.runTokens ⊆ s'.runTokens ∧ s.operationIds ⊆ s'.operationIds

lemma Grows.refl (db : Db) : db.Grows db :=
  fun _ s hs => ⟨s, hs, List.Subset.refl _, List.Subset.refl _⟩

lemma grows_dictSet (hs : ∀ s, dictGet id db = some s →
      s.runTokens ⊆ s'.runTokens ∧ s.operationIds ⊆ s'.operationIds) :
    Grows db (dictSet id s' db) := by
  intro id' s₀ hs₀
  rw [dictGet_dictSet]
  by_cases hid : id = id'
  · subst hid
    exact ⟨s', by simp, hs s₀ hs₀⟩
  · exact ⟨s₀, by simp [hid, hs₀], List.Subset.refl _, List.Subset.refl _⟩

/-- What another task holds is taken. -/
lemma mem_takenBeside {id' : Text} (hs : dictGet id' db = some s) (hne : id' ≠ id) :
    s.runTokens ⊆ (db.takenBeside id).runTokens ∧
      s.operationIds ⊆ (db.takenBeside id).operationIds := by
  have hmem : (id', s) ∈ db.filter fun t => t.1 ≠ id :=
    List.mem_filter.mpr ⟨mem_of_dictGet hs, by simpa using hne⟩
  exact ⟨fun t ht => List.mem_flatMap.mpr ⟨_, hmem, ht⟩,
    fun t ht => List.mem_flatMap.mpr ⟨_, hmem, ht⟩⟩

/-- An operation identity of the database is one of the task's or is taken. -/
lemma mem_operationIds {operationId : Text} (h : operationId ∈ db.operationIds)
    (hnodup : (dictKeys db).Nodup) :
    (∃ s, dictGet id db = some s ∧ operationId ∈ s.operationIds) ∨
      operationId ∈ (db.takenBeside id).operationIds := by
  obtain ⟨⟨id', s⟩, hmem, h⟩ := List.mem_flatMap.mp h
  by_cases hid : id' = id
  · subst hid
    exact .inl ⟨s, dictGet_of_mem hnodup hmem, h⟩
  · exact .inr ((mem_takenBeside (dictGet_of_mem hnodup hmem) hid).2 h)

/-- The transitions that submit or resume. -/
def entries (db : Db) : List Transition :=
  db.flatMap fun t => t.2.transitions.filter fun transition =>
    transition.toStatus = .queued &&
      transition.reason ∈ (["submitted", "manual_resume", "manual_rerun_stage"] : List Text)

/-- A task that changes by transitions that do neither leaves the entries as they are. -/
lemma entries_dictSet (hs : dictGet id db = some s) {ts : List Transition}
    (hlog : s'.transitions = s.transitions ++ ts)
    (hother : ∀ t ∈ ts, ¬ (t.toStatus = .queued ∧
      t.reason ∈ (["submitted", "manual_resume", "manual_rerun_stage"] : List Text))) :
    entries (dictSet id s' db) = entries db := by
  induction db with
  | nil => cases hs
  | cons p rest ih =>
      obtain ⟨k, v⟩ := p
      rw [dictGet_cons] at hs
      by_cases hk : k = id
      · rw [if_pos hk] at hs
        obtain rfl := Option.some.inj hs
        have hnone : (ts.filter fun transition => transition.toStatus = .queued &&
            transition.reason ∈
              (["submitted", "manual_resume", "manual_rerun_stage"] : List Text)) = [] := by
          refine List.filter_eq_nil_iff.mpr fun t ht => ?_
          simpa using hother t ht
        rw [dictSet, if_pos hk, entries, List.flatMap_cons, hlog, List.filter_append, hnone,
          List.append_nil]
        rfl
      · rw [if_neg hk] at hs
        rw [dictSet, if_neg hk]
        show _ ++ entries (dictSet id s' rest) = _ ++ entries rest
        rw [ih hs]

end Db

namespace TaskStore

variable {rt : Runtime} {others : Taken} {s s' : TaskStore} {op : Operation}

/-- A change keeps the names of the runs. -/
lemma Change.runTokens_subset (h : Change rt others s op s') : s.runTokens ⊆ s'.runTokens := by
  have hupdate : ∀ token f, (∀ r : StageRun, (f r).runToken = r.runToken) →
      s.runTokens ⊆ (s.updateRun token f).runTokens := fun token f hf =>
    (runTokens_updateRun hf).symm ▸ List.Subset.refl _
  cases h with
  | claim | preflight =>
      show s.stageRuns.map StageRun.runToken ⊆ (s.stageRuns ++ _).map StageRun.runToken
      rw [List.map_append]
      exact List.subset_append_left _ _
  | park => exact hupdate _ _ fun _ => rfl
  | follow stamp token result run stage envelope outcome target row edgeCapHit =>
      cases edgeCapHit
      · exact hupdate _ _ fun _ => rfl
      · exact hupdate _ _ fun _ => rfl
  | resume operationId rerunStage granted =>
      cases granted
      · exact List.Subset.refl _
      · exact List.Subset.refl _
  | orphan =>
      unfold orphaned
      cases s.stageRuns.find? fun r => r.status = .running with
      | none => exact List.Subset.refl _
      | some r => exact hupdate _ _ fun _ => rfl
  | _ => exact List.Subset.refl _

/-- Only a resume logs a transition that puts the task in the queue for a caller. -/
lemma Change.logs (h : Change rt others s op s')
    (hop : ∀ operationId rerunStage, op ≠ .resume operationId rerunStage) :
    ∃ ts, s'.transitions = s.transitions ++ ts ∧ ∀ t ∈ ts, ¬ (t.toStatus = .queued ∧
      t.reason ∈ (["submitted", "manual_resume", "manual_rerun_stage"] : List Text)) := by
  cases h with
  | resume operationId rerunStage => exact absurd rfl (hop operationId rerunStage)
  | stopCap => exact ⟨[_], rfl, by simp⟩
  | claim => exact ⟨[], (List.append_nil _).symm, by simp⟩
  | park _ _ _ _ _ runStatus status _ _ _ hcase =>
      refine ⟨[_], rfl, ?_⟩
      have hstatus : status ≠ .queued := by
        cases hcase with
        | hold => simp
        | stopped _ _ h =>
            intro hqueued
            subst hqueued
            rename_i hcommit result
            unfold parkedAs at h
            split at h <;> cases h
      simp [hstatus]
  | follow stamp token result run stage envelope outcome target row edgeCapHit =>
      obtain ⟨t, hlog, hstatus, hreason⟩ : ∃ t : Transition,
          (s.followed stamp run stage result outcome target edgeCapHit).transitions =
            s.transitions ++ [t] ∧ t.toStatus = (edgeStatus edgeCapHit outcome target).1 ∧
          t.reason = (edgeStatus edgeCapHit outcome target).2.getD "stage_completed" := by
        cases edgeCapHit
        · exact ⟨_, rfl, rfl, rfl⟩
        · exact ⟨_, rfl, rfl, rfl⟩
      have hplain : (edgeStatus edgeCapHit outcome target).1 = .queued →
          (edgeStatus edgeCapHit outcome target).2 = none := by
        unfold edgeStatus
        split_ifs <;> simp
      refine ⟨[t], hlog, ?_⟩
      simp only [List.mem_singleton, forall_eq, not_and]
      intro hqueued
      rw [hreason, hplain (hstatus ▸ hqueued)]
      decide
  | preflight => exact ⟨[_], rfl, by simp only [List.mem_singleton, forall_eq]; split_ifs <;> simp⟩
  | orphan stamp =>
      obtain ⟨t, hlog, hstatus⟩ : ∃ t : Transition,
          (s.orphaned stamp).transitions = s.transitions ++ [t] ∧ t.toStatus = .blocked := by
        unfold orphaned
        cases s.stageRuns.find? fun r => r.status = .running with
        | none => exact ⟨_, rfl, rfl⟩
        | some r => exact ⟨_, rfl, rfl⟩
      exact ⟨[t], hlog, by simp [hstatus]⟩
  | _ => exact ⟨[], (List.append_nil _).symm, by simp⟩

/-- A change keeps the names of the operations. -/
lemma Change.operationIds_subset (h : Change rt others s op s') :
    s.operationIds ⊆ s'.operationIds := by
  obtain ⟨ts, hlog⟩ := h.log_extends
  unfold operationIds
  rw [hlog, List.map_append]
  exact List.subset_append_left _ _

/-- A task that runs or is blocked, with nobody about to commit its run. -/
def Halted (s : TaskStore) : Prop := s.task.status = .running ∨ s.task.status = .blocked

/-- Only a commit and a resume move a halted task. -/
lemma Halted.change (h : Change rt others s op s') (hs : s.Halted)
    (hcommit : ∀ stamp token result, op ≠ .commit stamp token result)
    (hresume : ∀ operationId rerunStage, op ≠ .resume operationId rerunStage) : s'.Halted := by
  have hbusy : s.task.status ≠ .queued := by
    rcases hs with hs | hs
    · simp [hs]
    · simp [hs]
  cases h with
  | stopCap _ _ _ _ _ hclaim | claim _ _ _ _ hclaim => exact absurd hclaim.queued hbusy
  | park => exact absurd rfl (hcommit _ _ _)
  | follow => exact absurd rfl (hcommit _ _ _)
  | resume => exact absurd rfl (hresume _ _)
  | preflight _ _ _ hqueued => exact absurd hqueued hbusy
  | orphan stamp => exact .inr rfl
  | _ => exact hs

end TaskStore

namespace Daemon

variable {rt : Runtime} {d d' : Daemon} {events : List Event} {event : Event} {request : Request}
  {activity activity' : Activity} {db : Db}

/-! ## What a step of the service does to the database -/

/-- One task changed by an operation of the controller that is no resume. -/
def Touches (rt : Runtime) (db db' : Db) : Prop :=
  ∃ id s op s', dictGet id db = some s ∧
    (∀ operationId rerunStage, op ≠ .resume operationId rerunStage) ∧
    s.perform rt (db.takenBeside id) op = .ok s' ∧ db' = dictSet id s' db

/-- A step of `_handle` leaves the database alone, submits, resumes, or touches one task. -/
lemma Handle.touches (h : Handle rt request d activity event db activity') :
    db = d.db ∨ Touches rt d.db db ∨
      (∃ taskId id sub s, request.action = .run taskId ∧ request.taskFor taskId = id ∧
        dictGet id d.db = none ∧ sub.operationId = request.requestId ∧
        submitTask (d.db.takenBeside id) sub = .ok s ∧ db = dictSet id s d.db) ∨
      ∃ id rerunStage s s', request.action = .resume id rerunStage ∧
        request.requestId ∉ d.db.operationIds ∧ dictGet id d.db = some s ∧
        s.perform rt (d.db.takenBeside id) (.resume request.requestId rerunStage) = .ok s' ∧
        db = dictSet id s' d.db := by
  cases h with
  | submit taskId sub s haction hnew hid h =>
      exact .inr (.inr (.inl ⟨taskId, _, sub, s, haction, rfl, hnew, hid, h, rfl⟩))
  | resume id rerunStage s s' haction hnew hs h =>
      exact .inr (.inr (.inr ⟨id, rerunStage, s, s', haction, hnew, hs, h, rfl⟩))
  | block id s s' stamp hs h =>
      exact .inr (.inl ⟨id, s, _, s', hs, by simp, h, rfl⟩)
  | preflight id s s' stamp stop hs h =>
      exact .inr (.inl ⟨id, s, _, s', hs, by simp, h, rfl⟩)
  | cap id s s' stamp model hs h =>
      have hperform : s.perform rt (d.db.takenBeside id) (.claim stamp model) = .ok s' := by
        simp only [TaskStore.perform, h]
        rfl
      exact .inr (.inl ⟨id, s, _, s', hs, by simp, hperform, rfl⟩)
  | claim id s s' stamp model hs h =>
      have hperform : s.perform rt (d.db.takenBeside id) (.claim stamp model) = .ok s' := by
        simp only [TaskStore.perform, h]
        rfl
      exact .inr (.inl ⟨id, s, _, s', hs, by simp, hperform, rfl⟩)
  | reject id token s s' stamp message hs henvelope h =>
      exact .inr (.inl ⟨id, s, .commit stamp token _, s', hs, by simp, h, rfl⟩)
  | commit id token s s' stamp run stage envelope context raw hs hraw hstage henvelope h =>
      obtain ⟨result, -, hcommit⟩ := bind_eq_ok.mp h
      exact .inr (.inl ⟨id, s, .commit stamp token result, s', hs, by simp, hcommit, rfl⟩)
  | _ => exact .inl rfl

lemma Touches.grows {db' : Db} (h : Touches rt db db') : db.Grows db' := by
  obtain ⟨id, s, op, s', hs, -, hperform, rfl⟩ := h
  refine Db.grows_dictSet fun s₀ hs₀ => ?_
  rw [hs] at hs₀
  obtain rfl := Option.some.inj hs₀
  have hchange := TaskStore.perform_change hperform
  exact ⟨hchange.runTokens_subset, hchange.operationIds_subset⟩

lemma Handle.grows (h : Handle rt request d activity event db activity') : d.db.Grows db := by
  rcases h.touches with rfl | htouches | ⟨_, id, sub, s, -, -, hnew, -, -, rfl⟩ |
    ⟨id, rerunStage, s, s', -, -, hs, hperform, rfl⟩
  · exact .refl _
  · exact htouches.grows
  · refine Db.grows_dictSet fun s₀ hs₀ => ?_
    rw [hnew] at hs₀
    cases hs₀
  · refine Db.grows_dictSet fun s₀ hs₀ => ?_
    rw [hs] at hs₀
    obtain rfl := Option.some.inj hs₀
    have hchange := TaskStore.perform_change hperform
    exact ⟨hchange.runTokens_subset, hchange.operationIds_subset⟩

lemma Step.grows (h : Step rt d event d') : d.db.Grows d'.db := by
  cases h with
  | block id orphans s s' stamp hphase hs h =>
      exact Touches.grows ⟨id, s, _, s', hs, by simp, h, rfl⟩
  | handle name request activity activity' place names event db hphase h => exact h.grows
  | quarantine place | reconcile place => cases place <;> exact .refl _
  | _ => exact .refl _

/-! ## Claims and calls -/

/-- The runs claimed, in order. -/
def claims (events : List Event) : List (Text × Text) :=
  events.filterMap fun event => match event with
    | .claim id token => some (id, token)
    | _ => none

/-- The provider calls, in order. -/
def calls (events : List Event) : List (Text × Text) :=
  events.filterMap fun event => match event with
    | .invoke id token => some (id, token)
    | _ => none

/-- Every call follows the claim of its own run, which has a name of its own. -/
structure CalledOnce (d : Daemon) (events : List Event) : Prop where
  stored : ∀ claim ∈ claims events,
    ∃ s, dictGet claim.1 d.db = some s ∧ claim.2 ∈ s.runTokens
  nodup : ((claims events).map Prod.snd).Nodup
  called : (calls events).Sublist (claims events)
  pending : ∀ name request id token place names,
    d.phase = .handling name request (.claimed id token) place names →
      ∃ earlier, claims events = earlier ++ [(id, token)] ∧ (calls events).Sublist earlier

lemma claims_snoc (event : Event) : claims (events ++ [event]) = claims events ++
    match event with
    | .claim id token => [(id, token)]
    | _ => [] := by
  rw [claims, List.filterMap_append]
  cases event <;> rfl

lemma calls_snoc (event : Event) : calls (events ++ [event]) = calls events ++
    match event with
    | .invoke id token => [(id, token)]
    | _ => [] := by
  rw [calls, List.filterMap_append]
  cases event <;> rfl

/-- A step that neither claims nor calls. -/
lemma CalledOnce.quiet (h : d.CalledOnce events) (hgrows : d.db.Grows d'.db)
    (hclaims : claims (events ++ [event]) = claims events)
    (hcalls : calls (events ++ [event]) = calls events)
    (hphase : ∀ name request id token place names,
      d'.phase = .handling name request (.claimed id token) place names →
        d.phase = .handling name request (.claimed id token) place names) :
    d'.CalledOnce (events ++ [event]) := by
  refine ⟨?_, ?_, ?_, ?_⟩
  · intro claim hclaim
    rw [hclaims] at hclaim
    obtain ⟨s, hs, htoken⟩ := h.stored claim hclaim
    obtain ⟨s', hs', hsub, -⟩ := hgrows _ s hs
    exact ⟨s', hs', hsub htoken⟩
  · rw [hclaims]
    exact h.nodup
  · rw [hclaims, hcalls]
    exact h.called
  · intro name request id token place names hphase'
    rw [hclaims, hcalls]
    exact h.pending name request id token place names (hphase _ _ _ _ _ _ hphase')

/-- A claimed run has a name no run in the database has. -/
lemma claim_fresh {id : Text} {s s' : TaskStore} {stamp : Stamp} {model : Option Text}
    (hs : dictGet id d.db = some s)
    (h : s.claimStage rt (d.db.takenBeside id) stamp model = .ok (.claimed s')) :
    stamp.runToken ∈ s'.runTokens ∧
      ∀ id' s₀, dictGet id' d.db = some s₀ → stamp.runToken ∉ s₀.runTokens := by
  obtain ⟨stage, envelope, -, ⟨reason, h, -⟩ | ⟨h, -, hinsert⟩⟩ := TaskStore.claimStage_eq_ok h
  · cases h
  · cases h
    constructor
    · show stamp.runToken ∈ (s.stageRuns ++ [s.claimedRun stamp stage model]).map StageRun.runToken
      rw [List.map_append]
      exact List.mem_append_right _ (List.mem_singleton.mpr rfl)
    · intro id' s₀ hs₀ hmem
      by_cases hid : id' = id
      · subst hid
        rw [hs] at hs₀
        obtain rfl := Option.some.inj hs₀
        exact hinsert.token_self hmem
      · exact hinsert.token ((Db.mem_takenBeside hs₀ hid).1 hmem)

lemma CalledOnce.step (h : d.CalledOnce events) (hstep : Step rt d event d') :
    d'.CalledOnce (events ++ [event]) := by
  have hgrows := hstep.grows
  cases hstep with
  | handle name request activity activity' place names event db hphase hhandle =>
      cases hhandle with
      | claim id s s' stamp model hs hclaim =>
          obtain ⟨hmem, hfresh⟩ := claim_fresh hs hclaim
          refine ⟨?_, ?_, ?_, ?_⟩
          · intro claim hc
            rw [claims_snoc] at hc
            rcases List.mem_append.mp hc with hc | hc
            · obtain ⟨s₀, hs₀, htoken⟩ := h.stored claim hc
              obtain ⟨s₁, hs₁, hsub, -⟩ := hgrows _ s₀ hs₀
              exact ⟨s₁, hs₁, hsub htoken⟩
            · obtain rfl := List.mem_singleton.mp hc
              refine ⟨s', ?_, hmem⟩
              show dictGet id (dictSet id s' d.db) = some s'
              rw [dictGet_dictSet, if_pos rfl]
          · rw [claims_snoc, List.map_append]
            refine List.nodup_append.mpr ⟨h.nodup, List.nodup_singleton _, ?_⟩
            rintro a ha b hb rfl
            obtain ⟨claim, hclaim, rfl⟩ := List.mem_map.mp ha
            obtain ⟨s₀, hs₀, htoken⟩ := h.stored claim hclaim
            rw [List.mem_singleton.mp hb] at htoken
            exact hfresh _ s₀ hs₀ htoken
          · rw [claims_snoc, calls_snoc, List.append_nil]
            exact h.called.trans (List.sublist_append_left _ _)
          · rintro _ _ _ _ _ _ ⟨⟩
            exact ⟨claims events, claims_snoc _, by
              rw [calls_snoc, List.append_nil]
              exact h.called⟩
      | invoke id token =>
          obtain ⟨earlier, hclaims, hsub⟩ := h.pending _ _ _ _ _ _ hphase
          have hsame : claims (events ++ [Event.invoke id token]) = claims events := by
            rw [claims_snoc, List.append_nil]
          refine ⟨?_, ?_, ?_, fun _ _ _ _ _ _ hphase' => (nomatch hphase')⟩
          · rw [hsame]
            exact h.stored
          · rw [hsame]
            exact h.nodup
          · rw [hsame, calls_snoc, hclaims]
            exact hsub.append (List.Sublist.refl _)
      | _ =>
          refine h.quiet hgrows (by rw [claims_snoc, List.append_nil])
            (by rw [calls_snoc, List.append_nil]) ?_
          rintro _ _ _ _ _ _ ⟨⟩
  | drop =>
      exact h.quiet hgrows (by rw [claims_snoc, List.append_nil])
        (by rw [calls_snoc, List.append_nil]) fun _ _ _ _ _ _ hphase => hphase
  | _ =>
      exact h.quiet hgrows (by rw [claims_snoc, List.append_nil])
        (by rw [calls_snoc, List.append_nil]) fun _ _ _ _ _ _ hphase => (nomatch hphase)

/-! ## The rows are reachable -/

lemma Touches.step {db' : Db} (h : Touches rt db db') : Db.Step rt anything db db' := by
  obtain ⟨id, s, op, s', hs, -, hperform, rfl⟩ := h
  exact .task id op s s' hs trivial hperform

/-- A step of the service takes at most one step in the database. -/
lemma Step.reachable (h : Step rt d event d') (hdb : Db.Reachable rt anything d.db) :
    Db.Reachable rt anything d'.db := by
  cases h with
  | block id orphans s s' stamp hphase hs h => exact hdb.step (.task id _ s s' hs trivial h)
  | handle name request activity activity' place names event db hphase h =>
      rcases h.touches with rfl | htouches |
        ⟨_, id, sub, s, -, -, hnew, -, hsubmit, rfl⟩ |
        ⟨id, rerunStage, s, s', -, -, hs, hperform, rfl⟩
      · exact hdb
      · exact hdb.step htouches.step
      · exact hdb.step (.submit id sub s hnew hsubmit)
      · exact hdb.step (.task id _ s s' hs trivial hperform)
  | quarantine place | reconcile place => cases place <;> exact hdb
  | _ => exact hdb

lemma Runs.reachable {condition : Daemon → Event → Prop} (h : Runs rt condition d events) :
    Db.Reachable rt anything d.db := by
  induction h with
  | init h =>
      rw [h]
      exact .init rfl
  | step _ hs ih => exact hs.2.reachable ih

/-! ## What was applied -/

/-- The operation a step applies for a caller. -/
def applies : Event → Option (Text × Text)
  | .submit id operationId => some (id, operationId)
  | .resume id operationId => some (id, operationId)
  | _ => none

/-- The log names every operation that was applied. -/
def Logged (d : Daemon) (events : List Event) : Prop :=
  ∀ event ∈ events, ∀ id operationId, applies event = some (id, operationId) →
    ∃ s, dictGet id d.db = some s ∧ operationId ∈ s.operationIds

lemma Step.logged (h : Step rt d event d') {id operationId : Text}
    (happlies : applies event = some (id, operationId)) :
    ∃ s, dictGet id d'.db = some s ∧ operationId ∈ s.operationIds := by
  cases h with
  | handle name request activity activity' place names event db hphase h =>
      cases h with
      | submit taskId sub s haction hnew hid h =>
          obtain ⟨rfl, rfl⟩ := Prod.mk.inj (Option.some.inj happlies)
          obtain ⟨-, rfl⟩ := TaskStore.submitTask_eq_ok h
          refine ⟨_, (dictGet_dictSet _ _ _ _).trans (if_pos rfl), ?_⟩
          rw [← hid]
          exact List.mem_singleton.mpr rfl
      | resume id rerunStage s s' haction hnew hs h =>
          obtain ⟨rfl, rfl⟩ := Prod.mk.inj (Option.some.inj happlies)
          refine ⟨s', (dictGet_dictSet _ _ _ _).trans (if_pos rfl), ?_⟩
          cases TaskStore.perform_change h with
          | resume _ _ granted =>
              unfold TaskStore.operationIds
              cases granted <;> simp [TaskStore.resumedBy]
      | _ => cases happlies
  | _ => cases happlies

lemma Logged.step (h : d.Logged events) (hstep : Step rt d event d') :
    d'.Logged (events ++ [event]) := by
  intro event' hevent' id operationId happlies
  rcases List.mem_append.mp hevent' with hevent' | hevent'
  · obtain ⟨s, hs, hop⟩ := h event' hevent' id operationId happlies
    obtain ⟨s', hs', -, hsub⟩ := hstep.grows id s hs
    exact ⟨s', hs', hsub hop⟩
  · obtain rfl := List.mem_singleton.mp hevent'
    exact hstep.logged happlies

/-- A request that was applied: the log names it, or the task it submits is there. -/
def Applied (d : Daemon) (request : Request) : Prop :=
  request.requestId ∈ d.db.operationIds ∨
    ∃ taskId, request.action = .run taskId ∧ request.taskFor taskId ∈ dictKeys d.db

/-- Handling such a request again puts no task in the queue. -/
lemma Applied.entries (happlied : d.Applied request) (hnodup : (dictKeys d.db).Nodup)
    (h : Handle rt request d activity event db activity') : db.entries = d.db.entries := by
  rcases h.touches with rfl | ⟨id, s, op, s', hs, hop, hperform, rfl⟩ |
    ⟨taskId, id, sub, s, haction, hid, hnew, hop, hsubmit, rfl⟩ |
    ⟨id, rerunStage, s, s', haction, hnew, -, -, rfl⟩
  · rfl
  · obtain ⟨ts, hlog, hother⟩ := (TaskStore.perform_change hperform).logs hop
    exact Db.entries_dictSet hs hlog hother
  · exfalso
    rcases happlied with hlogged | ⟨taskId', haction', hkey⟩
    · rcases Db.mem_operationIds hlogged hnodup with ⟨s₀, hs₀, -⟩ | htaken
      · rw [hnew] at hs₀
        cases hs₀
      · rw [← hop] at htaken
        exact (TaskStore.submitTask_eq_ok hsubmit).1 htaken
    · rw [haction] at haction'
      obtain rfl := Action.run.inj haction'
      rw [hid] at hkey
      have hsome := dictGet_isSome.mpr hkey
      rw [hnew] at hsome
      cases hsome
  · exfalso
    rcases happlied with hlogged | ⟨taskId', haction', -⟩
    · exact hnew hlogged
    · rw [haction] at haction'
      cases haction'

lemma nodup_keys (h : Db.Reachable rt anything db) : (dictKeys db).Nodup := by
  induction h with
  | init h =>
      rw [h]
      exact List.nodup_nil
  | step _ hstep ih =>
      cases hstep with
      | submit | task => exact nodup_dictSet ih

/-! ## Stranded tasks -/

/-- The task is halted, and nobody holds a claim on it. -/
structure Stranded (id : Text) (d : Daemon) : Prop where
  halted : ∃ s, dictGet id d.db = some s ∧ s.Halted
  unclaimed : ∀ name request token place names,
    d.phase ≠ .handling name request (.claimed id token) place names ∧
      d.phase ≠ .handling name request (.returned id token) place names

/-- A task stays halted when another one changes, or when it is halted after its own change. -/
lemma halted_dictSet {id id' : Text} {s' : TaskStore}
    (h : ∃ s, dictGet id db = some s ∧ s.Halted)
    (hhalted : ∀ s, dictGet id db = some s → id' = id → s.Halted → s'.Halted) :
    ∃ s, dictGet id (dictSet id' s' db) = some s ∧ s.Halted := by
  obtain ⟨s₀, hs₀, h₀⟩ := h
  rw [dictGet_dictSet]
  by_cases hid : id' = id
  · exact ⟨s', if_pos hid, hhalted s₀ hs₀ hid h₀⟩
  · exact ⟨s₀, by rw [if_neg hid, hs₀], h₀⟩

/-- An operation that is neither a commit nor a resume keeps every task halted that was. -/
lemma halted_perform {id id' : Text} {s s' : TaskStore} {others : Taken} {op : Operation}
    (h : ∃ s, dictGet id db = some s ∧ s.Halted) (hs : dictGet id' db = some s)
    (hperform : s.perform rt others op = .ok s')
    (hcommit : ∀ stamp token result, op ≠ .commit stamp token result)
    (hresume : ∀ operationId rerunStage, op ≠ .resume operationId rerunStage) :
    ∃ s, dictGet id (dictSet id' s' db) = some s ∧ s.Halted := by
  refine halted_dictSet h fun s₀ hs₀ hid h₀ => ?_
  rw [← hid, hs] at hs₀
  obtain rfl := Option.some.inj hs₀
  exact h₀.change (TaskStore.perform_change hperform) hcommit hresume

/-- A claim meets a queued task. -/
lemma Stranded.ne_claimed {id id' : Text} {s : TaskStore} {stamp : Stamp} {model : Option Text}
    {others : Taken} {claim : TaskStore.Claim} (h : d.Stranded id) (hs : dictGet id' d.db = some s)
    (hclaim : s.claimStage rt others stamp model = .ok claim) : id' ≠ id := by
  rintro rfl
  obtain ⟨s₀, hs₀, h₀⟩ := h.halted
  rw [hs] at hs₀
  obtain rfl := Option.some.inj hs₀
  obtain ⟨stage, envelope, hable, -⟩ := TaskStore.claimStage_eq_ok hclaim
  rcases h₀ with h₀ | h₀
  · rw [hable.queued] at h₀
    cases h₀
  · rw [hable.queued] at h₀
    cases h₀

/-- Handling a request leaves a stranded task where it is, unless it resumes it. -/
lemma Stranded.handle {id name : Text} {place : Place} {names : List Text} (h : d.Stranded id)
    (hphase : d.phase = .handling name request activity place names)
    (hhandle : Handle rt request d activity event db activity')
    (hresume : ∀ operationId, event ≠ .resume id operationId) :
    (∃ s, dictGet id db = some s ∧ s.Halted) ∧
      (∀ token, activity' ≠ .claimed id token ∧ activity' ≠ .returned id token) ∧
      ∀ token, event ≠ .invoke id token := by
  cases hhandle with
  | submit taskId sub s haction hnew hid hsubmit =>
      refine ⟨halted_dictSet h.halted fun s₀ hs₀ hid => ?_, by simp, by simp⟩
      rw [← hid, hnew] at hs₀
      cases hs₀
  | resume id' rerunStage s s' haction hnew hs hperform =>
      have hne : id' ≠ id := by
        rintro rfl
        exact hresume _ rfl
      exact ⟨halted_dictSet h.halted fun _ _ hid => absurd hid hne, by simp, by simp⟩
  | block id' s s' stamp hs hperform =>
      exact ⟨halted_perform h.halted hs hperform (by simp) (by simp), by simp, by simp⟩
  | preflight id' s s' stamp stop hs hperform =>
      exact ⟨halted_perform h.halted hs hperform (by simp) (by simp), by simp, by simp⟩
  | cap id' s s' stamp model hs hclaim =>
      have hne := h.ne_claimed hs hclaim
      exact ⟨halted_dictSet h.halted fun _ _ hid => absurd hid hne, by simp, by simp⟩
  | claim id' s s' stamp model hs hclaim =>
      have hne := h.ne_claimed hs hclaim
      exact ⟨halted_dictSet h.halted fun _ _ hid => absurd hid hne, by simp [hne], by simp⟩
  | reject id' token s s' stamp message hs henvelope hcommit =>
      have hne : id' ≠ id := by
        rintro rfl
        exact (h.unclaimed _ _ _ _ _).1 hphase
      exact ⟨halted_dictSet h.halted fun _ _ hid => absurd hid hne, by simp, by simp⟩
  | invoke id' token =>
      have hne : id' ≠ id := by
        rintro rfl
        exact (h.unclaimed _ _ _ _ _).1 hphase
      exact ⟨h.halted, by simp [hne], by simp [hne]⟩
  | commit id' token s s' stamp run stage envelope context raw hs hraw hstage henvelope hfinish =>
      have hne : id' ≠ id := by
        rintro rfl
        exact (h.unclaimed _ _ _ _ _).2 hphase
      exact ⟨halted_dictSet h.halted fun _ _ hid => absurd hid hne, by simp, by simp⟩
  | _ => exact ⟨h.halted, by simp, by simp⟩

/-- So does every step of the service. -/
lemma Stranded.step {id : Text} (h : d.Stranded id) (hstep : Step rt d event d')
    (hresume : ∀ operationId, event ≠ .resume id operationId) :
    d'.Stranded id ∧ ∀ token, event ≠ .invoke id token := by
  cases hstep with
  | drop => exact ⟨⟨h.halted, h.unclaimed⟩, by simp⟩
  | block id' orphans s s' stamp hphase hs hperform =>
      exact ⟨⟨halted_perform h.halted hs hperform (by simp) (by simp), by simp [set]⟩, by simp⟩
  | handle name request activity activity' place names event db hphase hhandle =>
      obtain ⟨hhalted, hactivity, hevent⟩ := h.handle hphase hhandle hresume
      refine ⟨⟨hhalted, fun name' request' token place' names' => ⟨?_, ?_⟩⟩, hevent⟩
      · intro hphase'
        exact (hactivity token).1 (Phase.handling.inj hphase').2.2.1
      · intro hphase'
        exact (hactivity token).2 (Phase.handling.inj hphase').2.2.1
  | quarantine place | reconcile place =>
      cases place
      · exact ⟨⟨h.halted, by simp⟩, by simp⟩
      · exact ⟨⟨h.halted, by simp⟩, by simp⟩
  | _ => exact ⟨⟨h.halted, by simp⟩, by simp⟩

/-- No provider is called for a stranded task before a resume. -/
lemma Stranded.path {id : Text} {later : List Event} (h : d.Stranded id)
    (hpath : Path (Step rt) d d' later) (hresume : ∀ operationId, .resume id operationId ∉ later) :
    d'.Stranded id ∧ ∀ token, .invoke id token ∉ later := by
  induction hpath with
  | refl => exact ⟨h, by simp⟩
  | step _ hs ih =>
      obtain ⟨hstranded, hquiet⟩ := ih fun operationId hmem =>
        hresume operationId (List.mem_append_left _ hmem)
      obtain ⟨hstranded, hevent⟩ := hstranded.step hs fun operationId heq =>
        hresume operationId (by simp [heq])
      refine ⟨hstranded, fun token hmem => ?_⟩
      rcases List.mem_append.mp hmem with hmem | hmem
      · exact hquiet token hmem
      · exact hevent token (List.mem_singleton.mp hmem).symm

/-- A crash that left a run running stranded its task. -/
lemma Stranded.crashed {id : Text} {s : TaskStore} {run : StageRun}
    (hdb : Db.Reachable rt anything d.db) (hdown : d.phase = .down)
    (hs : dictGet id d.db = some s) (hrun : run ∈ s.stageRuns) (hrunning : run.status = .running) :
    d.Stranded id := by
  refine ⟨⟨s, hs, .inl ?_⟩, by simp [hdown]⟩
  by_contra hidle
  exact (Db.Reachable.task hdb hs).leaseHeld.none_running hidle run hrun hrunning

/-! ## The result -/

/-- Every provider call is the only one of a run claimed for it.  Once a crash has left a run
running, no provider is called for its task before a resume the log does not name is applied, and
a request that was applied puts no task in the queue again. -/
theorem providers_not_reinvoked (rt : Runtime) (d : Daemon) (events : List Event)
    (h : Runs rt (fun _ _ => True) d events) :
    ((claims events).map Prod.snd).Nodup ∧
    (calls events).Sublist (claims events) ∧
    (∀ id s run d' later, d.phase = .down → dictGet id d.db = some s → run ∈ s.stageRuns →
      run.status = .running → Path (Step rt) d d' later →
      (∀ operationId, .resume id operationId ∉ later) → ∀ token, .invoke id token ∉ later) ∧
    (∀ id operationId d', Step rt d (.resume id operationId) d' →
      operationId ∉ d.db.operationIds) ∧
    (∀ event ∈ events, ∀ id operationId, applies event = some (id, operationId) →
      operationId ∈ d.db.operationIds) ∧
    ∀ name request activity place names event d',
      d.phase = .handling name request activity place names → d.Applied request →
      Step rt d event d' → d'.db.entries = d.db.entries := by
  have hdb := h.reachable
  have hcalled : d.CalledOnce events := by
    refine h.invariant (fun d hfresh => ?_) fun d event d' events hinv hstep => ?_
    · rw [hfresh]
      exact ⟨by simp [claims], List.nodup_nil, List.Sublist.refl _, by simp⟩
    · exact CalledOnce.step hinv hstep.2
  have hlogged : d.Logged events := by
    refine h.invariant (fun d _ => ?_) fun d event d' events hinv hstep => ?_
    · simp [Logged]
    · exact Logged.step hinv hstep.2
  refine ⟨hcalled.nodup, hcalled.called, ?_, ?_, ?_, ?_⟩
  · intro id s run d' later hdown hs hrun hrunning hpath hresume
    exact ((Stranded.crashed hdb hdown hs hrun hrunning).path hpath hresume).2
  · intro id operationId d' hstep
    cases hstep with
    | handle _ _ _ _ _ _ _ _ hphase hhandle =>
        cases hhandle with
        | resume _ _ _ _ _ hnew => exact hnew
  · intro event hevent id operationId happlies
    obtain ⟨s, hs, hop⟩ := hlogged event hevent id operationId happlies
    exact List.mem_flatMap.mpr ⟨_, mem_of_dictGet hs, hop⟩
  · intro name request activity place names event d' hphase happlied hstep
    cases hstep with
    | handle _ _ _ _ _ _ _ _ hphase' hhandle =>
        rw [hphase] at hphase'
        obtain ⟨rfl, rfl, rfl, rfl, rfl⟩ := Phase.handling.inj hphase'
        exact happlied.entries (nodup_keys hdb) hhandle
    | block _ _ _ _ _ hphase' =>
        rw [hphase] at hphase'
        cases hphase'
    | quarantine place | reconcile place => cases place <;> rfl
    | _ => rfl

/-! ## An interrupted draft -/

def draftRequest : Request := ⟨"op-submit", .run ("task" : Text)⟩

/-- The service died after it claimed the draft. -/
def interrupted : Daemon :=
  ⟨[("task", claimedDraft)], [], [("draft.json", draftRequest)], [], [], .down⟩

def interruptedEvents : List Event :=
  [.drop "draft.json" draftRequest, .internal, .internal, .internal, .internal, .internal,
    .internal, .internal, .internal, .submit "task" "op-submit", .claim "task" "run-1", .crash]

lemma runs_interrupted : Runs .standard (fun _ _ => True) interrupted interruptedEvents := by
  have hstep : ∀ {d d' : Daemon} {event : Event} {events : List Event},
      Runs .standard (fun _ _ => True) d events → Step .standard d event d' →
      Runs .standard (fun _ _ => True) d' (events ++ [event]) :=
    fun h hstep => .step h ⟨trivial, hstep⟩
  have h0 : Runs .standard (fun _ _ => True) ⟨[], [], [], [], [], .down⟩ [] := .init rfl
  have h1 := hstep h0 (.drop "draft.json" draftRequest List.not_mem_nil (by decide))
  have h2 := hstep h1 (.start rfl)
  have h3 := hstep h2 (.started rfl)
  have h4 := hstep h3 (.keep .inbox "draft.json" [] rfl (.inr ⟨by decide, rfl⟩))
  have h5 := hstep h4 (.scanned rfl)
  have h6 := hstep h5 (.ready rfl)
  have h7 := hstep h6 (.poll rfl)
  have h8 := hstep h7 (.replayed rfl)
  have h9 := hstep h8 (.take "draft.json" [] draftRequest (by rfl) (by rfl))
  have h10 := hstep h9 (.handle "draft.json" draftRequest .received (.looping "task") .inbox [] _ _
    rfl (.submit ("task" : Text) (draftSubmission []) (draftTask []) rfl rfl rfl
      (submitTask_draft [])))
  have h11 := hstep h10 (.handle "draft.json" draftRequest (.looping "task")
    (.claimed "task" "run-1") .inbox [] _ _ rfl
    (.claim "task" (draftTask []) claimedDraft (sampleStamp 1) none rfl claimStage_draft))
  exact hstep h11 .crash

/-- One draft was claimed, and no provider is called for it again before a resume. -/
theorem providers_not_reinvoked_interrupted :
    ((claims interruptedEvents).map Prod.snd).Nodup ∧
      ∀ d' later, Path (Step .standard) interrupted d' later →
        (∀ operationId, .resume "task" operationId ∉ later) →
        ∀ token, .invoke "task" token ∉ later := by
  obtain ⟨hnodup, -, hstranded, -⟩ :=
    providers_not_reinvoked .standard interrupted interruptedEvents runs_interrupted
  exact ⟨hnodup, fun d' later =>
    hstranded "task" claimedDraft draftRun d' later rfl rfl (List.mem_singleton.mpr rfl) rfl⟩

end Daemon

end AgentOrch
