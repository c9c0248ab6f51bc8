import AgentOrch.Properties.LoopBudget

/-!
# Queued tasks and terminal stages

A task that is queued must stand at a stage that does work, or nothing can claim it.  Committing
an edge moves the task to the target even when the commit parks it; so all depends on which edges
into a terminal stage can park a task.  An edge cap never does: the counter of such an edge is
zero until the task ends.  The reserved outcome does, for a task without an envelope whose profile
leads that outcome to a terminal stage.
-/

namespace AgentOrch

open Py Json

namespace Profile

variable {p : Profile}

/-- An outcome of a stage leads to a terminal stage. -/
def EndsAt (p : Profile) (stage : Stage) (outcome : Text) : Prop :=
  ∃ target : Stage, dictGet outcome stage.outcomes = some target.name ∧
    p.stage target.name = .ok target ∧ target.terminal ≠ none

/-- The identity of an edge into a terminal stage. -/
def EndingEdge (p : Profile) (edge : Text) : Prop :=
  ∃ stage outcome, p.stage stage.name = .ok stage ∧ p.EndsAt stage outcome ∧
    edge = edgeId stage.name outcome

/-- An edge to a working stage is no edge into a terminal stage. -/
lemma WellFormed.not_endingEdge (h : p.WellFormed) {stage target : Stage} {outcome : Text}
    (hstage : p.stage stage.name = .ok stage)
    (hleads : dictGet outcome stage.outcomes = some target.name)
    (htarget : p.stage target.name = .ok target) (hworking : target.terminal = none) :
    ¬ p.EndingEdge (edgeId stage.name outcome) := by
  rintro ⟨stage', outcome', hstage', ⟨target', hleads', htarget', hends⟩, hedge⟩
  have hid := (h.named _ _ (mem_of_dictGet (stage_eq_ok.mp hstage))).2.identifier
  have hid' := (h.named _ _ (mem_of_dictGet (stage_eq_ok.mp hstage'))).2.identifier
  obtain ⟨hname, rfl⟩ := edgeId_injective hid hid' hedge
  rw [hname, hstage'] at hstage
  obtain rfl := Except.ok.inj hstage
  rw [hleads'] at hleads
  rw [← Option.some.inj hleads, htarget'] at htarget
  obtain rfl := Except.ok.inj htarget
  exact hends hworking

end Profile

/-- The commit that strands a task: without an envelope, a success whose outcome is the reserved
one, at a stage that leads it to a terminal stage. -/
def HoldsAtEnd (rt : Runtime) (op : Operation) (s : TaskStore) : Prop :=
  ∃ stamp token result run stage, op = .commit stamp token result ∧
    s.envelopeForTask rt = .ok none ∧ result.classification = .success ∧
    result.outcome = some holdOutcome ∧ s.findRun token = some run ∧
    s.profile.stage run.stage = .ok stage ∧ s.profile.EndsAt stage holdOutcome

/-- No commit holds a task at its end. -/
def neverHoldsAtEnd (rt : Runtime) : Condition := fun op s => ¬ HoldsAtEnd rt op s

namespace TaskStore

variable {rt : Runtime} {others : Taken} {s s' : TaskStore}

/-- The task has not ended. -/
def Live (s : TaskStore) : Prop := s.task.status ≠ .done ∧ s.task.status ≠ .failed

/-- The task stands at a stage that does work. -/
def AtWork (s : TaskStore) : Prop :=
  ∃ stage, s.profile.stage s.task.currentStage = .ok stage ∧ stage.terminal = none

/-- A live task stands at a working stage, has crossed no edge into a terminal stage, and was
never stopped at the cap of one. -/
structure Unstranded (s : TaskStore) : Prop where
  atWork : s.Live → s.AtWork
  uncrossed : s.Live → ∀ e row, s.profile.EndingEdge e → s.edgeRow e = some row → row.count = 0
  uncapped : ∀ t ∈ s.transitions, t.reason = ("edge_cap" : Text) → ∀ e, t.edge = some e →
    ¬ s.profile.EndingEdge e

/-- A change that keeps the stage and crosses no edge. -/
lemma Unstranded.stays {t : Transition} (hinv : s.Unstranded) (hlive : s.Live)
    (hlog : s'.transitions = s.transitions ++ [t]) (hedge : t.edge = none)
    (hcounts : s'.edgeCounts = s.edgeCounts) (hfrozen : s'.frozen = s.frozen)
    (hstage : s'.task.currentStage = s.task.currentStage) : s'.Unstranded where
  atWork _ := by
    obtain ⟨stage, h⟩ := hinv.atWork hlive
    exact ⟨stage, by rwa [profile, hfrozen, hstage]⟩
  uncrossed _ e row he hrow := by
    rw [profile, hfrozen] at he
    rw [edgeRow, hcounts] at hrow
    exact hinv.uncrossed hlive e row he hrow
  uncapped u hu hreason e he := by
    rw [profile, hfrozen]
    rw [hlog, List.mem_append, List.mem_singleton] at hu
    rcases hu with hu | rfl
    · exact hinv.uncapped u hu hreason e he
    · rw [hedge] at he
      cases he

/-- The counter of another edge is not bumped. -/
lemma count_bumpEdge_of_ne {e e' : Text} {row : EdgeCount} (hne : e' ≠ e)
    (hrow : (s.bumpEdge e).edgeRow e' = some row) : s.edgeRow e' = some row := by
  rw [edgeRow_bumpEdge] at hrow
  simpa [hne] using hrow

/-- The cap of an edge into a terminal stage is never hit while the task is live. -/
lemma Unstranded.not_hit {stage target : Stage} {outcome : Text} {present edgeCapHit : Bool}
    {row : EdgeCount} (hinv : s.Unstranded) (hcounts : s.CountsLog) (hlive : s.Live)
    (hending : s.profile.EndingEdge (Profile.edgeId stage.name outcome))
    (hedge : EdgeTaken s stage outcome present target row edgeCapHit) : edgeCapHit = false := by
  have hzero := hinv.uncrossed hlive _ row hending hedge.counter
  have hseeded := hcounts.seeded (Profile.edgeId stage.name outcome)
  rw [hedge.counter] at hseeded
  have hpos := s.frozen.wellFormed.caps_pos _ row.cap (mem_of_dictGet hseeded.symm)
  rw [hedge.hit, hzero]
  have : ¬ row.cap ≤ 0 := by omega
  simp [this]

/-- Committing an edge never strands a task, unless it holds the task at its end. -/
lemma Unstranded.follows {stamp : Stamp} {token : Text} {result : RunResult} {run : StageRun}
    {stage target : Stage} {envelope : Option Envelope} {outcome : Text} {row : EdgeCount}
    {edgeCapHit : Bool} (hinv : s.Unstranded) (hcounts : s.CountsLog)
    (hop : ¬ HoldsAtEnd rt (.commit stamp token result) s)
    (hcommit : Committable rt s token result run stage)
    (hsuccess : result.classification = .success) (houtcome : result.outcome = some outcome)
    (henvelope : s.envelopeForTask rt = .ok envelope)
    (hhold : ¬ (outcome = holdOutcome ∧ envelope.isSome))
    (hedge : EdgeTaken s stage outcome envelope.isSome target row edgeCapHit) :
    (s.followed stamp run stage result outcome target edgeCapHit).Unstranded := by
  have hlive : s.Live := by simp [Live, hcommit.running]
  have hname : s.profile.stage stage.name = .ok stage := by
    rw [stage_name hcommit.current]
    exact hcommit.current
  by_cases hworking : target.terminal = none
  · have hending := s.frozen.wellFormed.not_endingEdge hname hedge.leads hedge.known hworking
    refine ⟨fun _ => ⟨target, ?_, hworking⟩, fun _ e row' he hrow => ?_,
      fun t ht hreason e hte => ?_⟩
    · cases edgeCapHit <;> exact hedge.known
    · have he : s.profile.EndingEdge e := by cases edgeCapHit <;> exact he
      have hne : e ≠ Profile.edgeId stage.name outcome := fun h => hending (h ▸ he)
      refine hinv.uncrossed hlive e row' he ?_
      cases edgeCapHit with
      | true => exact hrow
      | false => exact count_bumpEdge_of_ne hne hrow
    · have ht : t ∈ s.transitions ∨ t.edge = some (Profile.edgeId stage.name outcome) := by
        cases edgeCapHit <;> rcases List.mem_append.mp ht with ht | ht
        all_goals first
          | exact .inl ht
          | exact .inr (congrArg Transition.edge (List.mem_singleton.mp ht))
      have hprofile : (s.followed stamp run stage result outcome target edgeCapHit).profile =
          s.profile := by cases edgeCapHit <;> rfl
      rw [hprofile]
      rcases ht with ht | ht
      · exact hinv.uncapped t ht hreason e hte
      · rw [ht] at hte
        exact Option.some.inj hte ▸ hending
  · have hends : s.profile.EndsAt stage outcome := ⟨target, hedge.leads, hedge.known, hworking⟩
    have hnothit := hinv.not_hit hcounts hlive ⟨stage, outcome, hname, hends, rfl⟩ hedge
    subst hnothit
    have hnot : outcome ≠ holdOutcome := by
      rintro rfl
      cases envelope with
      | some envelope => exact hhold ⟨rfl, rfl⟩
      | none => exact hop ⟨stamp, token, result, run, stage, rfl, henvelope, hsuccess, houtcome,
          hcommit.find, hcommit.current, hends⟩
    obtain ⟨terminal, hterminal⟩ := Option.ne_none_iff_exists'.mp hworking
    have hstatus : (s.followed stamp run stage result outcome target false).task.status =
        terminal.status := by
      simp [followed, edgeStatus, hnot, hterminal]
    have hdead : ¬ (s.followed stamp run stage result outcome target false).Live := by
      rw [Live, hstatus]
      cases terminal <;> simp [Terminal.status]
    refine ⟨fun h => absurd h hdead, fun h => absurd h hdead, fun t ht hreason e hte => ?_⟩
    rcases List.mem_append.mp ht with ht | ht
    · exact hinv.uncapped t ht hreason e hte
    · obtain rfl := List.mem_singleton.mp ht
      exact absurd hreason (edgeStatus_reason.mpr rfl)

/-- The edge a resume grants is one whose cap stopped a commit. -/
lemma mem_of_resumedEdge {g : Text × Option Text} (h : s.resumedEdge = .ok (some g)) :
    ∃ t ∈ s.transitions, t.reason = ("edge_cap" : Text) ∧ t.edge = some g.1 := by
  unfold resumedEdge at h
  split_ifs at h with hstop
  · cases hcapped : s.cappedTransition with
    | none =>
        rw [hcapped] at h
        cases h
    | some t =>
        have ht := List.mem_of_getLast? hcapped
        rw [List.mem_filter, decide_eq_true_eq] at ht
        cases hedge : t.edge with
        | none => simp [hcapped, hedge] at h
        | some e =>
            simp only [hcapped, hedge, Option.bind_some, Option.map_some] at h
            cases h
            exact ⟨t, ht.1, ht.2, hedge⟩
  · cases h

/-- One transaction strands no task, unless it holds the task at its end. -/
lemma Unstranded.change {op : Operation} (hinv : s.Unstranded) (hcounts : s.CountsLog)
    (hop : neverHoldsAtEnd rt op s) (h : Change rt others s op s') : s'.Unstranded := by
  cases h with
  | stopCap stamp model stage envelope reason hclaim =>
      exact hinv.stays (by simp [Live, hclaim.queued]) rfl rfl rfl rfl rfl
  | claim stamp model stage envelope hclaim =>
      have hlive : s.Live := by simp [Live, hclaim.queued]
      exact ⟨fun _ => hinv.atWork hlive, fun _ => hinv.uncrossed hlive, hinv.uncapped⟩
  | park stamp token result run stage runStatus status outcome reason hcommit =>
      exact hinv.stays (by simp [Live, hcommit.running]) rfl rfl rfl rfl rfl
  | follow stamp token result run stage envelope outcome target row edgeCapHit hcommit hsuccess
      houtcome henvelope hhold hedge =>
      exact hinv.follows hcounts hop hcommit hsuccess houtcome henvelope hhold hedge
  | resume operationId rerunStage granted hstatus hgranted =>
      have hlive : s.Live := by
        constructor <;> intro h <;> simp [h] at hstatus
      cases granted with
      | none => exact hinv.stays hlive rfl rfl rfl rfl rfl
      | some g =>
          obtain ⟨t, ht, hreason, hedge⟩ := mem_of_resumedEdge hgranted
          have hending := hinv.uncapped t ht hreason g.1 hedge
          refine ⟨fun _ => hinv.atWork hlive, fun _ e row he hrow => ?_, fun u hu hr e hue => ?_⟩
          · have hne : e ≠ g.1 := fun h => hending (h ▸ he)
            exact hinv.uncrossed hlive e row he (count_bumpEdge_of_ne hne hrow)
          · rcases List.mem_append.mp hu with hu | hu
            · exact hinv.uncapped u hu hr e hue
            · obtain rfl := List.mem_singleton.mp hu
              exact absurd hr (resumeReason_ne rerunStage)
  | preflight stamp stop stage hqueued =>
      exact hinv.stays (by simp [Live, hqueued]) rfl rfl rfl rfl rfl
  | preflightIdle => exact hinv
  | orphan stamp hrunning =>
      refine hinv.stays (t := ⟨s.nextSeq, stamp.operationId,
        (s.stageRuns.find? fun r => r.status = .running).map StageRun.runToken,
        some s.task.currentStage, s.task.owner, none, none, some .running, .blocked,
        "orphaned_running"⟩) (by simp [Live, hrunning]) ?_ rfl ?_ ?_ rfl
      all_goals
        unfold orphaned
        cases s.stageRuns.find? fun r => r.status = .running <;> rfl
  | alter => exact ⟨hinv.atWork, hinv.uncrossed, hinv.uncapped⟩

lemma Unstranded.submitted (h : s.Submitted) : s.Unstranded := by
  have hcounts := CountsLog.submitted h
  obtain ⟨others, sub, h⟩ := h
  obtain ⟨-, rfl⟩ := submitTask_eq_ok h
  obtain ⟨initial, hinitial, hworking⟩ := sub.frozen.wellFormed.initial
  refine ⟨fun _ => ⟨initial, Profile.stage_eq_ok.mpr hinitial, hworking⟩,
    fun _ e row _ hrow => hcounts.counted e row hrow, fun t ht hreason => ?_⟩
  obtain rfl := List.mem_singleton.mp ht
  exact absurd hreason (by decide : ("submitted" : Text) ≠ ("edge_cap" : Text))

lemma Reachable.unstranded (h : s.Reachable rt (neverHoldsAtEnd rt)) : s.Unstranded :=
  h.preserved_of (fun _ => Reachable.countsLog) (fun _ => Unstranded.submitted)
    fun hcounts hinv hop hchange => hinv.change hcounts hop hchange

/-- A queued task stands at a stage that does work, and so does a task that is resumed. -/
structure AlwaysClaimable (s : TaskStore) : Prop where
  queued : s.task.status = .queued → s.AtWork
  resumed : ∀ others operationId rerunStage s',
    s.resumeTask others operationId rerunStage = .ok s' → s'.AtWork

lemma Unstranded.alwaysClaimable (hinv : s.Unstranded) : s.AlwaysClaimable where
  queued h := hinv.atWork (by simp [Live, h])
  resumed others operationId rerunStage s' h := by
    obtain ⟨hstatus, -, granted, -, rfl⟩ := resumeTask_eq_ok h
    have hlive : s.Live := by
      constructor <;> intro h <;> simp [h] at hstatus
    cases granted <;> exact hinv.atWork hlive

end TaskStore

/-- A settled result that follows an outcome. -/
def sampleSuccess (outcome : Text) : RunResult :=
  { RunResult.basic (some 0) "done\n" (some outcome) .success "success" with
    finalResponseSource := some .wholeStream }

/-- The review of a draft asks for a decision, which the profile leads to its end. -/
def heldAtEnd : List Operation :=
  [.claim (sampleStamp 1) none,
    .commit (sampleStamp 2) (sampleStamp 1).runToken (sampleSuccess "drafted"),
    .claim (sampleStamp 3) none,
    .commit (sampleStamp 4) (sampleStamp 3).runToken (sampleSuccess holdOutcome),
    .resume "op-resume" false]

/-- The task after that run is queued at the terminal stage. -/
lemma performAll_heldAtEnd :
    (TaskStore.performAll .standard ⟨[], []⟩ (draftTask []) heldAtEnd).map
      (fun s => (s.task.status, s.profile.stage s.task.currentStage)) =
        .ok (.queued, .ok ⟨"done", none, none, none, none, [], some .done⟩) := by
  decide +kernel

end AgentOrch
