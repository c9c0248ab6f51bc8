import AgentOrch.Properties.Changes

/-!
# Attempt numbers

`_next_attempt` numbers the next run of a stage after the last run of the stage, and takes the run
with the latest `started_at` for it.  The times come from a clock that may stand still or go back,
and ties are broken by a random token, so the run it finds is the last one only if every run
started after the runs before it.

`startedLast` asks just that of the runs that are inserted.
-/

namespace AgentOrch

open Py Json

namespace TaskStore

variable {rt : Runtime} {others : Taken} {s s' : TaskStore}

/-! ## The numbering -/

/-- Another constraint than the one on attempt numbers rejects a run. -/
def RejectedElse (others : Taken) (s : TaskStore) (run : StageRun) : Prop :=
  run.owner = none ∨ run.runToken ∈ others.runTokens ∨ run.runToken ∈ s.runTokens ∨
    run.status = .running ∧ ∃ r ∈ s.stageRuns, r.status = .running

/-- What is said of the attempt numbers: the next one of a stage is new, so that no claim and no
preflight stop is rejected for it, and it counts on from the run of the stage that was inserted
last. -/
structure Numbered (s : TaskStore) : Prop where
  fresh : ∀ stage, ∀ r ∈ s.stageRuns, r.stage = stage → (r.cycle, r.attempt) ≠ s.nextAttempt stage
  accepted : ∀ others stamp stage model stop,
    ∀ run ∈ [s.claimedRun stamp stage model, s.preflightRun stamp stage stop],
      ¬ RejectedElse others s run → ∃ s', s.insertRun others run = .ok s'
  counts : ∀ stage r, (s.stageRuns.filter fun r => r.stage = stage).getLast? = some r →
    s.nextAttempt stage =
      if r.status = .paused then (r.cycle, r.attempt + 1) else (r.cycle + 1, 1)

/-- A run of the current stage that starts at this time would be the last of the stage. -/
def StartsLast (s : TaskStore) (now : ℤ) (token : Text) : Prop :=
  ∀ r ∈ s.stageRuns, r.stage = s.task.currentStage →
    r.startedAt < now ∨ r.startedAt = now ∧ textLe r.runToken token = true

/-- A claim and a preflight stop start after the earlier runs of the stage; of two runs that start
in the same millisecond, the later one has the greater token. -/
def startedLast : Condition
  | .claim stamp _, s => s.StartsLast stamp.now stamp.runToken
  | .preflightStop stamp stop, s => s.StartsLast stop.startedAtMs stamp.runToken
  | _, _ => True

/-! ## Runs in order -/

/-- A pair of a cycle and an attempt that comes before another. -/
def Below (a b : ℕ × ℕ) : Prop := a.1 < b.1 ∨ a.1 = b.1 ∧ a.2 < b.2

lemma Below.ne {a b : ℕ × ℕ} (h : Below a b) : a ≠ b := by
  rintro rfl
  rcases h with h | ⟨-, h⟩ <;> exact lt_irrefl _ h

lemma Below.trans {a b c : ℕ × ℕ} (hab : Below a b) (hbc : Below b c) : Below a c := by
  unfold Below at *
  omega

/-- Of two runs of one stage the second is the later one, and has the higher number. -/
def InTurn (r r' : StageRun) : Prop :=
  r.stage = r'.stage → laterRun r r' = true ∧ Below (r.cycle, r.attempt) (r'.cycle, r'.attempt)

/-- Every run follows the runs inserted before it. -/
def Ordered (s : TaskStore) : Prop := s.stageRuns.Pairwise InTurn

/-- A fold that takes a later run over ends with the last of runs in order. -/
lemma foldl_laterRun {take : Option StageRun → StageRun → Option StageRun}
    (hnone : ∀ r, take none r = some r)
    (hsome : ∀ b r, laterRun b r = true → take (some b) r = some r) {runs : List StageRun} :
    ∀ {best : Option StageRun}, (∀ b, best = some b → ∀ r ∈ runs, laterRun b r = true) →
      (runs.Pairwise fun r r' => laterRun r r' = true) →
      runs.foldl take best = runs.getLast?.or best := by
  induction runs with
  | nil => intro best _ _; rfl
  | cons r runs ih =>
      intro best hbest hpair
      obtain ⟨hr, hpair⟩ := List.pairwise_cons.mp hpair
      have hnext : ∀ b, some r = some b → ∀ r' ∈ runs, laterRun b r' = true := by
        rintro b heq r' hr'
        cases heq
        exact hr r' hr'
      have hlast : (r :: runs).getLast?.or best = runs.getLast?.or (some r) := by
        rw [List.getLast?_cons]
        cases runs.getLast? <;> rfl
      have htake : take best r = some r := by
        cases best with
        | none => exact hnone r
        | some b => exact hsome b r (hbest b rfl r List.mem_cons_self)
      rw [List.foldl_cons, hlast, htake]
      exact ih hnext hpair

/-- In order, the last run of a stage is the one inserted last. -/
lemma Ordered.lastRun (h : s.Ordered) (stage : Text) :
    s.lastRun stage = (s.stageRuns.filter fun r => r.stage = stage).getLast? := by
  have hpair : (s.stageRuns.filter fun r => r.stage = stage).Pairwise
      fun r r' => laterRun r r' = true := by
    refine (List.Pairwise.filter _ h).imp_of_mem ?_
    intro r r' hr hr' hturn
    have hstage := of_decide_eq_true (List.mem_filter.mp hr).2
    have hstage' := of_decide_eq_true (List.mem_filter.mp hr').2
    exact (hturn (hstage.trans hstage'.symm)).1
  rw [TaskStore.lastRun, foldl_laterRun (fun _ => rfl) (fun _ _ hlater => if_pos hlater) (by simp)
    hpair, Option.or_none]

/-- The next number counts on from the last run. -/
lemma Ordered.nextAttempt (h : s.Ordered) {stage : Text} {r : StageRun}
    (hlast : (s.stageRuns.filter fun r => r.stage = stage).getLast? = some r) :
    s.nextAttempt stage =
      if r.status = .paused then (r.cycle, r.attempt + 1) else (r.cycle + 1, 1) := by
  rw [TaskStore.nextAttempt, h.lastRun, hlast]

/-- The next number comes after every number of the stage. -/
lemma Ordered.below_nextAttempt (h : s.Ordered) {stage : Text} {r : StageRun}
    (hr : r ∈ s.stageRuns) (hstage : r.stage = stage) :
    Below (r.cycle, r.attempt) (s.nextAttempt stage) := by
  have hmem : r ∈ s.stageRuns.filter fun r' => r'.stage = stage :=
    List.mem_filter.mpr ⟨hr, decide_eq_true hstage⟩
  cases hlast : (s.stageRuns.filter fun r' => r'.stage = stage).getLast? with
  | none =>
      rw [List.getLast?_eq_none_iff.mp hlast] at hmem
      cases hmem
  | some last =>
      have hcount : Below (last.cycle, last.attempt) (s.nextAttempt stage) := by
        rw [h.nextAttempt hlast]
        split_ifs
        · exact .inr ⟨rfl, Nat.lt_succ_self _⟩
        · exact .inl (Nat.lt_succ_self _)
      obtain ⟨front, heq⟩ := List.getLast?_eq_some_iff.mp hlast
      have hpair := List.Pairwise.filter (fun r' => decide (r'.stage = stage)) h
      rw [heq] at hpair hmem
      rcases List.mem_append.mp hmem with hfront | hend
      · have hturn := (List.pairwise_append.mp hpair).2.2 r hfront last List.mem_cons_self
        have hlaststage : last.stage = stage :=
          of_decide_eq_true (List.mem_filter.mp (List.mem_of_getLast? hlast)).2
        exact (hturn (hstage.trans hlaststage.symm)).2.trans hcount
      · rw [List.mem_singleton.mp hend]
        exact hcount

/-- In order, the numbering is as it is said. -/
lemma Ordered.numbered (h : s.Ordered) : s.Numbered := by
  have hfresh : ∀ stage, ∀ r ∈ s.stageRuns, r.stage = stage →
      (r.cycle, r.attempt) ≠ s.nextAttempt stage :=
    fun stage r hr hstage => (h.below_nextAttempt hr hstage).ne
  refine ⟨hfresh, ?_, fun stage r hlast => h.nextAttempt hlast⟩
  intro others stamp stage model stop run hrun helse
  have hnumber : (run.cycle, run.attempt) = s.nextAttempt run.stage := by
    rcases List.mem_pair.mp hrun with rfl | rfl <;> rfl
  refine ⟨_, insertRun_eq_ok.mpr ⟨⟨?_, ?_, ?_, ?_, ?_⟩, rfl⟩⟩
  · rw [Option.isSome_iff_ne_none]
    exact fun howner => helse (.inl howner)
  · exact fun htoken => helse (.inr (.inl htoken))
  · exact fun htoken => helse (.inr (.inr (.inl htoken)))
  · rintro r hr ⟨hstage, hcycle, hattempt⟩
    exact hfresh run.stage r hr hstage (by rw [hcycle, hattempt, hnumber])
  · intro hrunning r hr hactive
    exact helse (.inr (.inr (.inr ⟨hrunning, r, hr, hactive⟩)))

/-! ## What keeps the order -/

/-- Another row for the same run: started at the same time, with the same number. -/
structure SameRun (r r' : StageRun) : Prop where
  token : r'.runToken = r.runToken
  stage : r'.stage = r.stage
  cycle : r'.cycle = r.cycle
  attempt : r'.attempt = r.attempt
  startedAt : r'.startedAt = r.startedAt

lemma SameRun.inTurn {a a' b b' : StageRun} (ha : SameRun a a') (hb : SameRun b b')
    (h : InTurn a b) : InTurn a' b' := by
  unfold InTurn laterRun at *
  rw [ha.token, ha.stage, ha.cycle, ha.attempt, ha.startedAt, hb.token, hb.stage, hb.cycle,
    hb.attempt, hb.startedAt]
  exact h

lemma Ordered.updateRun (h : s.Ordered) {token : Text} {f : StageRun → StageRun}
    (hf : ∀ r, SameRun r (f r)) : (s.updateRun token f).Ordered := by
  have hsame : ∀ r : StageRun, SameRun r (if r.runToken = token then f r else r) := by
    intro r
    split_ifs
    · exact hf r
    · exact ⟨rfl, rfl, rfl, rfl, rfl⟩
  unfold Ordered
  rw [updateRun_stageRuns, List.pairwise_map]
  exact h.imp fun hturn => (hsame _).inTurn (hsame _) hturn

/-- A run that starts last and takes the next number keeps the order. -/
lemma Ordered.append (h : s.Ordered) {run : StageRun} (hstage : run.stage = s.task.currentStage)
    (hnumber : (run.cycle, run.attempt) = s.nextAttempt run.stage)
    (hlast : s.StartsLast run.startedAt run.runToken) :
    (s.stageRuns ++ [run]).Pairwise InTurn := by
  refine List.pairwise_append.mpr ⟨h, List.pairwise_singleton _ _, ?_⟩
  intro r hr r' hr' hsame
  obtain rfl := List.mem_singleton.mp hr'
  refine ⟨?_, ?_⟩
  · rcases hlast r hr (hsame.trans hstage) with hlt | ⟨heq, htoken⟩
    · simp [laterRun, hlt]
    · simp [laterRun, heq, htoken]
  · rw [hnumber]
    exact h.below_nextAttempt hr hsame

lemma sameRun_settledRun {result : RunResult} {manifest : Manifest} {status : RunStatus}
    {outcome : Option Text} {now : ℤ} (r : StageRun) :
    SameRun r (settledRun result manifest status outcome now r) :=
  ⟨rfl, rfl, rfl, rfl, rfl⟩

lemma sameRun_closedRun {now : ℤ} (r : StageRun) : SameRun r (closedRun now r) :=
  ⟨rfl, rfl, rfl, rfl, rfl⟩

/-- Only claims and preflight stops insert runs, and these start last. -/
lemma Ordered.step {op : Operation} (h : s.Ordered) (hop : startedLast op s)
    (hchange : Change rt others s op s') : s'.Ordered := by
  cases hchange with
  | claim stamp model stage envelope hclaim =>
      exact h.append (stage_name hclaim.current) rfl hop
  | preflight stamp stop stage hqueued hstage =>
      exact h.append (stage_name hstage) rfl hop
  | park stamp token result run stage runStatus status outcome reason =>
      exact h.updateRun sameRun_settledRun
  | follow stamp token result run stage envelope outcome target row edgeCapHit =>
      cases edgeCapHit
      · exact Ordered.updateRun (s := s.bumpEdge _) h sameRun_settledRun
      · exact h.updateRun sameRun_settledRun
  | resume operationId rerunStage granted => cases granted <;> exact h
  | orphan stamp =>
      unfold orphaned
      cases s.stageRuns.find? fun r => r.status = .running with
      | none => exact h
      | some run => exact h.updateRun sameRun_closedRun
  | _ => exact h

lemma Submitted.ordered (h : s.Submitted) : s.Ordered := by
  obtain ⟨others, sub, hsub⟩ := h
  obtain ⟨-, rfl⟩ := submitTask_eq_ok hsub
  exact List.Pairwise.nil

end TaskStore

/-! ## Every run -/

/-- A usage limit met by a preflight that started at this time. -/
def limitStop (startedAtMs : ℤ) : TaskStore.PreflightStop :=
  ⟨true, "provider_quota", "", none, none, startedAtMs, startedAtMs⟩

/-- Two preflight stops with a resume after each, the second before the first on the clock. -/
def setBackOperations : List Operation :=
  [.preflightStop (sampleStamp 1) (limitStop 2000), .resume "op-resume-1" false,
    .preflightStop (sampleStamp 2) (limitStop 1000), .resume "op-resume-2" false]

/-- The rows these leave, and what the claim after them is answered. -/
lemma performAll_setBack :
    (TaskStore.performAll .standard ⟨[], []⟩ (draftTask []) setBackOperations).map
      (fun s => (s.stageRuns.map fun r => (r.stage, r.cycle, r.attempt), s.nextAttempt "draft")) =
      .ok ([("draft", 1, 1), ("draft", 1, 2)], (1, 2)) := by
  decide +kernel

end AgentOrch
