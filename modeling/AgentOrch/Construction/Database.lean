import AgentOrch.Construction.RunLoop
import AgentOrch.Framework.Reachability

/-!
# Runs of the database

Every state the database can be in comes from submissions and the transactions of the
controller, in any order: a crash only cuts a sequence of transactions short, and a restart
adds the blocking of orphans.  `Operation` names the transactions, `Db.Step` applies one of them to
one task.

An operation may be restricted by a condition on itself and the rows it meets; `anything` is no
restriction.
-/

namespace AgentOrch

open Py Json

/-- The transactions on the rows of an existing task.  `alter` is no transaction: it stands for a
sealed artifact of a run that is over, which stops verifying. -/
inductive Operation
  | claim (stamp : Stamp) (model : Option Text)
  | commit (stamp : Stamp) (token : Text) (result : RunResult)
  | resume (operationId : Text) (rerunStage : Bool)
  | preflightStop (stamp : Stamp) (stop : TaskStore.PreflightStop)
  | blockOrphan (stamp : Stamp)
  | alter (token : Text)

/-- One transaction; the preflight is only run for a working stage, and only a task read as
running is blocked as orphaned. -/
def TaskStore.perform (rt : Runtime) (others : Taken) (s : TaskStore) :
    Operation → Except Exc TaskStore
  | .claim stamp model => (s.claimStage rt others stamp model).map Claim.store
  | .commit stamp token result => s.commitRun rt others stamp token result
  | .resume operationId rerunStage => s.resumeTask others operationId rerunStage
  | .preflightStop stamp stop => do
    let stage ← s.profile.stage s.task.currentStage
    require stage.terminal.isNone (.controllerError "no preflight for a terminal stage")
    s.recordPreflightStop others stamp stage stop
  | .blockOrphan stamp => do
    require (s.task.status = .running) (.controllerError "task is not running")
    s.blockOrphanedRunning others stamp
  | .alter token => do
    require (s.stageRuns.any fun r => r.runToken = token && !(r.status = .running))
      (.controllerError "no sealed run")
    return { s with damaged := token :: s.damaged }

/-- Several transactions in a row, up to the first that raises. -/
def TaskStore.performAll (rt : Runtime) (others : Taken) :
    TaskStore → List Operation → Except Exc TaskStore
  | s, [] => .ok s
  | s, op :: ops => do
    let s' ← s.perform rt others op
    s'.performAll rt others ops

/-- A condition on an operation and the rows it meets. -/
abbrev Condition := Operation → TaskStore → Prop

def anything : Condition := fun _ _ => True

/-- One task takes a step, whatever keys the other tasks hold. -/
def TaskStore.Step (rt : Runtime) (condition : Condition) (s s' : TaskStore) : Prop :=
  ∃ others op, condition op s ∧ s.perform rt others op = .ok s'

def TaskStore.Submitted (s : TaskStore) : Prop := ∃ others sub, submitTask others sub = .ok s

/-- The rows one task can have. -/
abbrev TaskStore.Reachable (rt : Runtime) (condition : Condition) : TaskStore → Prop :=
  AgentOrch.Reachable TaskStore.Submitted (TaskStore.Step rt condition)

namespace Db

/-- The database takes a step: a new task, or a transaction on one task. -/
inductive Step (rt : Runtime) (condition : Condition) (db : Db) : Db → Prop
  | submit (id : Text) (sub : Submission) (s : TaskStore) (hnew : dictGet id db = none)
    (h : submitTask (db.takenBeside id) sub = .ok s) : Step rt condition db (dictSet id s db)
  | task (id : Text) (op : Operation) (s s' : TaskStore) (hs : dictGet id db = some s)
    (hop : condition op s) (h : s.perform rt (db.takenBeside id) op = .ok s') :
    Step rt condition db (dictSet id s' db)

/-- Every state of a database that starts out empty. -/
abbrev Reachable (rt : Runtime) (condition : Condition) : Db → Prop :=
  AgentOrch.Reachable (· = []) (Step rt condition)

/-- The rows of a task of a reachable database are reachable rows. -/
theorem Reachable.task {rt : Runtime} {condition : Condition} {db : Db}
    (h : Db.Reachable rt condition db) :
    ∀ {id : Text} {s : TaskStore}, dictGet id db = some s → s.Reachable rt condition := by
  induction h with
  | init h =>
      intro id s hs
      rw [h] at hs
      cases hs
  | step _ hstep ih =>
      intro id s hs
      cases hstep with
      | submit id' sub s' hnew hsub =>
          rw [dictGet_dictSet] at hs
          split_ifs at hs with hid
          · cases hs
            exact .init ⟨_, sub, hsub⟩
          · exact ih hs
      | task id' op s' s'' hs' hop hperform =>
          rw [dictGet_dictSet] at hs
          split_ifs at hs with hid
          · cases hs
            exact .step (ih hs') ⟨_, op, hop, hperform⟩
          · exact ih hs

/-! ## A database of one task -/

lemma takenBeside_single (id : Text) (s : TaskStore) : takenBeside [(id, s)] id = ⟨[], []⟩ := by
  simp [takenBeside]

/-- A submission alone in the database. -/
theorem reachable_submitted {rt : Runtime} {condition : Condition} (id : Text) {sub : Submission}
    {s : TaskStore} (hsub : submitTask ⟨[], []⟩ sub = .ok s) :
    Db.Reachable rt condition [(id, s)] :=
  .step (.init rfl) (.submit id sub s rfl hsub)

/-- A transaction on the only task. -/
theorem Reachable.single_step {rt : Runtime} {condition : Condition} {id : Text} {s s' : TaskStore}
    {op : Operation} (h : Db.Reachable rt condition [(id, s)]) (hop : condition op s)
    (hperform : s.perform rt ⟨[], []⟩ op = .ok s') : Db.Reachable rt condition [(id, s')] := by
  have hstep : Step rt condition [(id, s)] (dictSet id s' [(id, s)]) :=
    .task id op s s' (by simp [dictGet]) hop (by rwa [takenBeside_single])
  simpa [dictSet] using h.step hstep

/-- A submission, and transactions on the new task, alone in the database. -/
theorem reachable_single {rt : Runtime} (id : Text) (ops : List Operation) {sub : Submission}
    {s s' : TaskStore} (hsub : submitTask ⟨[], []⟩ sub = .ok s)
    (hops : s.performAll rt ⟨[], []⟩ ops = .ok s') : Db.Reachable rt anything [(id, s')] := by
  have hinit : Db.Reachable rt anything [(id, s)] := reachable_submitted id hsub
  clear hsub
  induction ops generalizing s with
  | nil =>
      cases hops
      exact hinit
  | cons op ops ih =>
      obtain ⟨s'', hperform, hops⟩ := bind_eq_ok.mp hops
      exact ih hops (hinit.single_step trivial hperform)

end Db

/-! ## Samples -/

/-- The stamp of the `n`th transaction of a sample run. -/
def sampleStamp (n : ℕ) : Stamp where
  operationId := "op-" ++ decimal n
  runToken := "run-" ++ decimal n
  leaseToken := "lease-" ++ decimal n
  now := n

/-- A submission of the draft-and-review profile. -/
def draftSubmission (input : Bytes) : Submission := ⟨"propose", draftReview, input, "op-submit"⟩

/-- The rows of that submission. -/
def draftTask (input : Bytes) : TaskStore :=
  { newTask (draftSubmission input) with
    transitions := [⟨1, "op-submit", none, none, none, none, none, none, .queued, "submitted"⟩] }

lemma submitTask_draft (input : Bytes) :
    submitTask ⟨[], []⟩ (draftSubmission input) = .ok (draftTask input) := by
  have hmax : fitsInt64 (draftReviewProfile.maxTransitions : ℤ) = true := by decide
  have hcaps : (draftReviewProfile.edgeCaps.all fun e => fitsInt64 e.2) = true := by decide
  have htext : Encodable ("submitted" : Text) := by decide
  simp only [submitTask, TaskStore.insertTransition, bind_eq_ok, bindInt, bindText, require_eq_ok,
    Option.all_some, draftSubmission, draftReview]
  exact ⟨(), rfl, (), hmax, (), hcaps, (), rfl, (), decide_eq_true htext, rfl⟩

/-- The same profile with an envelope in its input. -/
def envelopeTask : TaskStore := draftTask (encodeReplace plainInput)

lemma envelopeForTask_envelopeTask :
    ∃ e, envelopeTask.envelopeForTask .standard = .ok (some e) := by
  have hread : decodeStrict envelopeTask.input = some plainInput :=
    decodeStrict_encode encodable_plainInput
  obtain ⟨e, he⟩ := extractEnvelope_plainInput
  refine ⟨e, ?_⟩
  rw [TaskStore.envelopeForTask, hread]
  exact he

end AgentOrch
