import AgentOrch.Construction.Database
import AgentOrch.Framework.Traces

/-!
# Evidence beside the database

An operation that stops a task leaves a row in `notifications`, appends the same notification to
`notifications.jsonl` and to `inbox.md`, and rewrites `evidence.json`.  The files are written while
the transaction is open: what it reads there are its own rows, and a rollback does not take the
files back.

The model takes one step for each statement and each file, so that an exception or the end of the
process can fall between any two of them.
-/

namespace AgentOrch

open Py Json

/-! ## Notifications -/

/-- A row of `notifications`, and a line of `notifications.jsonl`. -/
structure Notification where
  transitionSeq : ℕ
  reason : Text
  message : Text

/-- `f"task {task_id} {status}: {detail}"`. -/
def stopMessage (id : Text) (status : Status) (detail : Text) : Text :=
  "task " ++ id ++ " " ++ status.text ++ ": " ++ detail

namespace TaskStore

variable (rt : Runtime) (id : Text) (s : TaskStore)

/-- The detail `claim_stage` passes to `_stop_for_cap`. -/
def capDetail (reason : Text) : Text :=
  if reason = ("transition_cap" : Text) then
    "max_transitions=" ++ decimal s.task.maxTransitions ++ " reached"
  else
    let cap := ((s.profile.stage s.task.currentStage).toOption.bind Stage.attemptCap).getD 0
    s.task.currentStage ++ ".attempt_cap=" ++ decimal cap ++ " reached"

/-- What `commit_run` notifies of a run that succeeded, given the rows it leaves. -/
def edgeNotice (run : StageRun) (outcome : Text) (s' : TaskStore) : Option Notification :=
  let edge := Profile.edgeId run.stage outcome
  if s'.task.stopReason = some ("edge_cap" : Text) then
    let cap := ((s.edgeRow edge).map EdgeCount.cap).getD 0
    some ⟨s.nextSeq, "edge_cap",
      stopMessage id .waitingUser (edge ++ " cap=" ++ decimal cap ++ " exceeded")⟩
  else if s'.task.stopReason = some holdStopReason then
    some ⟨s.nextSeq, holdStopReason, stopMessage id .waitingUser "user decision required"⟩
  else if s'.task.status = .done ∨ s'.task.status = .failed then
    some ⟨s.nextSeq, s'.task.status.text,
      stopMessage id s'.task.status ("terminal stage " ++ s'.task.currentStage)⟩
  else none

/-- The notification of an operation, if it has one. -/
def notice (op : Operation) (s' : TaskStore) : Option Notification :=
  match op with
  | .claim _ _ =>
    if s'.task.status = .running then none
    else
      let reason := s'.task.stopReason.getD []
      some ⟨s.nextSeq, reason, stopMessage id .waitingUser (s.capDetail reason)⟩
  | .commit _ token result =>
    if result.classification = .success then
      match s.findRun token, result.outcome with
      | some run, some outcome =>
        if outcome = holdOutcome ∧ (s.envelopeForTask rt).toOption.join.isSome then
          some ⟨s.nextSeq, holdStopReason,
            stopMessage id .waitingUser ("user decision required (" ++ result.reason ++ ")")⟩
        else s.edgeNotice id run outcome s'
      | _, _ => none
    else some ⟨s.nextSeq, result.reason, stopMessage id s'.task.status result.reason⟩
  | .preflightStop _ stop =>
    if s.task.status = .queued then
      some ⟨s.nextSeq, stop.reason,
        stopMessage id s'.task.status ("provider preflight " ++ stop.reason)⟩
    else none
  | .blockOrphan _ =>
    some ⟨s.nextSeq, "orphaned_running", stopMessage id .blocked "unknown runner interruption"⟩
  | .resume _ _ | .alter _ => none

end TaskStore

/-! ## The index -/

/-- A run as `evidence.json` lists it, with the number of the transition that names it. -/
structure StageEntry where
  seq : Option ℕ
  run : StageRun

/-- `evidence.json`; the operation identity of a transition is not listed. -/
structure EvidenceIndex where
  status : Status
  stopReason : Option Text
  stages : List StageEntry
  transitions : List Transition
  notifications : List Notification

/-- `transition_by_run`: the last transition that names the run. -/
def TaskStore.transitionByRun (s : TaskStore) (token : Text) : Option Transition :=
  (s.transitions.filter fun t => t.runToken = some token).getLast?

/-- `_write_evidence_index`: the runs in the order they started, the other rows as they were
numbered. -/
def evidenceIndex (s : TaskStore) (notifications : List Notification) : EvidenceIndex where
  status := s.task.status
  stopReason := s.task.stopReason
  stages := (s.stageRuns.mergeSort fun r r' => r.startedAt ≤ r'.startedAt).map fun run =>
    ⟨(s.transitionByRun run.runToken).map Transition.seq, run⟩
  transitions := s.transitions
  notifications := notifications

/-! ## Transactions and files -/

/-- How far an operation is: its rows are written, its notification is a row, a line of
`notifications.jsonl`, a line of `inbox.md`, and `evidence.json` is rewritten. -/
inductive Progress
  | rows
  | row
  | line
  | inbox
  | index
  deriving DecidableEq

/-- An open transaction: the rows it sees, and what it still has to write. -/
structure Transaction where
  store : TaskStore
  notifications : List Notification
  notice : Option Notification
  progress : Progress

/-- One task: its committed rows, the open transaction on it, and its files.  Of `inbox.md` only the
lines that name the task are kept. -/
structure Recorded where
  store : TaskStore
  notifications : List Notification
  lines : List Notification
  inbox : List Notification
  evidence : Option EvidenceIndex
  transaction : Option Transaction

/-- What one step does: a statement or a file, or the end of a transaction that is not committed. -/
inductive Writing
  | forward
  | cut (progress : Progress)
  deriving DecidableEq

namespace Recorded

/-- One step on a task, whatever keys the other tasks hold.  `cut` is an exception and its
`ROLLBACK`, or the end of the process. -/
inductive Step (rt : Runtime) (id : Text) (r : Recorded) : Writing → Recorded → Prop
  | begin_ (others : Taken) (op : Operation) (s' : TaskStore) (hidle : r.transaction = none)
      (h : r.store.perform rt others op = .ok s') :
    Step rt id r .forward
      { r with transaction := some ⟨s', r.notifications, r.store.notice rt id op s', .rows⟩ }
  | row (t : Transaction) (n : Notification) (ht : r.transaction = some t)
      (hprogress : t.progress = .rows) (hnotice : t.notice = some n)
      (hkey : n.transitionSeq ∉ t.notifications.map Notification.transitionSeq) :
    Step rt id r .forward { r with
      transaction := some { t with notifications := t.notifications ++ [n], progress := .row } }
  | line (t : Transaction) (n : Notification) (ht : r.transaction = some t)
      (hprogress : t.progress = .row) (hnotice : t.notice = some n) :
    Step rt id r .forward { r with
      lines := r.lines ++ [n], transaction := some { t with progress := .line } }
  | inbox (t : Transaction) (n : Notification) (ht : r.transaction = some t)
      (hprogress : t.progress = .line) (hnotice : t.notice = some n) :
    Step rt id r .forward { r with
      inbox := r.inbox ++ [n], transaction := some { t with progress := .inbox } }
  | index (t : Transaction) (ht : r.transaction = some t) (hprogress : t.progress = .inbox) :
    Step rt id r .forward { r with
      evidence := some (evidenceIndex t.store t.notifications)
      transaction := some { t with progress := .index } }
  | commit (t : Transaction) (ht : r.transaction = some t)
      (hdone : t.progress = if t.notice.isSome then .index else .rows) :
    Step rt id r .forward { r with
      store := t.store, notifications := t.notifications, transaction := none }
  | cut (t : Transaction) (ht : r.transaction = some t) :
    Step rt id r (.cut t.progress) { r with transaction := none }

/-- A task that was just submitted. -/
def Fresh (r : Recorded) : Prop :=
  ∃ s : TaskStore, s.Submitted ∧ r = ⟨s, [], [], [], none, none⟩

/-- The executions on one task, with what happened so far. -/
abbrev Runs (rt : Runtime) (id : Text) : Recorded → List Writing → Prop :=
  Trace Fresh (Step rt id)

end Recorded

end AgentOrch
