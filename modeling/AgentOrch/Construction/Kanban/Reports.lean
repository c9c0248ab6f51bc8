import AgentOrch.Construction.Kanban.Rows

/-!
# Progress reports and worker observations

A `report-progress` event carries a report of an agent or a user and, beside it, what is known of the
worker the report is about.  Both are read back from the stored JSON with every check the command
made, and a report that does not pass is unknown: no older one takes its place.
-/

namespace AgentOrch

open Py Json

namespace Kanban

/-! ## Worker observations -/

/-- `WORKER_TERMINAL_STATES` -/
inductive Ending
  | completed
  | failed
  | stopped
  deriving DecidableEq

/-- Who takes over from a worker that has ended. -/
structure Handoff where
  acknowledged : Bool
  owner : Option Text
  nextStep : Option Text
  resultSourceRef : Option Text
  deriving DecidableEq

/-- The state of a worker; only one that has ended has a handoff. -/
inductive WorkerState
  | submitted
  | running
  | unknown
  | ended (ending : Ending) (handoff : Handoff)
  deriving DecidableEq

structure Observation where
  attemptId : Text
  supersedesAttemptId : Option Text
  previousObservationOperationId : Option Text
  provider : Text
  threadId : Text
  turnId : Option Text
  coordinator : Text
  observedAtMs : ℤ
  state : WorkerState
  sourceRef : Text
  deriving DecidableEq

/-- `state in WORKER_TERMINAL_STATES` -/
def WorkerState.isEnded : WorkerState → Bool
  | .ended .. => true
  | _ => false

/-- The text of a string that passes. -/
def textThat (p : Text → Bool) : Value → Option Text
  | .str t => if p t then some t else none
  | _ => none

/-- `None`, or the text of a string that passes. -/
def nullableThat (p : Text → Bool) : Value → Option (Option Text)
  | .null => some none
  | v => (textThat p v).map some

/-- An integer in a range, and no boolean. -/
def integerIn (minimum maximum : ℤ) : Value → Option ℤ
  | .int n => if minimum ≤ n ∧ n ≤ maximum then some n else none
  | _ => none

def observationKeys : List Text :=
  ["schema_version", "attempt_id", "supersedes_attempt_id", "previous_observation_operation_id",
    "provider", "thread_id", "turn_id", "coordinator", "observed_at_ms", "state", "source_ref",
    "handoff"]

def handoffKeys : List Text := ["state", "owner", "next_step", "result_source_ref"]

/-- What `state` says, before the handoff is looked at. -/
def stateNamed : Value → Option (WorkerState ⊕ Ending)
  | .str t =>
    if t = ("submitted" : Text) then some (.inl .submitted)
    else if t = ("running" : Text) then some (.inl .running)
    else if t = ("unknown" : Text) then some (.inl .unknown)
    else if t = ("completed" : Text) then some (.inr .completed)
    else if t = ("failed" : Text) then some (.inr .failed)
    else if t = ("stopped" : Text) then some (.inr .stopped)
    else none
  | _ => none

/-- Whether a handoff in that state is acknowledged. -/
def acknowledgement : Value → Option Bool
  | .str t =>
    if t = ("pending" : Text) then some false
    else if t = ("acknowledged" : Text) then some true
    else none
  | _ => none

/-- The handoff of a worker that has ended; an acknowledged one says everything. -/
def readHandoff (refs : List Text) (value : Value) : Option Handoff :=
  match value with
  | .obj h => do
    guard (keysAre h handoffKeys)
    let acknowledged ← acknowledgement (getValue "state" h)
    let owner ← nullableThat (plainText 500) (getValue "owner" h)
    let nextStep ← nullableThat (plainText 4000) (getValue "next_step" h)
    let resultSourceRef ← nullableThat (plainText 1000) (getValue "result_source_ref" h)
    guard (resultSourceRef.all fun ref => decide (ref ∈ refs))
    guard (!acknowledged || (owner.isSome && nextStep.isSome && resultSourceRef.isSome))
    return ⟨acknowledged, owner, nextStep, resultSourceRef⟩
  | _ => none

/-- `validate_worker_observation`, with the observation the document stands for. -/
def validateWorkerObservation (observation : Value) (refs : List Text) :
    Except Exc Observation :=
  let invalid : Exc := .valueError "invalid_worker_observation"
  match observation with
  | .obj o =>
    if !keysAre o observationKeys then .error invalid
    else
      let fields : Option (Observation × (WorkerState ⊕ Ending)) := do
        let _ ← integerIn 1 1 (getValue "schema_version" o)
        let attemptId ← textThat Trajectory.isUuid (getValue "attempt_id" o)
        let supersedes ← nullableThat Trajectory.isUuid (getValue "supersedes_attempt_id" o)
        let previous ←
          nullableThat Trajectory.isUuid (getValue "previous_observation_operation_id" o)
        let provider ← textThat (plainText 100) (getValue "provider" o)
        let threadId ← textThat (plainText 500) (getValue "thread_id" o)
        let turnId ← nullableThat (plainText 500) (getValue "turn_id" o)
        let coordinator ← textThat (plainText 500) (getValue "coordinator" o)
        let observedAtMs ← integerIn 0 maxRevision (getValue "observed_at_ms" o)
        let named ← stateNamed (getValue "state" o)
        let sourceRef ← textThat (plainText 1000) (getValue "source_ref" o)
        guard (sourceRef ∈ refs)
        return (⟨attemptId, supersedes, previous, provider, threadId, turnId, coordinator,
          observedAtMs, .unknown, sourceRef⟩, named)
      match fields with
      | none => .error invalid
      | some (o', .inl state) =>
        match getValue "handoff" o with
        | .null => .ok { o' with state := state }
        | _ => .error (.valueError "unexpected_worker_handoff")
      | some (o', .inr ending) =>
        match readHandoff refs (getValue "handoff" o) with
        | some handoff => .ok { o' with state := .ended ending handoff }
        | none => .error (.valueError "invalid_worker_handoff")
  | _ => .error invalid

/-! ## Reading a report back -/

/-- `worker_binding` -/
structure WorkerBinding where
  approvalGeneration : ℤ
  scopeDigest : Text
  startedRevision : ℤ
  deriving DecidableEq

/-- A progress report as it is read back.  `scopeDigest` is what `progress_binding` holds under
`scope_digest`, of any type. -/
structure Report where
  operationId : Text
  actor : Text
  recordedAt : ℤ
  resultRevision : ℤ
  reportStatus : Text
  summary : Text
  blocker : Option Text
  decision : Option Text
  nextStep : Option Text
  sourceRefs : List Text
  approvalGeneration : ℤ
  scopeDigest : Value
  worker : Option (Observation × WorkerBinding)

def reportKeys : List Text :=
  ["card_id", "expected_revision", "actor", "report_status", "summary", "blocker", "decision",
    "next_step", "source_refs", "progress_binding", "worker_observation", "worker_binding"]

/-- The texts of a list of at most twenty sources. -/
def readSources : Value → Option (List Text)
  | .arr items =>
    if 20 < items.length then none
    else items.mapM (textThat fun ref => !isBlank ref && decide (ref.length ≤ 1000))
  | _ => none

/-- `if not condition: raise ValueError(message)`. -/
def demand {α : Type} (read : Option α) (message : Text) : Except Exc α :=
  read.elim (.error (.valueError message)) .ok

/-- `worker_binding` of a stored report. -/
def readWorkerBinding (resultRevision : ℤ) (value : Value) : Option WorkerBinding :=
  match value with
  | .obj b => do
    guard (keysAre b ["schema_version", "approval_generation", "scope_digest", "started_revision"])
    let _ ← integerIn 1 1 (getValue "schema_version" b)
    let generation ← integerIn 0 maxRevision (getValue "approval_generation" b)
    let started ← integerIn 1 maxRevision (getValue "started_revision" b)
    guard (started ≤ resultRevision)
    let digest ← textThat isHexDigest (getValue "scope_digest" b)
    return ⟨generation, digest, started⟩
  | _ => none

/-- The observation of a stored report, with its binding. -/
def readWorker (event : Event) (resultRevision : ℤ) (refs : List Text)
    (payload : List (Text × Value)) : Except Exc (Option (Observation × WorkerBinding)) :=
  if ("worker_observation" : Text) ∈ dictKeys payload then do
    require (Trajectory.isUuid event.operationId) (.valueError "invalid worker operation")
    let observation ← validateWorkerObservation (getValue "worker_observation" payload) refs
    let binding ← demand (readWorkerBinding resultRevision (getValue "worker_binding" payload))
      "invalid worker binding"
    return some (observation, binding)
  else if ("worker_binding" : Text) ∈ dictKeys payload then
    .error (.valueError "orphan worker binding")
  else .ok none

/-- `_progress_event` -/
def progressEvent (rt : Runtime) (card : Card) (event : Event) : Except Exc Report := do
  let resultRevision ← demand
    (if validRevision card.revision && validRevision card.approvalGeneration &&
        decide (event.kind = ("report-progress" : Text)) && decide (event.result = .accepted) then
      event.resultRevision.within 1 (min card.revision maxRevision) else none)
    "invalid progress revision"
  let stored ← event.payload.loads rt
  let payload ← demand (match stored with
    | .obj items => if (dictKeys items).all fun k => decide (k ∈ reportKeys) then some items else none
    | _ => none) "invalid progress payload"
  let text? (key : Text) : Option (Option Text) :=
    nullableThat (fun t => decide (t.length ≤ 4000)) (getValue key payload)
  let (actor, recordedAt, reportStatus) ← demand (do
    guard ((Value.str card.cardId).eqv (getValue "card_id" payload))
    let expected ← integerIn 0 maxRevision (getValue "expected_revision" payload)
    guard (expected = resultRevision - 1)
    let actor ← textThat (fun t => !isBlank t && decide (t.length ≤ 500)) (getValue "actor" payload)
    guard (event.actor = .text actor)
    let recordedAt ← event.time.within 0 maxRevision
    let reportStatus ← textThat (fun t => decide (t ∈ progressStatuses))
      (getValue "report_status" payload)
    let _ ← textThat (fun t => !isBlank t) (getValue "summary" payload)
    return (actor, recordedAt, reportStatus)) "invalid progress fields"
  let (summary, blocker, decision, nextStep) ← demand (do
    let summary ← textThat (fun t => decide (t.length ≤ 4000)) (getValue "summary" payload)
    return (summary, ← text? "blocker", ← text? "decision", ← text? "next_step"))
    "invalid progress text"
  let refs ← demand (readSources (getValue "source_refs" payload)) "invalid progress sources"
  let texts := [some summary, blocker, decision, nextStep, some actor].reduceOption ++ refs
  require (!texts.any reservedMarkerIn) (.valueError "unsupported progress framing")
  let (generation, digest) ← demand (match getValue "progress_binding" payload with
    | .obj binding => do
      let _ ← integerIn 1 1 (getValue "schema_version" binding)
      let generation ← integerIn 0 maxRevision (getValue "approval_generation" binding)
      return (generation, getValue "scope_digest" binding)
    | _ => none) "invalid progress binding"
  let worker ← readWorker event resultRevision refs payload
  return ⟨event.operationId, actor, recordedAt, resultRevision, reportStatus, summary, blocker,
    decision, nextStep, refs, generation, digest, worker⟩

/-! ## Current scope -/

/-- What the scope edits of a history say to a report that started at a revision: whether none of
them came later. -/
def noLaterScopeEdit (rt : Runtime) (card : Card) (started : ℤ) : List Event → Except Exc Bool
  | [] => .ok true
  | event :: rest =>
    if event.kind ≠ ("edit" : Text) ∨ event.result ≠ .accepted then
      noLaterScopeEdit rt card started rest
    else do
      let revision ← demand (event.resultRevision.within 1 card.revision) "invalid scope barrier"
      if started < revision then do
        let delta ← event.metadataDelta.loads rt
        let items ← demand (match delta with
          | .obj items => some items
          | _ => none) "unknown scope edit"
        if (getValue "scope_fields_changed" items).truthy then return false
        else noLaterScopeEdit rt card started rest
      else noLaterScopeEdit rt card started rest

/-- `worker_scope_current` -/
def scopeCurrent (pf : Platform) (card : Card) (generation : ℤ) (digest : Value) (started : ℤ)
    (events : List Event) : Except Exc Bool :=
  if generation ≠ card.approvalGeneration then .ok false
  else do
    let now ← progressScopeDigest pf card
    if !digest.eqv (.str now) then return false
    else noLaterScopeEdit pf.toRuntime card started events

/-! ## The newest of a history -/

/-- Pairs of a revision and an operation are compared as Python compares them, the revision first. -/
instance revisionOrder : LinearOrder (ℤ ×ₗ Text) :=
  @Prod.Lex.instLinearOrder ℤ Text Int.instLinearOrder inferInstance

instance revisionPreorder : Preorder (ℤ ×ₗ Text) := revisionOrder.toPreorder

/-- `max(events, key=lambda e: (e["result_revision"], e["operation_id"]))` -/
def newest (events : List (ℤ × Event)) : Option (ℤ × Event) :=
  events.argmax fun e => toLex (e.1, e.2.operationId)

/-- The events with their revisions, if every one has a revision of the card. -/
def withRevisions (card : Card) (events : List Event) : Option (List (ℤ × Event)) :=
  events.mapM fun e => (e.resultRevision.within 1 card.revision).map fun n => (n, e)

section
variable {α : Type}

/-- `[e for e in events if test(e)]`, for a test that may raise. -/
def keepIf (test : α → Except Exc Bool) : List α → Except Exc (List α)
  | [] => .ok []
  | a :: rest => do
    let kept ← test a
    let others ← keepIf test rest
    return if kept then a :: others else others

lemma keepIf_eq_filter {test : α → Except Exc Bool} {p : α → Bool} {items : List α}
    (h : ∀ a ∈ items, test a = .ok (p a)) : keepIf test items = .ok (items.filter p) := by
  induction items with
  | nil => rfl
  | cons a rest ih =>
      have hrest := ih fun b hb => h b (List.mem_cons_of_mem a hb)
      simp only [keepIf, h a List.mem_cons_self, hrest, bind, Except.bind, pure, Except.pure]
      cases hp : p a <;> simp [hp]

/-- What is kept passed the test. -/
lemma mem_of_keepIf {test : α → Except Exc Bool} {items kept : List α}
    (h : keepIf test items = .ok kept) {a : α} (ha : a ∈ kept) : a ∈ items ∧ test a = .ok true := by
  induction items generalizing kept with
  | nil =>
      simp only [keepIf, Except.ok.injEq] at h
      subst h
      exact absurd ha List.not_mem_nil
  | cons b rest ih =>
      simp only [keepIf, bind_eq_ok] at h
      obtain ⟨passed, hpassed, others, hothers, hkept⟩ := h
      simp only [pure, Except.pure, Except.ok.injEq] at hkept
      cases passed with
      | false =>
          subst hkept
          exact (ih hothers ha).imp_left (List.mem_cons_of_mem b)
      | true =>
          subst hkept
          rcases List.mem_cons.mp ha with rfl | ha
          · exact ⟨List.mem_cons_self, hpassed⟩
          · exact (ih hothers ha).imp_left (List.mem_cons_of_mem b)

end

/-- `except (ValueError, TypeError, KeyError, AttributeError)` -/
def isUnreadable : Exc → Bool
  | .typeError _ | .keyError _ | .attributeError _ => true
  | e => e.isValueError

def isAcceptedReport (event : Event) : Bool :=
  decide (event.kind = ("report-progress" : Text)) && decide (event.result = .accepted)

/-- `_observation_event` -/
def isObservationEvent (rt : Runtime) (event : Event) : Except Exc Bool :=
  if isAcceptedReport event then
    match event.payload.loads rt with
    | .ok (.obj items) =>
      .ok (decide (("worker_observation" : Text) ∈ dictKeys items) ||
        decide (("worker_binding" : Text) ∈ dictKeys items))
    | .ok _ => .ok true
    | .error (.typeError _) => .ok true
    | .error e => if e.isValueError then .ok true else .error e
  else .ok false

/-- `latest_worker_event`: the newest observation of a history whose revisions are in order. -/
def latestWorkerEvent (rt : Runtime) (card : Card) (events : List Event) :
    Except Exc (Option (Report × Observation × WorkerBinding)) := do
  let candidates ← keepIf (isObservationEvent rt) events
  if candidates.isEmpty then return none
  else do
    let unknown : Exc := .valueError "worker_history_unknown"
    let revised ← (withRevisions card candidates).elim (.error unknown) .ok
    require (decide (revised.map Prod.fst).Nodup) unknown
    match newest revised with
    | none => return none
    | some (_, event) => do
      let report ← progressEvent rt card event
      match report.worker with
      | none => .error unknown
      | some (observation, binding) => return some (report, observation, binding)

/-- What `worker_report` shows of the newest observation. -/
structure WorkerView where
  operationId : Text
  recordedAt : ℤ
  resultRevision : ℤ
  observation : Observation

/-- `worker_report` -/
def workerReport (pf : Platform) (card : Card) (events : List Event) :
    Except Exc (Option WorkerView × Text) :=
  let read : Except Exc (Option WorkerView × Text) := do
    match ← latestWorkerEvent pf.toRuntime card events with
    | none => return (none, "未記錄 worker 觀測")
    | some (report, observation, binding) => do
      let current ← scopeCurrent pf card binding.approvalGeneration (.str binding.scopeDigest)
        binding.startedRevision events
      if current then
        return (some ⟨report.operationId, report.recordedAt, report.resultRevision, observation⟩,
          "最後一次有來源的觀測；非即時監控，執行未驗證")
      else match observation.state with
        | .ended _ handoff =>
          if handoff.acknowledged then
            return (none, "舊 scope 已收尾；僅保留歷史，不作目前執行證據（scope／generation 已失效）")
          else return (none, "worker scope／generation 已失效；僅保留歷史，需 reconciliation")
        | _ => return (none, "worker scope／generation 已失效；僅保留歷史，需 reconciliation")
  match read with
  | .error e =>
    if isUnreadable e then .ok (none, "worker 觀測未知／格式不符；不回退舊觀測") else .error e
  | .ok view => .ok view

/-- `progress_report` -/
def progressReport (pf : Platform) (card : Card) (events : List Event) :
    Except Exc (Option Report × Text) :=
  let unknown : Text := "回報資料未知／格式不符，保留原始歷史"
  let reports := events.filter isAcceptedReport
  if reports.isEmpty then .ok (none, "未記錄進度回報")
  else
    let read : Except Exc (Option Report × Text) :=
      match (withRevisions card reports).bind newest with
      | none => .ok (none, unknown)
      | some (_, latest) => do
        let report ← progressEvent pf.toRuntime card latest
        let current ← scopeCurrent pf card report.approvalGeneration report.scopeDigest
          report.resultRevision events
        if current then return (some report, "目前 scope 的助手回報；未驗證")
        else return (none, "舊 scope／generation 回報，scope 已修改；只保留歷史")
    match read with
    | .error e => if isUnreadable e then .ok (none, unknown) else .error e
    | .ok view => .ok view

end Kanban

end AgentOrch
