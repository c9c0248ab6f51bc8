import AgentOrch.Construction.Kanban.Closeout
import AgentOrch.Construction.Kanban.Quota

/-!
# The kanban commands

`handle_request` checks the shape of a request, looks the operation up in the journal, and otherwise
runs one command inside one transaction.  What raises is rolled back; what is rejected is an event and
nothing else.
-/

namespace AgentOrch

open Py Json

namespace Kanban

/-! ## Worker lineage -/

/-- The documents an observation is compared by, beside its handoff and its place in the chain. -/
def Observation.sameWork (o previous : Observation) : Bool :=
  decide (o.turnId = previous.turnId) && decide (o.observedAtMs = previous.observedAtMs) &&
    decide (o.sourceRef = previous.sourceRef)

/-- `o[k] == previous[k]` for what identifies an attempt. -/
def Observation.sameIdentity (o previous : Observation) : Bool :=
  decide (o.supersedesAttemptId = previous.supersedesAttemptId) &&
    decide (o.provider = previous.provider) && decide (o.threadId = previous.threadId) &&
    decide (o.coordinator = previous.coordinator) &&
    (previous.turnId.isNone || decide (o.turnId = previous.turnId))

/-- A later handoff keeps what the earlier one said, and an acknowledged one altogether. -/
def Handoff.extends_ (after before : Handoff) : Bool :=
  (!before.acknowledged || decide (after = before)) &&
    (before.owner.isNone || decide (after.owner = before.owner)) &&
    (before.nextStep.isNone || decide (after.nextStep = before.nextStep)) &&
    (before.resultSourceRef.isNone || decide (after.resultSourceRef = before.resultSourceRef))

/-- What the newest observation says to the next one of the same attempt. -/
def checkSameAttempt (o previous : Observation) (current : Bool) : Except Exc Unit := do
  require (current || o.state.isEnded) (.valueError "worker_scope_reconciliation_required")
  match previous.state with
  | .ended ending before =>
    match o.state with
    | .ended ending' after => do
      require (decide (ending' = ending) && o.sameWork previous)
        (.valueError "worker_terminal_immutable")
      require (after.extends_ before) (.valueError "worker_handoff_regression")
    | _ => .error (.valueError "worker_terminal_immutable")
  | .submitted => .ok ()
  | _ => require (decide (o.state ≠ .submitted)) (.valueError "worker_state_regression")

/-- The newest observation is of an attempt that is over and handed on. -/
def Observation.isHandedOn (o : Observation) : Bool :=
  match o.state with
  | .ended _ handoff => handoff.acknowledged
  | _ => false

section
variable (pf : Platform)

/-- Every scope edit after the start of the attempt can be read. -/
def checkEdits (started : ℤ) : List Event → Except Exc Unit
  | [] => .ok ()
  | edit :: rest =>
    if !isEdit edit || edit.result ≠ .accepted then checkEdits started rest
    else match edit.resultRevision with
      | .int revision =>
        if revision ≤ started then checkEdits started rest
        else match edit.metadataDelta.loads pf.toRuntime with
          | .ok (.obj _) => checkEdits started rest
          | .ok _ => .error (.valueError "worker_history_unknown")
          | .error (.typeError _) => .error (.valueError "worker_history_unknown")
          | .error e =>
            if e.isValueError then .error (.valueError "worker_history_unknown") else .error e
      | _ => .error (.typeError "'>' not supported")

/-- Some accepted report of the card names the attempt. -/
def isReused (rt : Runtime) (events : List Event) (attemptId : Text) : Bool :=
  events.any fun e => isAcceptedReport e &&
    (((sqlJson rt e.payload).bind (jsonMember "worker_observation")).bind
      (jsonMember "attempt_id")).any fun v => v.eqv (.str attemptId)

/-- The binding of a new attempt. -/
def freshBinding (card : Card) : Except Exc WorkerBinding := do
  let digest ← progressScopeDigest pf card
  return ⟨card.approvalGeneration, digest, card.revision + 1⟩

/-- `_worker_binding` -/
def workerBinding (db : Db) (card : Card) (o : Observation) : Except Exc WorkerBinding := do
  let data ← summary pf db card
  let flags := data.flags
  require (!(flags.badCard || flags.badRevision || flags.badEdit || flags.badWorker))
    (.valueError "worker_history_unknown")
  match ← latestWorkerEvent pf.toRuntime card data.events with
  | none => do
    require (o.supersedesAttemptId.isNone && o.previousObservationOperationId.isNone &&
      decide (o.state = .submitted)) (.valueError "worker_initial_submission_required")
    require (!isReused pf.toRuntime (db.eventsOf card.cardId) o.attemptId)
      (.valueError "worker_attempt_reused")
    freshBinding pf card
  | some (report, previous, binding) => do
    checkEdits pf binding.startedRevision data.events
    require (decide (o.previousObservationOperationId = some report.operationId))
      (.valueError "worker_observation_conflict")
    if o.attemptId = previous.attemptId then do
      require (o.sameIdentity previous) (.valueError "worker_identity_conflict")
      let current ← scopeCurrent pf card binding.approvalGeneration (.str binding.scopeDigest)
        binding.startedRevision data.events
      checkSameAttempt o previous current
      return binding
    else do
      require (decide (o.supersedesAttemptId = some previous.attemptId) &&
        decide (o.state = .submitted)) (.valueError "worker_supersession_required")
      require previous.isHandedOn (.valueError "worker_handoff_required")
      require (!isReused pf.toRuntime (db.eventsOf card.cardId) o.attemptId)
        (.valueError "worker_attempt_reused")
      freshBinding pf card

/-! ## Reporting progress -/

def progressKeys : List Text :=
  ["card_id", "expected_revision", "actor", "report_status", "summary", "blocker", "decision",
    "next_step", "source_refs", "worker_observation"]

/-- `worker_binding`, as JSON. -/
def WorkerBinding.toValue (b : WorkerBinding) : Value :=
  .obj [("schema_version", .int 1), ("approval_generation", .int b.approvalGeneration),
    ("scope_digest", .str b.scopeDigest), ("started_revision", .int b.startedRevision)]

/-- The sources of a report; a report without any has none. -/
def submittedSources (payload : List (Text × Value)) : Option (List Text) :=
  match dictGet "source_refs" payload with
  | none => some []
  | some v => readSources v

/-- The texts of a report that are checked for reserved framing. -/
def progressTexts (payload : List (Text × Value)) (refs : List Text) : List Text :=
  (["summary", "blocker", "decision", "next_step", "actor"] : List Text).filterMap
    (fun key => textThat (fun _ => true) (getValue key payload)) ++ refs

/-- The checks of `_report_progress` on the report itself, with its sources. -/
def validateReport (cmd : Command) : Except Stop (List Text) := do
  let payload := cmd.payload
  refuseUnless ((dictKeys payload).all fun k => decide (k ∈ progressKeys))
    "unsupported_progress_fields"
  refuseUnless (textThat (fun t => decide (t ∈ progressStatuses))
    (getValue "report_status" payload)).isSome "invalid_report_status"
  refuseUnless (textThat (fun t => !isBlank t) (getValue "summary" payload)).isSome
    "summary_required"
  refuseUnless ((["summary", "blocker", "decision", "next_step"] : List Text).all fun key =>
    (nullableThat (fun t => decide (t.length ≤ 4000)) (getValue key payload)).isSome)
    "invalid_progress_text"
  match submittedSources payload with
  | none => .error (.refused "invalid_source_refs")
  | some refs => do
    refuseUnless (!(progressTexts payload refs).any reservedMarkerIn) "unsupported_input_framing"
    refuseUnless (decide (cmd.actor.length ≤ 500)) "invalid_progress_actor"
    return refs

/-- What an observation refused for a reason of its own, or for one of the journal, is rejected
with. -/
def observationStop : Exc → Stop
  | .typeError _ | .keyError _ => .refused "worker_history_unknown"
  | e => if e.isValueError then .refused e.message else .raised e

/-- The binding of the observation of a report, where it has one. -/
def reportBinding (db : Db) (card : Card) (payload : List (Text × Value)) (refs : List Text) :
    Except Stop (List (Text × Value)) :=
  match dictGet "worker_observation" payload with
  | none => .ok []
  | some observation =>
    let bound : Except Exc WorkerBinding := do
      let o ← validateWorkerObservation observation refs
      workerBinding pf db card o
    match bound with
    | .ok binding => .ok [("worker_binding", binding.toValue)]
    | .error e => .error (observationStop e)

/-- What a report adds to its payload. -/
def reportEvent (card : Card) (digest : Text) (payload : List (Text × Value)) (refs : List Text)
    (binding : List (Text × Value)) : List (Text × Value) :=
  dictSet "progress_binding" (.obj [("schema_version", .int 1),
      ("approval_generation", .int card.approvalGeneration), ("scope_digest", .str digest)])
    (dictSet "source_refs" (.arr (refs.map .str)) payload) ++ binding

/-- `_report_progress` -/
def reportProgress (clock : Clock) (db : Db) (cmd : Command) : Except Exc (Outcome × Db) :=
  mutate pf.toRuntime clock db cmd (namedCard cmd.payload) true true (.refused "revision_conflict")
    fun card => do
      let refs ← validateReport cmd
      let digest ← raising (progressScopeDigest pf card)
      let binding ← reportBinding pf db card cmd.payload refs
      let event ← raising (jsonText pf.toRuntime
        (.obj (reportEvent card digest cmd.payload refs binding)))
      return ⟨id, ⟨event, [("progress_reported", .bool true), ("execution_verified", .bool false)],
        []⟩⟩

/-! ## Placement -/

/-- The submitted payload, as the event of an accepted command keeps it. -/
def submitted (rt : Runtime) (cmd : Command) : Except Stop Text :=
  raising (jsonText rt (.obj cmd.payload))

/-- Does the card wait for a decision, so that it may go to the backlog? -/
def awaitsDecision (card : Card) (status : Option Text) (item : Item) : Bool :=
  decide (item.group = ("待決策" : Text)) &&
    (status.isNone || statusIn status ["blocked", "waiting_user"]) &&
    (decide (card.manualState = .needsClarification) || decide (card.manualState = .returned) ||
      statusIn status ["blocked", "waiting_user"] ||
      item.progressReport.any fun r =>
        decide (r.reportStatus ∈ (["blocked", "needs_decision"] : List Text)))

/-- Is something under way, done or unclear, so that the card may not go to the backlog? -/
def isUnsafe (data : CardData) (item : Item) : Bool :=
  let status := data.task.map TaskRow.status
  item.workflowReason.isSome ||
    (data.events.any isAcceptedReport && item.progressReport.isNone) ||
    statusIn status ["queued", "running"] || pausePending data ||
    (data.nights.any fun n => decide (n.phase ∈ (["reserved", "submitted"] : List Text))) ||
    decide (data.card.manualState = .done) ||
    statusIn status ["done", "UserReview", "user_review"] ||
    item.progressReport.any fun r =>
      decide (r.reportStatus ∈ (["in_progress", "reported_done"] : List Text))

/-- What `_place` looks at before it moves a card to the backlog. -/
def placementData (db : Db) (card : Card) : Except Exc CardData := do
  let s ← summary pf db card
  return ⟨card, db.eventsOf card.cardId, db.nights.filter fun n => n.cardId = card.cardId,
    db.taskOf card, s.flags, s.location⟩

/-- Only a card that effectively waits may go to the backlog. -/
def checkBacklog (db : Db) (card : Card) : Except Stop Unit := do
  let data ← raising (placementData pf db card)
  let item ← raising (project pf data)
  let status := data.task.map TaskRow.status
  refuseUnless (!isUnsafe data item &&
    (decide (item.group = ("待處理" : Text)) || awaitsDecision card status item))
    "backlog_requires_effective_pending"

/-- The destination of a placement; a value no set can hold raises. -/
def readDestination (v : Value) : Except Stop Location :=
  match v with
  | .arr _ | .obj _ => .error (.raised (.typeError "unhashable type"))
  | _ => (destination v).elim (.error (.refused "invalid_destination")) .ok

/-- `_place` -/
def placeCard (clock : Clock) (db : Db) (cmd : Command) : Except Exc (Outcome × Db) :=
  mutate pf.toRuntime clock db cmd (getValue "card_id" cmd.payload) true true
    (.refused "revision_conflict") fun card => do
      refuseUnless (card.manualState ≠ .archived) "card_is_archived"
      refuseUnless (keysAre cmd.payload placeKeys) "invalid_place_payload"
      let place ← readDestination (getValue "destination" cmd.payload)
      refuseUnless (isStatedText 4000 (getValue "user_request" cmd.payload) &&
        decide (cmd.actor.length ≤ 500) && !reservedMarkerIn cmd.actor)
        "explicit_user_request_required"
      if place = .backlog then checkBacklog pf db card
      let payload ← submitted pf.toRuntime cmd
      return ⟨id, ⟨payload, [("queue_location", getValue "destination" cmd.payload)], []⟩⟩

/-! ## Fields -/

/-- Is the value of the type of the field? -/
def Field.takes (f : Field) : Value → Bool
  | .obj _ => f.holdsObject
  | .arr _ => f.holdsArray
  | .null | .str _ => !f.holdsObject && !f.holdsArray
  | _ => false

/-- `_read_fields` -/
def readFields (raw : Value) : Except Stop (List (Field × Value)) :=
  match raw with
  | .null => .ok []
  | .obj items => do
    match items.mapM fun (p : Text × Value) => (Field.ofName p.1).map fun f => (f, p.2) with
    | none => .error (.refused "unsupported_field")
    | some named =>
      refuseUnless (named.all fun p => p.1.takes p.2) "invalid_fields"
      return named
  | _ => .error (.refused "invalid_fields")

/-- The value of a field. -/
def fieldValue (f : Field) (fields : List (Field × Value)) : Option Value :=
  (fields.find? fun p => p.1 = f).map Prod.snd

/-- `_storable` -/
def storable (rt : Runtime) (fields : List (Field × Value)) :
    Except Exc (List (Field × Option Text)) :=
  fields.mapM fun (f, v) => match v with
    | .str t => .ok (f, some t)
    | .null => .ok (f, none)
    | v => do
      let t ← jsonText rt v
      return (f, some t)

/-- `_marker_in_fields` finds none. -/
def isUnframed (rt : Runtime) (fields : List (Field × Value)) : Bool :=
  fields.all fun (_, v) => match v with
    | .str t => !reservedMarkerIn t
    | .null => true
    | v => !reservedMarkerIn (v.written (" " : Text) rt.floatRepr)

/-- One assignment of a field. -/
def Card.assign (card : Card) (f : Field) (value : Option Text) : Card :=
  match f with
  | .scope s => { card with scope := fun g => if g = s then value else card.scope g }
  | .title => { card with title := value.getD [] }
  | .note => { card with note := value }
  | .priority => { card with priority := value.getD [] }

def Card.assignAll (card : Card) (stored : List (Field × Option Text)) : Card :=
  stored.foldl (fun card p => card.assign p.1 p.2) card

/-- The stored fields, as `metadata_delta` has them. -/
def storedPairs (stored : List (Field × Option Text)) : List (Text × Value) :=
  stored.map fun p => (p.1.name, Trajectory.optText p.2)

/-- `title_required` and `invalid_priority` -/
def checkTexts (title priority : Option Value) : Except Stop Unit := do
  refuseUnless (title.all fun v => (textThat (fun t => !isBlank t) v).isSome) "title_required"
  refuseUnless (priority.all fun v => (textThat (fun t => decide (t ∈ priorities)) v).isSome)
    "invalid_priority"

/-! ## Creating and editing -/

/-- A card as it is inserted, before its fields. -/
def Card.blank (clock : Clock) (rowid : ℤ) (cardId : Text) : Card where
  rowid := rowid
  cardId := cardId
  revision := 0
  title := []
  note := none
  priority := "normal"
  manualState := .inbox
  scope := fun _ => none
  specHash := none
  acceptanceHash := none
  profileHash := none
  approvalGeneration := 0
  approval := none
  taskId := none
  lastReason := none
  lastEvidenceEventId := none
  createdAt := clock.now
  updatedAt := clock.now

/-- The row SQLite gives a new card. -/
def Db.nextRowid (db : Db) : ℤ := (db.cards.map Card.rowid).foldl max 0 + 1

/-- The checks of `_create`, with the card and its stored fields. -/
def validateCreate (clock : Clock) (db : Db) (cmd : Command) :
    Except Stop (Card × List (Field × Option Text)) := do
  let payload := cmd.payload
  match getValue "card_id" payload with
  | .str id => do
    refuseUnless (!id.isEmpty) "card_id_required"
    refuseUnless (db.card (.str id)).isNone "card_exists"
    refuseUnless (decide (("expected_revision" : Text) ∉ dictKeys payload) ||
      decide (submittedRevision payload ≠ .null)) "invalid_expected_revision"
    let fields ← readFields (getValue "fields" payload)
    checkTexts (some ((fieldValue .title fields).getD .null))
      (some ((fieldValue .priority fields).getD (.str "normal")))
    let fields := if (fieldValue .priority fields).isSome then fields
      else fields ++ [(.priority, .str "normal")]
    refuseUnless (isUnframed pf.toRuntime fields) "unsupported_input_framing"
    let stored ← raising (storable pf.toRuntime fields)
    return ((Card.blank clock db.nextRowid id).assignAll stored, stored)
  | _ => .error (.refused "card_id_required")

/-- `_create` -/
def createCard (clock : Clock) (db : Db) (cmd : Command) : Except Exc (Outcome × Db) :=
  match validateCreate pf clock db cmd with
  | .error (.raised e) => .error e
  | .error (.refused reason) =>
    reject pf.toRuntime clock db cmd reason (namedCard cmd.payload)
      (db.card (getValue "card_id" cmd.payload))
  | .ok (card, stored) => do
    require card.satisfiesChecks .integrityError
    let payload ← jsonText pf.toRuntime (.obj cmd.payload)
    accept pf.toRuntime clock { db with cards := db.cards ++ [card] } cmd card.cardId 0 ⟨payload,
      (("manual_state" : Text), .str "inbox") :: storedPairs stored ++
        [(("queue_location" : Text), .str "backlog")], []⟩

/-- The columns an invalidated approval leaves. -/
def Card.revoked (card : Card) : Card :=
  { card with
    approval := none
    specHash := none
    acceptanceHash := none
    profileHash := none }

/-- What an edit assigns beside the fields, when it touches the scope. -/
def Card.scopeEdited (card : Card) : Card :=
  let card := if card.approval.isSome then card.revoked else card
  let state := if card.manualState = .ready then ManualState.inbox else card.manualState
  { card with
    manualState := state
    lastReason := some ("scope_edited" : Text) }

/-- The scope fields of an edit, sorted by name. -/
def touchedScope (fields : List (Field × Value)) : List Text :=
  (fields.filterMap fun p => match p.1 with
    | .scope f => some f.name
    | _ => none).insertionSort fun s t => textLe s t = true

/-- `_edit` -/
def editCard (clock : Clock) (db : Db) (cmd : Command) : Except Exc (Outcome × Db) :=
  mutate pf.toRuntime clock db cmd (namedCard cmd.payload) false false (.refused "revision_conflict")
    fun card => do
      let fields ← readFields (getValue "fields" cmd.payload)
      refuseUnless (!fields.isEmpty) "no_fields"
      checkTexts (fieldValue .title fields) (fieldValue .priority fields)
      refuseUnless (isUnframed pf.toRuntime fields) "unsupported_input_framing"
      let stored ← raising (storable pf.toRuntime fields)
      let touched := touchedScope fields
      let isTouched := !touched.isEmpty
      let revoked := isTouched && card.approval.isSome
      let reopened := isTouched && decide (card.manualState = .ready)
      let payload ← submitted pf.toRuntime cmd
      let delta : List (Text × Value) := storedPairs stored ++
        (if revoked then [(("approval_revoked" : Text), .bool true)] else []) ++
        (if reopened then [(("manual_state" : Text), .str "inbox")] else []) ++
        [(("scope_fields_changed" : Text), .arr (touched.map .str))]
      return ⟨fun card =>
        (if isTouched then card.scopeEdited else card).assignAll stored, ⟨payload, delta, []⟩⟩

/-! ## Approving and invalidating -/

/-- What an approval assigns. -/
def Card.approved (card : Card) (approval : Approval) (frozen : List (Text × Value)) : Card :=
  let text (key : Text) : Option Text := textThat (fun _ => true) (getValue key frozen)
  { card with
    manualState := .ready
    approvalGeneration := card.approvalGeneration + 1
    approval := some approval
    specHash := text "spec_hash"
    acceptanceHash := text "acceptance_hash"
    profileHash := text "profile_hash"
    lastReason := none }

/-- `_approve` -/
def approveCard (env : Environment) (db : Db) (cmd : Command) : Except Exc (Outcome × Db) :=
  mutate pf.toRuntime env.clock db cmd (namedCard cmd.payload) false false
    (.raised (.kanbanError "kanban approve lost a CAS that cannot race")) fun card => do
      refuseUnless (!(decide (card.manualState = .ready) && card.approval.isSome))
        "already_approved"
      let frozen ← buildApprovalPayload pf env card
      let payload ← raising (canonicalText pf.toRuntime (.obj frozen))
      let digest ← raising (canonicalHash pf (.obj frozen))
      let generation := getValue "approval_generation" frozen
      let gateRequired := getValue "gate_required" frozen
      return ⟨fun card => card.approved ⟨cmd.actor, env.clock.now, digest, cmd.operationId⟩ frozen,
        ⟨payload, [("manual_state", .str "ready"), ("approval_generation", generation),
          ("approval_hash", .str digest), ("gate_required", gateRequired)],
        [("approval_hash", .str digest), ("approval_generation", generation),
          ("gate_required", gateRequired)]⟩⟩

/-- `_invalidate` -/
def invalidateCard (clock : Clock) (db : Db) (cmd : Command) (target : ManualState)
    (requireApproval : Bool) (reasonCode : Text) : Except Exc (Outcome × Db) :=
  mutate pf.toRuntime clock db cmd (namedCard cmd.payload) false false (.refused "revision_conflict")
    fun card => do
      refuseUnless (!requireApproval || card.approval.isSome) "not_approved"
      let payload ← submitted pf.toRuntime cmd
      return ⟨fun card =>
        let card := card.revoked
        { card with
          manualState := target
          lastReason := some reasonCode },
        ⟨payload, [("manual_state", .str target.text),
          ("approval_revoked", .bool card.approval.isSome), ("last_reason", .str reasonCode)], []⟩⟩

/-- `_withdraw` -/
def withdrawCard (clock : Clock) (db : Db) (cmd : Command) : Except Exc (Outcome × Db) :=
  invalidateCard pf clock db cmd .inbox true "approval_withdrawn"

/-- `_return` -/
def returnCard (clock : Clock) (db : Db) (cmd : Command) : Except Exc (Outcome × Db) :=
  invalidateCard pf clock db cmd .returned false "manually_returned"

/-! ## Archiving, pausing and finishing -/

/-- `_archive` -/
def archiveCard (clock : Clock) (db : Db) (cmd : Command) : Except Exc (Outcome × Db) :=
  mutate pf.toRuntime clock db cmd (namedCard cmd.payload) false false (.refused "revision_conflict")
    fun _ => do
      let payload ← submitted pf.toRuntime cmd
      return ⟨fun card =>
        { card with
          manualState := .archived
          lastReason := some ("manually_archived" : Text) },
        ⟨payload, [("manual_state", .str "archived"), ("success_claimed", .bool false)], []⟩⟩

/-- `_pause` -/
def pauseCard (clock : Clock) (db : Db) (cmd : Command) : Except Exc (Outcome × Db) :=
  mutate pf.toRuntime clock db cmd (namedCard cmd.payload) false false (.refused "revision_conflict")
    fun card => do
      let payload ← submitted pf.toRuntime cmd
      let boundary : List (Text × Value) :=
        [("pending", .bool true), ("applies_at", .str "next_stage_boundary"),
          ("manual_state", .str card.manualState.text)]
      return ⟨fun card => { card with lastReason := some ("manual_pause_pending" : Text) },
        ⟨payload, boundary ++ [(("last_reason" : Text), .str "manual_pause_pending")], boundary⟩⟩

/-- `_done` -/
def finishCard (env : Environment) (db : Db) (cmd : Command) : Except Exc (Outcome × Db) :=
  mutate pf.toRuntime env.clock db cmd (namedCard cmd.payload) false false
    (.raised (.kanbanError "kanban done lost a CAS that cannot race")) fun card => do
      let binding ← validateDone pf env db card cmd.payload
      let payload ← submitted pf.toRuntime cmd
      return ⟨fun card =>
        { card with
          manualState := .done
          lastReason := some ("manually_accepted" : Text)
          lastEvidenceEventId := some cmd.operationId },
        ⟨payload, [("manual_state", .str "done"), ("binding", .obj binding),
          ("gate_decision_path", getValue "gate_decision_path" cmd.payload),
          ("gate_decision_hash", getValue "gate_decision_hash" cmd.payload),
          ("deployed", .bool false)], []⟩⟩

/-! ## The handler -/

/-- A request: a `dict`, whose keys are distinct at every level. -/
structure Request where
  items : List (Text × Value)
  keyed : (Value.obj items).wellKeyed = true

def requestKeys : List Text := ["request_id", "action", "command", "operation_id", "payload"]

/-- The shape of a request, up to its hash. -/
def readRequest (request : Request) : Except Exc Command := do
  let items := request.items
  let named := getValue "command" items
  match Verb.ofValue named with
  | none =>
    .error (.kanbanError (("unsupported kanban command: " : Text) ++ reprValue pf.toRuntime named))
  | some verb => do
    let operationId ← (textThat (fun t => !t.isEmpty) (getValue "operation_id" items)).elim
      (.error (.kanbanError "kanban request requires an operation_id")) .ok
    let invalid : Text := if verb = .quotaCliAttempt then "invalid CLI quota operation id"
      else ("invalid operation_id: " : Text) ++ repr pf.unicode operationId
    require (Trajectory.isUuid operationId) (.kanbanError invalid)
    match getValue "payload" items with
    | .obj payload => do
      require (decide (verb ≠ .quotaCliAttempt) ||
        (keysAre items requestKeys && (validateAttempt payload).isSome))
        (.kanbanError "invalid CLI quota attempt")
      let actor ← (textThat (fun t => !isBlank t) (getValue "actor" payload)).elim
        (.error (.kanbanError "kanban request requires an actor")) .ok
      let digest ← payloadHash pf verb.name payload
      return ⟨verb, operationId, digest, actor, payload⟩
    | _ => .error (.kanbanError "kanban request requires a payload object")

/-- `_replay` -/
def replay (existing : Event) (digest : Text) : Outcome :=
  let recorded : Bool := decide (existing.payloadHash = .text digest)
  { command := existing.kind
    operationId := existing.operationId
    cardId := Trajectory.optText existing.cardId
    result := if recorded then existing.result else .rejected
    reason := if recorded then existing.reason else .text "idempotency_conflict"
    revision := if recorded then existing.resultRevision else .null
    recorded := recorded
    replayed := recorded
    extra := [] }

/-- `_dispatch` -/
def dispatch (env : Environment) (db : Db) (cmd : Command) : Except Exc (Outcome × Db) :=
  match cmd.verb with
  | .create => createCard pf env.clock db cmd
  | .edit => editCard pf env.clock db cmd
  | .approve => approveCard pf env db cmd
  | .withdraw => withdrawCard pf env.clock db cmd
  | .return_ => returnCard pf env.clock db cmd
  | .pause => pauseCard pf env.clock db cmd
  | .done => finishCard pf env db cmd
  | .archive => archiveCard pf env.clock db cmd
  | .quotaCliAttempt =>
    match validateAttempt cmd.payload with
    | some attempt => attemptCommand pf.toRuntime env.clock db cmd attempt
    | none => .error (.kanbanError "invalid CLI quota attempt")
  | .quotaSnapshot => snapshotCommand pf.toRuntime env.clock db cmd
  | .quotaInvalidate => invalidateCommand pf.toRuntime env.clock db cmd
  | .reportProgress => reportProgress pf env.clock db cmd
  | .place => placeCard pf env.clock db cmd

/-- The transaction of `handle_request`. -/
def execute (env : Environment) (db : Db) (cmd : Command) : Except Exc (Outcome × Db) :=
  match db.events.find? fun e => e.operationId = cmd.operationId with
  | some existing => .ok (replay existing cmd.digest, db)
  | none => dispatch pf env db cmd

/-- `handle_request` -/
def handleRequest (env : Environment) (db : Db) (request : Request) : Except Exc (Outcome × Db) := do
  let cmd ← readRequest pf request
  execute pf env db cmd

/-! ## Runs -/

/-- One call of the handler, in the environment of its moment. -/
structure Call where
  env : Environment
  request : Request

/-- The tables after a call: what raised is rolled back. -/
def serve (db : Db) (call : Call) : Db :=
  match handleRequest pf call.env db call.request with
  | .ok (_, after) => after
  | .error _ => db

/-- The tables after a sequence of calls. -/
def run (db : Db) (calls : List Call) : Db := calls.foldl (serve pf) db

end

/-- The tables as `ensure_schema` creates them.  Tasks belong to the engine; a night refers to a card,
so there is none yet. -/
def Db.fresh (tasks : List TaskRow) : Db := ⟨[], [], [], tasks, [], none⟩

end Kanban

end AgentOrch
