import AgentOrch.Construction.EventChecks

/-!
# The reducer

`reduce_snapshot` reads a frozen snapshot and nothing else.  It decodes the event chain, folds the
events into a projection of the task, and cross-checks that projection with the canonical rows and
the evidence inventory of the same snapshot.

What it finds wrong is a diagnostic.  A structural diagnostic makes the snapshot corrupt; a
projection that disagrees with the rows makes it a mismatch.
-/

namespace AgentOrch

open Py Json

namespace Trajectory

/-! ## Diagnostics -/

/-- `DIAGNOSTIC_CODES` -/
inductive Code
  | canonicalMismatch
  | duplicateEventId
  | eventInvalid
  | evidenceCorrupt
  | evidenceInventoryMismatch
  | hashChainBroken
  | parentInvalid
  | providerEventDuplicate
  | providerEventUnpaired
  | runIdentityMismatch
  | sequenceGap
  | sessionPredecessorInvalid
  | snapshotInvalid
  | taskRevisionRegression
  | snapshotVersionUnsupported
  | trajectoryMismatch
  deriving DecidableEq

/-- `structural_codes` -/
def Code.structural : Code → Bool
  | .canonicalMismatch | .snapshotVersionUnsupported => false
  | _ => true

structure Diagnostic where
  code : Code
  eventSeq : Option ℤ
  eventId : Option Text
  expectedDigest : Option Text
  actualDigest : Option Text

/-- `_diagnostic(code)` -/
def diagnostic (code : Code) : Diagnostic := ⟨code, none, none, none, none⟩

/-- `_diagnostic(code, event)` -/
def eventDiagnostic (code : Code) (e : SealedEvent) : Diagnostic :=
  ⟨code, some e.seq, some e.eventId, none, none⟩

/-- The diagnostic, if the condition holds. -/
def note (condition : Bool) (d : Diagnostic) : List Diagnostic := if condition then [d] else []

/-- `UNKNOWN_CODES` -/
inductive UnknownCode
  | evidenceExpired
  | evidenceUnavailable
  | providerHandoffUnknown
  | providerResultUnknown
  deriving DecidableEq

structure Unknown where
  code : UnknownCode
  eventSeq : ℤ
  eventId : Text
  refId : Option Text

/-! ## Encoding -/

/-- `canonical_json_bytes`, without normalization. -/
def canonicalJsonBytes (pf : Platform) (value : Value) : Except Exc Bytes := do
  let t ← pf.dumpsSorted value
  encoded t

/-- `_sha` -/
def sha (pf : Platform) (value : Value) : Except Exc Text :=
  (canonicalJsonBytes pf value).map (prefixedDigest pf)

/-- `digest_text` -/
def digestText (pf : Platform) (t : Text) : Except Exc Text := (encoded t).map (prefixedDigest pf)

/-- `value in {...}` for a set of strings; a container has no hash. -/
def memberOf (value : Value) (allowed : List Text) : Except Exc Bool :=
  match value with
  | .str t => .ok (t ∈ allowed)
  | .arr _ => .error (.typeError "unhashable type: 'list'")
  | .obj _ => .error (.typeError "unhashable type: 'dict'")
  | _ => .ok false

/-! ## Decoding the chain -/

/-- One entry of the ordered events: a document whose canonical encoding is the entry itself. -/
def decodeEvent (pf : Platform) (raw : Text) : Except Exc SealedEvent := do
  let value ← pf.loads false raw
  let (event, data) ← canonicalEventBytes pf value
  let stored ← encoded raw
  check (data = stored) "event bytes are not canonical"
  return event

/-- `except (json.JSONDecodeError, TrajectoryError, TypeError, ValueError)` -/
def isInvalidEvent : Exc → Bool
  | .typeError _ => true
  | e => e.isValueError

/-- `_snapshot_events`: an entry that does not decode is skipped and reported. -/
def snapshotEvents (pf : Platform) : List Value → Except Exc (List SealedEvent × List Diagnostic)
  | [] => .ok ([], [])
  | .str raw :: rest =>
    match decodeEvent pf raw with
    | .ok event => do
      let (events, diagnostics) ← snapshotEvents pf rest
      return (event :: events, diagnostics)
    | .error e =>
      if isInvalidEvent e then do
        let (events, diagnostics) ← snapshotEvents pf rest
        return (events, diagnostic .eventInvalid :: diagnostics)
      else .error e
  | _ :: rest => do
    let (events, diagnostics) ← snapshotEvents pf rest
    return (events, diagnostic .eventInvalid :: diagnostics)

/-- The checks along the chain: `earlier` are the identities seen so far, `previous` the hash of the
event before. -/
def chainDiagnostics (trajectoryId : Text) :
    ℤ → List Text → Option Text → List SealedEvent → List Diagnostic
  | _, _, _, [] => []
  | expectedSeq, earlier, previous, e :: rest =>
    note (e.trajectoryId ≠ trajectoryId) (eventDiagnostic .trajectoryMismatch e) ++
    note (e.seq ≠ expectedSeq) (eventDiagnostic .sequenceGap e) ++
    note (e.eventId ∈ earlier) (eventDiagnostic .duplicateEventId e) ++
    note (e.prevEventHash ≠ previous)
      { eventDiagnostic .hashChainBroken e with
        expectedDigest := previous, actualDigest := e.prevEventHash } ++
    note ((e.parentEventId.toList ++ e.causalEventIds).any fun id => decide (id ∉ earlier))
      (eventDiagnostic .parentInvalid e) ++
    chainDiagnostics trajectoryId (expectedSeq + 1) (e.eventId :: earlier) (some e.eventHash) rest

/-! ## The projection -/

structure TaskLifecycle where
  taskId : Text
  revision : ℤ
  status : Option Text
  transitionSeq : Option ℤ

structure BaselineEntry where
  baselineId : Text
  coverageThroughTransitionSeq : ℤ
  missingDomains : List Text

/-- `settled` holds what only a settled attempt has: its elapsed time and its usage. -/
structure Attempt where
  run : RunRef
  status : Text
  classification : Option Text
  outcomeCode : Option Text
  outcomeDigest : Option Text
  isSealed : Bool
  manifestHash : Option Text
  settled : Option (ℤ × UsageEntry)

structure Invocation where
  invocationId : Text
  runToken : Text
  provider : Option Text
  model : Option Text
  sessionRef : Option Text
  dispatchState : Text
  resultState : Text
  intentEventId : Text
  dispatchedEventId : Option Text
  settledEventId : Option Text
  settled : Option (ℤ × UsageEntry)

structure SessionEntry where
  eventId : Text
  eventType : Text
  sessionRef : Option Text
  predecessorEventId : Option Text
  role : Option Text
  reasonCode : Option Text
  bindingRef : Option Text
  checkpointRef : Option Text

structure Boundary where
  eventSeq : ℤ
  eventId : Text
  invocationId : Text
  finalResponseRef : Text

structure UsageRow where
  eventId : Text
  runToken : Text
  inputTokens : Option ℤ
  outputTokens : Option ℤ
  totalTokens : Option ℤ

/-- What the fold over the events has gathered. -/
structure Fold where
  lifecycle : Option TaskLifecycle
  baseline : Option BaselineEntry
  attempts : List (Text × Attempt)
  invocations : List (Text × Invocation)
  sessions : List SessionEntry
  boundaries : List Boundary
  usage : List (Text × List UsageRow)
  lastRevision : Option ℤ
  diagnostics : List Diagnostic

def Fold.start : Fold := ⟨none, none, [], [], [], [], [], none, []⟩

namespace Fold

/-- `diagnostics.append(...)` under a condition. -/
def report (f : Fold) (condition : Bool) (d : Diagnostic) : Fold :=
  { f with diagnostics := f.diagnostics ++ note condition d }

/-- The checks made for an event of any kind: the revision, and the run it names. -/
def checkEvent (runs : List (Text × List (Text × Value))) (f : Fold) (e : SealedEvent) : Fold :=
  let f := { f.report (f.lastRevision.any fun last => e.revision < last)
      (eventDiagnostic .taskRevisionRegression e) with lastRevision := some e.revision }
  match e.run with
  | none => f
  | some run =>
    let known := (dictGet run.runToken runs).any fun row =>
      (getValue "run_token" row).eqv (.str run.runToken) &&
        (getValue "stage" row).eqv (.str run.stage) &&
        (getValue "cycle" row).eqv (.int run.cycle) &&
        (getValue "attempt" row).eqv (.int run.attempt)
    f.report (!known) (eventDiagnostic .runIdentityMismatch e)

/-- The task as an event leaves it; `status` is kept where the event does not tell. -/
def setLifecycle (f : Fold) (e : SealedEvent) (status : Option Text)
    (transitionSeq : Option ℤ) : Fold :=
  { f with
    lifecycle := some
      { taskId := (f.lifecycle.map TaskLifecycle.taskId).getD e.taskId
        revision := e.revision
        status := status.or (f.lifecycle.bind TaskLifecycle.status)
        transitionSeq := transitionSeq } }

/-- `stage.claimed` -/
def claimed (f : Fold) (e : SealedEvent) (run : RunRef) : Fold :=
  { f with
    attempts := dictSet run.runToken ⟨run, "running", none, none, none, false, none, none⟩ f.attempts
    lifecycle := f.lifecycle.map fun l =>
      { l with revision := e.revision, status := some ("running" : Text) } }

/-- The one manifest hash the evidence of an event proves a seal with. -/
def manifestHash (refs : List EvidenceRef) : Option Text :=
  match ((refs.filter EvidenceRef.provesSeal).map fun r => r.evidenceSeal.manifestHash).dedup with
  | [hash] => some hash
  | _ => none

/-- The row status a classification stands for. -/
def attemptStatus (classification : Text) : Text :=
  if classification ∈ (["success", "waiting_user"] : List Text) then "committed" else classification

/-- `stage.settled`: the attempt keeps the run it was claimed with. -/
def settled (f : Fold) (e : SealedEvent) (run : RunRef) (classification : Text)
    (outcomeCode outcomeDigest : Option Text) (elapsedMs : ℤ) (usage : UsageEntry)
    (isSealed : Bool) : Fold :=
  let claimedAs := (dictGet run.runToken f.attempts).elim run Attempt.run
  { f with
    attempts := dictSet run.runToken
      { run := claimedAs, status := attemptStatus classification
        classification := some classification, outcomeCode := outcomeCode
        outcomeDigest := outcomeDigest, isSealed := isSealed
        manifestHash := manifestHash e.evidenceRefs, settled := some (elapsedMs, usage) } f.attempts
    usage := dictSet usage.basis (((dictGet usage.basis f.usage).getD []) ++
      [⟨e.eventId, run.runToken, usage.inputTokens, usage.outputTokens, usage.totalTokens⟩]) f.usage }

/-- `provider.dispatch_intent` -/
def intended (f : Fold) (e : SealedEvent) (run : RunRef) (invocationId : Text) : Fold :=
  let f := f.report (dictGet invocationId f.invocations).isSome
    (eventDiagnostic .providerEventDuplicate e)
  { f with
    invocations := dictSet invocationId
      { invocationId := invocationId, runToken := run.runToken, provider := e.actor.provider
        model := e.actor.model, sessionRef := e.sessionRef, dispatchState := "unknown"
        resultState := "unknown", intentEventId := e.eventId, dispatchedEventId := none
        settledEventId := none, settled := none } f.invocations }

/-- `provider.dispatched` of a known invocation. -/
def dispatched (f : Fold) (e : SealedEvent) (item : Invocation) : Fold :=
  let f := f.report item.dispatchedEventId.isSome (eventDiagnostic .providerEventDuplicate e)
  { f with
    invocations := dictSet item.invocationId
      { item with
        dispatchState := "dispatched", sessionRef := e.sessionRef.or item.sessionRef
        dispatchedEventId := some e.eventId } f.invocations }

/-- `provider.settled` of a known invocation. -/
def providerSettled (f : Fold) (e : SealedEvent) (item : Invocation) (resultClass : Text)
    (elapsedMs : ℤ) (usage : UsageEntry) (finalResponseRef : Option Text) : Fold :=
  let f := f.report item.settledEventId.isSome (eventDiagnostic .providerEventDuplicate e)
  { f with
    invocations := dictSet item.invocationId
      { item with
        resultState := resultClass, sessionRef := e.sessionRef.or item.sessionRef
        settledEventId := some e.eventId, settled := some (elapsedMs, usage) } f.invocations
    boundaries := f.boundaries ++
      finalResponseRef.toList.map fun ref => ⟨e.seq, e.eventId, item.invocationId, ref⟩ }

/-- A provider event that needs an intent before it. -/
def withInvocation (f : Fold) (e : SealedEvent) (step : Invocation → Fold) : Fold :=
  match e.invocationId.bind fun id => dictGet id f.invocations with
  | none => f.report true (eventDiagnostic .providerEventUnpaired e)
  | some item => step item

/-- One event. -/
def event (runs : List (Text × List (Text × Value))) (f : Fold) (e : SealedEvent) : Fold :=
  let f := f.checkEvent runs e
  match e.body, e.run with
  | .taskCreated .., _ =>
    { f with lifecycle := some ⟨e.taskId, e.revision, some ("queued" : Text), none⟩ }
  | .migrationBaseline baselineId _ domains coverage, _ =>
    { f.setLifecycle e none (some coverage) with
      baseline := some ⟨baselineId, coverage, domains⟩ }
  | .transitionCommitted transitionSeq _ _ toStatus .., _ =>
    f.setLifecycle e (some toStatus) (some transitionSeq)
  | .stageClaimed .., some run => f.claimed e run
  | .stageSettled classification outcomeCode outcomeDigest elapsedMs usage isSealed, some run =>
    f.settled e run classification outcomeCode outcomeDigest elapsedMs usage isSealed
  | .dispatchIntent .., some run => e.invocationId.elim f (f.intended e run)
  | .dispatched .., _ => f.withInvocation e (f.dispatched e)
  | .providerSettled resultClass elapsedMs usage ref, _ =>
    f.withInvocation e fun item => f.providerSettled e item resultClass elapsedMs usage ref
  | .sessionBound role bindingRef, _ =>
    { f with sessions := f.sessions ++ [⟨e.eventId, e.body.eventType, e.sessionRef, none, some role,
      none, some bindingRef, none⟩] }
  | .sessionRebound predecessor reasonCode _ checkpointRef, _ =>
    let replaced := f.sessions.reverse.find? fun s => s.eventId = predecessor
    let f := f.report (!replaced.any fun s => decide (s.sessionRef ≠ e.sessionRef))
      (eventDiagnostic .sessionPredecessorInvalid e)
    { f with sessions := f.sessions ++ [⟨e.eventId, e.body.eventType, e.sessionRef,
      some predecessor, none, some reasonCode, none, some checkpointRef⟩] }
  | _, _ => f

end Fold

/-! ## Cross-checks with the canonical rows -/

/-- `item["run_token"]` of the runs that can be told apart, and a report of the others. -/
def canonicalRuns : List Value → List (Text × List (Text × Value)) × List Diagnostic :=
  List.foldl (fun (runs, diagnostics) item =>
    match item with
    | .obj row =>
      match getValue "run_token" row with
      | .str (c :: t) =>
        if (dictGet (c :: t) runs).isSome then (runs, diagnostics ++ [diagnostic .snapshotInvalid])
        else (runs ++ [(c :: t, row)], diagnostics)
      | _ => (runs, diagnostics ++ [diagnostic .snapshotInvalid])
    | _ => (runs, diagnostics ++ [diagnostic .snapshotInvalid])) ([], [])

/-- The outcome of a row as the events code it. -/
def expectedOutcome (pf : Platform) (outcome : Value) : Except Exc (Value × Value) :=
  match outcome with
  | .null => .ok (.null, .null)
  | v => do
    let coded ← memberOf v outcomeCodes
    match v with
    | .str t =>
      if coded && t ≠ ("other" : Text) then return (v, .null)
      else do
        let hash ← digestText pf t
        return (.str "other", .str hash)
    | _ => .error (.attributeError "object has no attribute 'encode'")

/-- An attempt compared with the row of its run. -/
def attemptDiagnostics (pf : Platform) (runs : List (Text × List (Text × Value)))
    (attempt : Text × Attempt) : Except Exc (List Diagnostic) :=
  match dictGet attempt.1 runs with
  | none => .ok []
  | some row => do
    let (code, codeDigest) ← expectedOutcome pf (getValue "outcome" row)
    let expected : Value := .obj [("run_token", getValue "run_token" row),
      ("stage", getValue "stage" row), ("cycle", getValue "cycle" row),
      ("attempt", getValue "attempt" row), ("status", getValue "status" row),
      ("outcome_code", code), ("outcome_digest", codeDigest),
      ("sealed", .bool (getValue "sealed" row).truthy),
      ("manifest_hash", getValue "manifest_hash" row)]
    let a := attempt.2
    let actual : Value := .obj [("run_token", .str a.run.runToken), ("stage", .str a.run.stage),
      ("cycle", .int a.run.cycle), ("attempt", .int a.run.attempt), ("status", .str a.status),
      ("outcome_code", optText a.outcomeCode), ("outcome_digest", optText a.outcomeDigest),
      ("sealed", .bool a.isSealed), ("manifest_hash", optText a.manifestHash)]
    if actual.eqv expected then return []
    else do
      let expectedDigest ← sha pf expected
      let actualDigest ← sha pf actual
      return [⟨.canonicalMismatch, none, none, some expectedDigest, some actualDigest⟩]

/-- The items of a list by key, in the order of `sorted`. -/
def sortedByKey {α : Type} (items : List (Text × α)) : List (Text × α) :=
  items.insertionSort fun p q => textLe p.1 q.1 = true

/-- What is not known of an invocation, told by its intent. -/
def invocationUnknowns (events : List SealedEvent) (item : Text × Invocation) :
    Except Exc (List Unknown) :=
  let intents := events.filter fun e =>
    e.body.eventType = ("provider.dispatch_intent" : Text) && e.invocationId = some item.1
  match intents.getLast? with
  | none => .error (.keyError item.1)
  | some e => .ok (
      (if item.2.resultState = ("unknown" : Text) then
        [⟨.providerResultUnknown, e.seq, e.eventId, none⟩] else []) ++
      (if item.2.dispatchState = ("unknown" : Text) then
        [⟨.providerHandoffUnknown, e.seq, e.eventId, none⟩] else []))

/-! ## The evidence inventory -/

/-- What the inventory repeats of a reference. -/
structure RefRecord where
  refId : Text
  kind : Text
  sha256 : Text
  sizeBytes : ℤ
  mediaType : Text
  sensitivity : Text
  retentionClass : Text
  availabilityAtAppend : Text
  deriving DecidableEq

def EvidenceRef.record (r : EvidenceRef) : RefRecord :=
  ⟨r.refId, r.kind, r.sha256, r.sizeBytes, r.mediaType, r.sensitivity, r.retentionClass,
    r.availabilityAtAppend⟩

def RefRecord.items (r : RefRecord) : List (Text × Value) :=
  [("ref_id", .str r.refId), ("kind", .str r.kind), ("sha256", .str r.sha256),
    ("size_bytes", .int r.sizeBytes), ("media_type", .str r.mediaType),
    ("sensitivity", .str r.sensitivity), ("retention_class", .str r.retentionClass),
    ("availability_at_append", .str r.availabilityAtAppend)]

def inventoryKeys : List Text :=
  ["ref_id", "kind", "sha256", "size_bytes", "media_type", "sensitivity", "retention_class",
    "availability_at_append", "availability"]

/-- The references of the events by identity; one that changed is reported. -/
def eventRefs (events : List SealedEvent) : List (Text × RefRecord) × List Diagnostic :=
  (events.flatMap fun e => e.evidenceRefs.map fun r => (e, r)).foldl
    (fun (refs, diagnostics) (e, r) =>
      (dictSet r.refId r.record refs,
        diagnostics ++ note ((dictGet r.refId refs).any fun prior => prior ≠ r.record)
          (eventDiagnostic .evidenceInventoryMismatch e))) ([], [])

/-- What the reducer has gathered from the inventory. -/
structure Inventory where
  byId : List (Text × List (Text × Value))
  unknowns : List Unknown
  diagnostics : List Diagnostic

/-- One item of the inventory. -/
def Inventory.add (events : List SealedEvent) (inv : Inventory) (item : Value) :
    Except Exc Inventory :=
  let invalid : Except Exc Inventory :=
    .ok { inv with diagnostics := inv.diagnostics ++ [diagnostic .snapshotInvalid] }
  match item with
  | .obj items =>
    match getValue "ref_id" items with
    | .str id =>
      if keysAre items inventoryKeys then do
        let inv := { inv with byId := dictSet id items inv.byId }
        let availability := getValue "availability" items
        if availability.eqv (.str "corrupt") then
          match getValue "sha256" items with
          | .str hash => return { inv with diagnostics := inv.diagnostics ++
              [⟨.evidenceCorrupt, none, none, some ("sha256:" ++ hash), none⟩] }
          | _ => .error (.typeError "can only concatenate str to str")
        else do
          let missing ← memberOf availability ["unavailable", "expired"]
          let first := events.find? fun e => e.evidenceRefs.any fun r => r.refId = id
          match first with
          | some e =>
            if missing then
              let code := if availability.eqv (.str "expired") then UnknownCode.evidenceExpired
                else UnknownCode.evidenceUnavailable
              return { inv with unknowns := inv.unknowns ++ [⟨code, e.seq, e.eventId, some id⟩] }
            else return inv
          | none => return inv
      else invalid
    | _ => invalid
  | _ => invalid

def Inventory.addAll (events : List SealedEvent) : Inventory → List Value → Except Exc Inventory
  | inv, [] => .ok inv
  | inv, item :: rest => do
    let inv ← inv.add events item
    inv.addAll events rest

/-- The inventory against the references of the events. -/
def inventoryDiagnostics (byId : List (Text × List (Text × Value)))
    (refs : List (Text × RefRecord)) : List Diagnostic :=
  if keysAre byId (dictKeys refs) then
    note (refs.any fun (id, record) => !((dictGet id byId).any fun items =>
        record.items.all fun (key, v) => (getValue key items).eqv v))
      (diagnostic .evidenceInventoryMismatch)
  else [diagnostic .evidenceInventoryMismatch]

/-! ## The snapshot -/

inductive Integrity
  | ok
  | incomplete
  | mismatch
  | corrupt
  deriving DecidableEq

inductive Completeness
  | complete
  | partly
  | incomplete
  deriving DecidableEq

structure ProjectionResult where
  trajectoryId : Option Text
  inputHeadHash : Value
  integrityStatus : Integrity
  completeness : Completeness
  taskLifecycle : Option TaskLifecycle
  stageAttempts : List Attempt
  invocations : List Invocation
  sessions : List SessionEntry
  evidenceGraph : List Value
  modelVisibleBoundaryIndex : List Boundary
  usageByBasis : List (Text × List UsageRow)
  unknowns : List Unknown
  diagnostics : List Diagnostic
  snapshotManifest : Value

/-- `_empty_projection` -/
def emptyProjection (code : Code) (trajectoryId : Option Text) : ProjectionResult :=
  ⟨trajectoryId, .null, .corrupt, .incomplete, none, [], [], [], [], [], [], [], [diagnostic code],
    .null⟩

def snapshotKeys : List Text :=
  ["snapshot_version", "trajectory_id", "captured_at_ms", "created_from", "ordered_events",
    "event_head_hash", "evidence_inventory", "canonical_state", "source_db_snapshot_hash",
    "sensitivity", "manifest", "snapshot_digest"]

/-- `integrity_status` -/
def integrityOf (diagnostics : List Diagnostic) (unknowns : List Unknown) : Integrity :=
  if diagnostics.any fun d => d.code.structural then .corrupt
  else if diagnostics.any fun d => d.code = .canonicalMismatch then .mismatch
  else if unknowns.isEmpty then .ok
  else .incomplete

/-- `completeness` -/
def completenessOf (baseline : Option BaselineEntry) (unknowns : List Unknown)
    (integrity : Integrity) : Completeness :=
  if !unknowns.isEmpty || integrity ∈ [Integrity.corrupt, .mismatch] then .incomplete
  else if baseline.isSome then .partly
  else .complete

/-- The head of the chain: the hash of the last event. -/
def headHash (events : List SealedEvent) : Option Text := events.getLast?.map SealedEvent.eventHash

/-- The manifest a snapshot with these events must have. -/
def expectedManifest (pf : Platform) (items : List (Text × Value)) (events : List SealedEvent) :
    Except Exc Value := do
  let inventoryDigest ← sha pf (getValue "evidence_inventory" items)
  let eventsDigest ← sha pf (getValue "ordered_events" items)
  return .obj [("created_from", getValue "created_from" items), ("event_count", .int events.length),
    ("evidence_inventory_digest", .str inventoryDigest),
    ("first_seq", optInt (events.head?.map fun e => e.seq)),
    ("last_seq", optInt (events.getLast?.map fun e => e.seq)),
    ("event_head_hash", optText (headHash events)), ("ordered_events_digest", .str eventsDigest),
    ("sensitivity", getValue "sensitivity" items),
    ("source_db_snapshot_hash", getValue "source_db_snapshot_hash" items)]

/-- The projected task against its row. -/
def taskDiagnostics (pf : Platform) (lifecycle : Option TaskLifecycle) (task : List (Text × Value)) :
    Except Exc (List Diagnostic) :=
  match lifecycle with
  | none => .ok [diagnostic .canonicalMismatch]
  | some l =>
    match l.status with
    | none => .ok []
    | some status =>
      if (getValue "status" task).eqv (.str status) && (getValue "revision" task).eqv (.int l.revision)
      then .ok []
      else do
        let expectedDigest ← sha pf (.obj [("status", getValue "status" task),
          ("revision", getValue "revision" task)])
        let actualDigest ← sha pf (.obj [("status", .str status), ("revision", .int l.revision)])
        return [⟨.canonicalMismatch, none, none, some expectedDigest, some actualDigest⟩]

/-- `int(item["seq"])` of the canonical transitions. -/
def canonicalSeqs (transitions : List Value) : List ℤ :=
  transitions.filterMap fun item =>
    match item with
    | .obj row => match getValue "seq" row with
      | .int n => some n
      | _ => none
    | _ => none

/-- The sequence numbers of the live transition events. -/
def liveSeqs (events : List SealedEvent) : List ℤ :=
  events.filterMap fun e => match e.body with
    | .transitionCommitted transitionSeq .. => some transitionSeq
    | _ => none

/-- Every transition is covered by the baseline or has a live event. -/
def transitionsCovered (baseline : Option BaselineEntry) (canonical live : List ℤ) : Bool :=
  canonical.all fun seq =>
    decide (seq ≤ (baseline.map BaselineEntry.coverageThroughTransitionSeq).getD 0) ||
      decide (seq ∈ live)

/-- The parts of a canonical state: the task, its runs and its transitions. -/
structure CanonicalParts where
  task : List (Text × Value)
  stageRuns : List Value
  transitions : List Value

def isObject : Value → Bool
  | .obj _ => true
  | _ => false

/-- A canonical state of the expected shape. -/
def canonicalParts (state : Value) : Option CanonicalParts :=
  match state with
  | .obj items =>
    if keysAre items ["task", "stage_runs", "transitions"] then
      match getValue "task" items, getValue "stage_runs" items, getValue "transitions" items with
      | .obj task, .arr runs, .arr transitions =>
        if runs.all isObject && transitions.all isObject then some ⟨task, runs, transitions⟩
        else none
      | _, _, _ => none
    else none
  | _ => none

/-- The fold over a snapshot whose header is in order. -/
def project (pf : Platform) (items : List (Text × Value)) (trajectoryId : Text)
    (state : CanonicalParts) : Except Exc ProjectionResult := do
  let ordered := match getValue "ordered_events" items with
    | .arr entries => some entries
    | _ => none
  let (events, decoding) ← match ordered with
    | some entries => snapshotEvents pf entries
    | none => .ok ([], [diagnostic .snapshotInvalid])
  let chain := chainDiagnostics trajectoryId 1 [] none events
  match getValue "evidence_inventory" items with
  | .arr inventory => do
    let manifest ← expectedManifest pf items events
    let wrongManifest := !(getValue "manifest" items).eqv manifest ||
      !(getValue "event_head_hash" items).eqv (optText (headHash events))
    let (runs, badRuns) := canonicalRuns state.stageRuns
    let fold := events.foldl (Fold.event runs) .start
    let attempts ← fold.attempts.mapM (attemptDiagnostics pf runs)
    let unknowns ← (sortedByKey fold.invocations).mapM (invocationUnknowns events)
    let (refs, changedRefs) := eventRefs events
    let inv ← Inventory.addAll events ⟨[], unknowns.flatten, []⟩ inventory
    let task ← taskDiagnostics pf fold.lifecycle state.task
    let covered :=
      transitionsCovered fold.baseline (canonicalSeqs state.transitions) (liveSeqs events)
    let diagnostics := decoding ++ chain ++ note wrongManifest (diagnostic .snapshotInvalid) ++
      badRuns ++ fold.diagnostics ++ attempts.flatten ++ changedRefs ++ inv.diagnostics ++
      inventoryDiagnostics inv.byId refs ++ task ++ note (!covered) (diagnostic .canonicalMismatch)
    let integrity := integrityOf diagnostics inv.unknowns
    return {
      trajectoryId := trajectoryId
      inputHeadHash := getValue "event_head_hash" items
      integrityStatus := integrity
      completeness := completenessOf fold.baseline inv.unknowns integrity
      taskLifecycle := fold.lifecycle
      stageAttempts := (sortedByKey fold.attempts).map Prod.snd
      invocations := (sortedByKey fold.invocations).map Prod.snd
      sessions := fold.sessions
      evidenceGraph := (sortedByKey inv.byId).map fun p => .obj p.2
      modelVisibleBoundaryIndex := fold.boundaries
      usageByBasis := sortedByKey fold.usage
      unknowns := inv.unknowns
      diagnostics := diagnostics
      snapshotManifest := getValue "manifest" items }
  | _ => return emptyProjection .snapshotInvalid trajectoryId

/-- The checks of a snapshot's header. -/
def reduceItems (pf : Platform) (items : List (Text × Value)) : Except Exc ProjectionResult := do
  let trajectoryId := textOf (getValue "trajectory_id" items)
  if !(getValue "snapshot_version" items).eqv (.int 1) then
    return emptyProjection .snapshotVersionUnsupported trajectoryId
  else match canonicalParts (getValue "canonical_state" items) with
    | none => return emptyProjection .snapshotInvalid trajectoryId
    | some state => do
      let digest ← sha pf (.obj (items.filter fun p => p.1 ≠ ("snapshot_digest" : Text)))
      if !(getValue "snapshot_digest" items).eqv (.str digest) then
        return emptyProjection .snapshotInvalid trajectoryId
      else match trajectoryId with
        | none => return emptyProjection .snapshotInvalid none
        | some id =>
          if !("task:" : Text).isPrefixOf id then return emptyProjection .snapshotInvalid (some id)
          else do
            let created ← memberOf (getValue "created_from" items)
              ["live-acquisition", "test-fixture", "legacy-baseline"]
            if !created then return emptyProjection .snapshotInvalid (some id)
            else do
              let sensitivity ← memberOf (getValue "sensitivity" items) sensitivities
              if !sensitivity then return emptyProjection .snapshotInvalid (some id)
              else do
                let state' ← sha pf (getValue "canonical_state" items)
                if !(getValue "source_db_snapshot_hash" items).eqv (.str state') then
                  return emptyProjection .snapshotInvalid (some id)
                else project pf items id state

/-- `reduce_snapshot` -/
def reduceSnapshot (pf : Platform) (projectionVersion : ℤ) (audiencePolicy : List Text)
    (snapshot : Value) : Except Exc ProjectionResult :=
  if projectionVersion ≠ 1 then .ok (emptyProjection .snapshotVersionUnsupported none)
  else if audiencePolicy.isEmpty || audiencePolicy.any fun a => decide (a ∉ sensitivities) then
    .ok (emptyProjection .snapshotInvalid none)
  else match snapshot with
    | .obj items =>
      if keysAre items snapshotKeys then reduceItems pf items
      else .ok (emptyProjection .snapshotInvalid none)
    | _ => .ok (emptyProjection .snapshotInvalid none)

end Trajectory

end AgentOrch
