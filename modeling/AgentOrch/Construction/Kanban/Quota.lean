import AgentOrch.Construction.Kanban.Approval

/-!
# Quota commands

A snapshot is a reading of a person and may only be recorded once every claim on its pool has
verifiably stopped.  An attempt is what the quota reader of the command line reports; it moves one row
forward and never back.
-/

namespace AgentOrch

open Py Json

namespace Kanban

/-- `SNAPSHOT_ID_RE`: `^[A-Za-z0-9][A-Za-z0-9._:-]{0,127}$` -/
def isSnapshotId (t : Text) : Bool :=
  decide (t.length ≤ 128) && (t.head?.any fun c => isAsciiLetter c || isAsciiDigit c) &&
    t.all fun c => isAsciiLetter c || isAsciiDigit c || decide (c ∈ ("._:-" : Text))

/-- An integer, and no boolean. -/
def integer? : Value → Option ℤ
  | .int n => some n
  | _ => none

/-! ## Attempts of the command line -/

/-- `ERRORS` -/
def attemptErrors : List Text :=
  ["timeout", "authentication", "rpc", "protocol", "invalid_quota", "transport", "storage",
    "environment", "interrupted"]

/-- `BASE` -/
def attemptKeys : List Text := ["actor", "source", "attempted_at_ms", "outcome", "error"]

/-- `SUCCESS` -/
def readingKeys : List Text := ["observed_at_ms", "remaining_percent", "reset_at_ms"]

/-- `timestamp` -/
def timestamp (v : Value) : Option ℤ := integerIn 1 253402300799999 v

/-- `validate_attempt`, with the row the payload stands for. -/
def validateAttempt (payload : List (Text × Value)) : Option QuotaObservation := do
  guard ((getValue "actor" payload).eqv (.str "quota-updater"))
  guard ((getValue "source" payload).eqv (.str "codex-cli"))
  let attemptedAtMs ← timestamp (getValue "attempted_at_ms" payload)
  if (getValue "outcome" payload).eqv (.str "failed") then do
    guard (keysAre payload attemptKeys)
    let error ← textThat (fun t => decide (t ∈ attemptErrors)) (getValue "error" payload)
    return ⟨attemptedAtMs, some error, none⟩
  else do
    guard ((getValue "outcome" payload).eqv (.str "ok"))
    guard (keysAre payload (attemptKeys ++ readingKeys))
    guard ((getValue "error" payload).eqv .null)
    let observed ← timestamp (getValue "observed_at_ms" payload)
    let reset ← timestamp (getValue "reset_at_ms" payload)
    guard (observed ≤ attemptedAtMs)
    guard (observed < reset ∧ reset ≤ observed + weekMs)
    let remaining ← integerIn 0 100 (getValue "remaining_percent" payload)
    return ⟨attemptedAtMs, none, some ⟨observed, remaining, reset⟩⟩

/-- The attempt is no later than what the row has. -/
def isStale (row attempt : QuotaObservation) : Bool :=
  decide (attempt.attemptedAtMs ≤ row.attemptedAtMs) ||
    match attempt.reading, row.reading with
    | some new, some old => decide (new.observedAtMs ≤ old.observedAtMs)
    | _, _ => false

section
variable (rt : Runtime) (clock : Clock)

/-- An event without a card. -/
def quotaEvent (db : Db) (cmd : Command) (result : Except Text (List (Text × Value))) :
    Except Exc (Outcome × Db) := do
  let recorded ← jsonText rt (.obj cmd.payload)
  let delta ← match result with
    | .ok [] => Except.ok Cell.null
    | .ok metadata => (jsonText rt (.obj metadata)).map Cell.text
    | .error _ => .ok .null
  let verdict : Verdict := if result.isOk then .accepted else .rejected
  let reason : Cell := match result with
    | .ok _ => .null
    | .error reason => .text reason
  let event : Event := {
    operationId := cmd.operationId
    payloadHash := .text cmd.digest
    kind := cmd.verb.name
    cardId := none
    taskId := .null
    expectedRevision := .null
    resultRevision := .null
    actor := .text cmd.actor
    time := .int clock.now
    result := verdict
    reason := reason
    payload := .text recorded
    metadataDelta := delta }
  return ({
    command := cmd.verb.name
    operationId := cmd.operationId
    cardId := .null
    result := verdict
    reason := reason
    revision := .null
    recorded := true
    replayed := false
    extra := (result.toOption).getD [] }, db.insertEvent event)

/-- `attempt_command` of a validated attempt. -/
def attemptCommand (db : Db) (cmd : Command) (attempt : QuotaObservation) :
    Except Exc (Outcome × Db) :=
  if clock.now < attempt.attemptedAtMs then .error (.kanbanError "future CLI quota attempt")
  else if db.observation.any fun row => isStale row attempt then
    quotaEvent rt clock db cmd (.error "stale_attempt")
  else
    let row := { attempt with
      reading := attempt.reading.or (db.observation.bind QuotaObservation.reading) }
    if !row.satisfiesChecks then .error .integrityError
    else quotaEvent rt clock { db with observation := some row } cmd (.ok [])

/-! ## Snapshots -/

/-- What the claims on the pool say to a reading taken at a time: a claim that may still run, or
whose stop is not verified before the reading, is a reason to refuse. -/
def claimsRefuse (db : Db) (pool : Text) (observed : ℤ) : List Night → Except Stop Unit
  | [] => .ok ()
  | night :: rest => do
    let claim ← match rt.loads false night.poolClaims with
      | .ok v => Except.ok v
      | .error (.jsonDecodeError _) => .error (Stop.refused "quota_invalid")
      | .error e => .error (.raised e)
    let concerns : Bool := match claim with
      | .obj pools => decide (pool ∈ dictKeys pools)
      | _ => false
    if !concerns then claimsRefuse db pool observed rest
    else do
      let safeStop := (night.stopEvidenceEventId.bind fun id =>
        db.events.find? fun e => e.operationId = id).map Event.time
      refuseUnless (night.phase ∉ (["reserved", "submitted", "unknown"] : List Text))
        "quota_claim_active"
      refuseUnless (night.phase = ("stopped" : Text)) "quota_claim_stop_unverified"
      match safeStop with
      | none | some .null => .error (.refused "quota_claim_stop_unverified")
      | some (.int stopped) => do
        refuseUnless (stopped ≤ observed) "quota_observation_before_claim_stopped"
        claimsRefuse db pool observed rest
      | some _ => .error (.raised (.typeError "'<' not supported"))

/-- What a snapshot has to be to be recorded. -/
def validateSnapshot (db : Db) (payload : List (Text × Value)) :
    Except Stop (Text × Text × ℤ × ℤ × ℤ) := do
  let fields : Option (Text × Text × ℤ × ℤ × ℤ) := do
    let pool ← textThat isPoolKey (getValue "pool_key" payload)
    let snapshotId ← textThat isSnapshotId (getValue "snapshot_id" payload)
    let remaining ← integerIn 0 10000 (getValue "weekly_remaining_bp" payload)
    let observed ← integer? (getValue "observed_at" payload)
    let reset ← integer? (getValue "reset_at" payload)
    guard (observed ≤ clock.now)
    guard (observed < reset ∧ reset ≤ observed + weekMs)
    return (pool, snapshotId, remaining, observed, reset)
  match fields with
  | none => .error (.refused "quota_invalid")
  | some (pool, snapshotId, remaining, observed, reset) => do
    claimsRefuse rt db pool observed
      (db.nights.insertionSort fun m n => m.claimSeq ≤ n.claimSeq)
    return (pool, snapshotId, remaining, observed, reset)

/-- `snapshot_command` -/
def snapshotCommand (db : Db) (cmd : Command) : Except Exc (Outcome × Db) :=
  match validateSnapshot rt clock db cmd.payload with
  | .error (.raised e) => .error e
  | .error (.refused reason) => quotaEvent rt clock db cmd (.error reason)
  | .ok (pool, snapshotId, remaining, observed, reset) =>
    let covered := (db.nights.map Night.claimSeq).foldl max 0
    if observed < -2 ^ 63 ∨ maxRevision < reset then .error .overflowError
    else if db.snapshots.any fun s => s.snapshotId = snapshotId then
      quotaEvent rt clock db cmd (.error "snapshot_id_conflict")
    else
      let snapshot : QuotaSnapshot := {
        snapshotId := snapshotId
        poolKey := pool
        weeklyRemainingBp := remaining
        observedAt := observed
        recordedAt := clock.now
        resetAt := reset
        operator := cmd.actor
        coveredClaimSeq := covered
        stale := false
        staleEventId := none }
      quotaEvent rt clock { db with snapshots := db.snapshots ++ [snapshot] } cmd (.ok
        [("snapshot_id", .str snapshotId), ("pool_key", .str pool),
          ("covered_claim_seq", .int covered)])

/-- The snapshot, no longer trusted. -/
def QuotaSnapshot.invalidated (snapshot : QuotaSnapshot) (operationId : Text) : QuotaSnapshot :=
  { snapshot with
    stale := true
    staleEventId := some operationId }

/-- `invalidate_command` -/
def invalidateCommand (db : Db) (cmd : Command) : Except Exc (Outcome × Db) :=
  let named (snapshot : QuotaSnapshot) : Bool := match getValue "snapshot_id" cmd.payload with
    | .str id => !id.isEmpty && decide (snapshot.snapshotId = id)
    | _ => false
  match db.snapshots.find? named with
  | none => quotaEvent rt clock db cmd (.error "quota_missing")
  | some row =>
    if row.stale then quotaEvent rt clock db cmd (.error "quota_stale")
    else
      let lowered := db.snapshots.map fun s =>
        if named s && !s.stale then s.invalidated cmd.operationId else s
      quotaEvent rt clock { db with snapshots := lowered } cmd (.ok
        [("snapshot_id", .str row.snapshotId), ("pool_key", .str row.poolKey),
          ("stale", .bool true)])

end

end Kanban

end AgentOrch
