import AgentOrch.Construction.Kanban.Commands

/-!
# Quota admission

What a card may spend is judged from the newest snapshot of a pool and from the claims behind the
watermark it covers.  Nights are reserved and settled by other commands than the board's: of these
only what the schema promises is said, that a claim gets a number above all others, and that what it
was reserved with stays.
-/

namespace AgentOrch

open Py Json

namespace Kanban

/-! ## Evaluation -/

/-- `DAYTIME_RESERVE_BP`, `PER_NIGHT_CAP_BP`, `SNAPSHOT_MAX_AGE_MS`, unless they are given. -/
structure Limits where
  daytimeReserveBp : ℤ := 3500
  perNightCapBp : ℤ := 800
  snapshotMaxAgeMs : ℤ := weekMs

/-- What an evaluation explains. -/
structure Explanation where
  eligible : Bool
  reason : Option Text
  remainingBp : Option ℤ
  windows : Value
  budgetBp : Option ℤ
  estimateBp : Value
  debitedBp : Option ℤ
  snapshotId : Option Text

/-- An explanation without numbers. -/
def Explanation.refusal (snapshot : Option QuotaSnapshot) (estimate windows : Value)
    (reason : Text) : Explanation where
  eligible := false
  reason := some reason
  remainingBp := none
  windows := windows
  budgetBp := none
  estimateBp := estimate
  debitedBp := none
  snapshotId := snapshot.map QuotaSnapshot.snapshotId

/-- The values an evaluation accepts at a time. -/
def isEvaluable (s : QuotaSnapshot) (windows estimate atMs : ℤ) (limits : Limits) : Bool :=
  isPoolKey s.poolKey && decide (0 ≤ s.weeklyRemainingBp ∧ s.weeklyRemainingBp ≤ 10000) &&
    decide (0 ≤ s.coveredClaimSeq) && decide (s.observedAt ≤ s.recordedAt) &&
    decide (s.recordedAt ≤ atMs) && decide (0 ≤ windows) && decide (0 < estimate) &&
    decide (0 ≤ limits.daytimeReserveBp ∧ limits.daytimeReserveBp ≤ 10000) &&
    decide (0 < limits.perNightCapBp ∧ limits.perNightCapBp ≤ 10000) &&
    decide (0 < limits.snapshotMaxAgeMs) && decide (s.observedAt ≤ atMs) &&
    decide (s.observedAt < s.resetAt) && decide (s.resetAt ≤ s.observedAt + weekMs)

/-- The explanation of a snapshot that counts, from what is debited to it. -/
def explain (s : QuotaSnapshot) (windows estimate debit : ℤ) (limits : Limits) : Explanation :=
  let remaining := s.weeklyRemainingBp - debit
  let windows := max 1 windows
  let budget := min limits.perNightCapBp (max 0 (remaining - limits.daytimeReserveBp) / windows)
  { eligible := decide (limits.daytimeReserveBp < remaining ∧ estimate ≤ budget)
    reason :=
      if remaining ≤ limits.daytimeReserveBp then some "quota_reserve"
      else if budget < estimate then some "quota_estimate_exceeds_budget"
      else none
    remainingBp := some remaining
    windows := .int windows
    budgetBp := some budget
    estimateBp := .int estimate
    debitedBp := some debit
    snapshotId := some s.snapshotId }

/-- `evaluate_pool`, of a row and of the claims as they are read; a claim is its number and its
debit. -/
def evaluatePool (snapshot : Option QuotaSnapshot) (estimateBp remainingWindows : Value)
    (claims : List (ℤ × ℤ)) (atMs : ℤ) (limits : Limits) : Explanation :=
  let refusal := Explanation.refusal snapshot estimateBp remainingWindows
  match snapshot with
  | none => refusal "quota_missing"
  | some s =>
    match integer? remainingWindows, integer? estimateBp with
    | some windows, some estimate =>
      if !isEvaluable s windows estimate atMs limits then refusal "quota_invalid"
      else if s.resetAt ≤ atMs then refusal "quota_reset_passed"
      else if s.stale || decide (limits.snapshotMaxAgeMs ≤ atMs - s.observedAt) then
        refusal "quota_stale"
      else if claims.any fun claim => decide (claim.1 ≤ 0 ∨ claim.2 < 0) then
        refusal "quota_invalid"
      else
        let counted := claims.filter fun claim => decide (s.coveredClaimSeq < claim.1)
        explain s windows estimate (counted.map Prod.snd).sum limits
    | _, _ => refusal "quota_invalid"

/-- The pools in the order they are first named. -/
def distinctPools (requiredPools : List Text) : List Text :=
  requiredPools.foldl (fun pools pool => if pool ∈ pools then pools else pools ++ [pool]) []

/-- What `evaluate_pools` is told of the pools; each of them is evaluated at its own time where the
clock is read. -/
structure PoolInputs where
  snapshots : List (Text × QuotaSnapshot)
  estimatesByPool : List (Text × Value)
  claimsByPool : List (Text × List (ℤ × ℤ))
  remainingWindows : Value
  atMs : Text → ℤ

/-- The entry of one pool. -/
def PoolInputs.evaluate (inputs : PoolInputs) (pool : Text) : Explanation :=
  let snapshot := dictGet pool inputs.snapshots
  let estimate := getValue pool inputs.estimatesByPool
  if !isPoolKey pool then
    Explanation.refusal none estimate inputs.remainingWindows "quota_invalid"
  else match estimate with
    | .null => Explanation.refusal snapshot .null inputs.remainingWindows "quota_missing"
    | estimate => evaluatePool snapshot estimate inputs.remainingWindows
        ((dictGet pool inputs.claimsByPool).getD []) (inputs.atMs pool) {}

/-- What `evaluate_pools` answers. -/
structure PoolsExplanation where
  eligible : Bool
  pools : List (Text × Explanation)

/-- `evaluate_pools` -/
def evaluatePools (requiredPools : List Text) (inputs : PoolInputs) : PoolsExplanation :=
  let pools := distinctPools requiredPools
  let results := pools.map fun pool => (pool, inputs.evaluate pool)
  { eligible := !pools.isEmpty && results.all fun item => item.2.eligible
    pools := results }

/-! ## What is evaluated -/

/-- `ORDER BY recorded_at DESC, rowid DESC LIMIT 1`: of two rows recorded at one time the later one
counts. -/
def newer (best : Option QuotaSnapshot) (s : QuotaSnapshot) : Option QuotaSnapshot :=
  match best with
  | some b => if b.recordedAt ≤ s.recordedAt then some s else some b
  | none => some s

/-- `latest_snapshot` -/
def latestSnapshot (db : Db) (pool : Text) : Option QuotaSnapshot :=
  if isPoolKey pool then
    (db.snapshots.filter fun s => s.poolKey = pool).foldl newer none
  else none

/-- The night's claim on a pool, `None` where it has none. -/
def claimOn (pool : Text) : Value → Value
  | .obj pools => getValue pool pools
  | _ => .null

section
variable (rt : Runtime)

/-- The debit of a night on a pool. -/
def claimDebit (pool : Text) (night : Night) : Except Exc (Option ℤ) :=
  match rt.loads false night.poolClaims with
  | .error (.jsonDecodeError _) => .error (.valueError "invalid stored quota claim")
  | .error e => .error e
  | .ok pools =>
    match claimOn pool pools with
    | .null => .ok none
    | .obj claim =>
      match integer? (getValue "debit_bp" claim) with
      | some debit =>
        if debit < 0 then .error (.valueError "invalid stored quota debit") else .ok (some debit)
      | none => .error (.valueError "invalid stored quota debit")
    | _ => .error (.valueError "invalid stored quota debit")

/-- The debits of the nights, in order. -/
def gatherClaims (pool : Text) : List Night → Except Exc (List (ℤ × ℤ))
  | [] => .ok []
  | night :: rest => do
    let debit ← claimDebit rt pool night
    let claims ← gatherClaims pool rest
    return (debit.map fun debit => (night.claimSeq, debit)).toList ++ claims

/-- `claims_after_watermark` -/
def claimsAfterWatermark (db : Db) (pool : Text) (coveredClaimSeq : ℤ) :
    Except Exc (List (ℤ × ℤ)) := do
  require (isPoolKey pool && decide (0 ≤ coveredClaimSeq))
    (.valueError "invalid quota watermark input")
  gatherClaims rt pool ((db.nights.filter fun night => coveredClaimSeq < night.claimSeq).insertionSort
    fun m n => m.claimSeq ≤ n.claimSeq)

end

/-! ## Runs with nights -/

/-- What happens to the tables: a call of the handler, the reservation of a night, what later becomes
of it, and an event of another command. -/
inductive Happening
  | call (call : Call)
  | reserve (night : Night) (skipped : ℕ)
  | settle (claimSeq : ℤ) (phase : Text) (stopEvidenceEventId : Option Text)
  | note (event : Event)

/-- The largest number of a claim, `0` before the first. -/
def Db.lastClaim (db : Db) : ℤ := (db.nights.map Night.claimSeq).foldl max 0

/-- `INSERT INTO kanban_nights`: the number is a new one. -/
def Db.reserve (db : Db) (night : Night) (skipped : ℕ) : Db :=
  { db with nights := db.nights ++ [{ night with claimSeq := db.lastClaim + 1 + skipped }] }

/-- `UPDATE kanban_nights`: all but the phase and its evidence is fixed. -/
def Night.settled (night : Night) (phase : Text) (stopEvidenceEventId : Option Text) : Night :=
  { night with
    phase := phase
    stopEvidenceEventId := stopEvidenceEventId }

def Db.settle (db : Db) (claimSeq : ℤ) (phase : Text) (stopEvidenceEventId : Option Text) : Db :=
  { db with nights := db.nights.map fun night =>
      if night.claimSeq = claimSeq then night.settled phase stopEvidenceEventId else night }

/-- The tables after a happening; an event under an identity on record is refused. -/
def happen (pf : Platform) (db : Db) : Happening → Db
  | .call call => serve pf db call
  | .reserve night skipped => db.reserve night skipped
  | .settle claimSeq phase evidence => db.settle claimSeq phase evidence
  | .note event =>
    if db.events.any fun e => e.operationId = event.operationId then db else db.insertEvent event

end Kanban

end AgentOrch
