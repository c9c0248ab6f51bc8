import AgentOrch.Construction.Kanban.Admission
import AgentOrch.Properties.CardJournal
import Mathlib.Algebra.BigOperators.Group.List.Basic
import Mathlib.Algebra.Order.BigOperators.Group.List
import Mathlib.Algebra.Order.Ring.Int

/-!
# The quota watermark

A snapshot is accepted once every claim on its pool has verifiably stopped, and covers every claim
there is.  What comes later has a greater number, so its debit is never lost; and as long as the
clock does not show less than what a snapshot of the pool was recorded at, the snapshot accepted last
is the one that counts.
-/

namespace AgentOrch

open Py Json

namespace Kanban

/-! ## What a call does to the quota tables -/

/-- The row of a snapshot that is accepted. -/
def snapshotRow (clock : Clock) (db : Db) (cmd : Command) (pool snapshotId : Text)
    (remaining observed reset : ℤ) : QuotaSnapshot where
  snapshotId := snapshotId
  poolKey := pool
  weeklyRemainingBp := remaining
  observedAt := observed
  recordedAt := clock.now
  resetAt := reset
  operator := cmd.actor
  coveredClaimSeq := db.lastClaim
  stale := false
  staleEventId := none

/-- The call is a new quota-snapshot command that passes every check, with a fresh identity and
values that can be stored and written. -/
structure Records (pf : Platform) (db : Db) (call : Call) (cmd : Command) (pool snapshotId : Text)
    (remaining observed reset : ℤ) : Prop where
  read : readRequest pf call.request = .ok cmd
  verb : cmd.verb = .quotaSnapshot
  isNew : cmd.operationId ∉ db.events.map Event.operationId
  valid : validateSnapshot pf.toRuntime call.env.clock db cmd.payload =
    .ok (pool, snapshotId, remaining, observed, reset)
  stored : -2 ^ 63 ≤ observed ∧ reset ≤ maxRevision
  unused : snapshotId ∉ db.snapshots.map QuotaSnapshot.snapshotId
  payload : ∃ text, jsonText pf.toRuntime (.obj cmd.payload) = .ok text
  delta : ∃ text, jsonText pf.toRuntime (.obj [("snapshot_id", .str snapshotId),
    ("pool_key", .str pool), ("covered_claim_seq", .int db.lastClaim)]) = .ok text

/-- How the snapshots may change in one step: not at all, by a new row, or by lost trust. -/
inductive SnapshotStep (pf : Platform) (db : Db) (call : Call) (after : Db) : Prop
  | same (h : after.snapshots = db.snapshots)
  | recorded {cmd : Command} {pool snapshotId : Text} {remaining observed reset : ℤ}
      (hrecords : Records pf db call cmd pool snapshotId remaining observed reset)
      (h : after.snapshots = db.snapshots ++
        [snapshotRow call.env.clock db cmd pool snapshotId remaining observed reset])
  | lowered {named : QuotaSnapshot → Bool} {operationId : Text}
      (h : after.snapshots =
        db.snapshots.map fun s => if named s then s.invalidated operationId else s)

section
variable {pf : Platform} {env : Environment} {db db' : Db} {cmd : Command} {out : Outcome}

lemma quotaEvent_tables {rt : Runtime} {clock : Clock} {before : Db}
    {result : Except Text (List (Text × Value))}
    (h : quotaEvent rt clock before cmd result = .ok (out, db')) :
    db'.snapshots = before.snapshots ∧ db'.nights = before.nights ∧
      ∃ text, jsonText rt (.obj cmd.payload) = .ok text := by
  rcases result with reason | _ | ⟨first, rest⟩
  all_goals
    simp only [quotaEvent, bind_eq_ok] at h
    obtain ⟨recorded, hrecorded, delta, -, h⟩ := h
    simp only [pure, Except.pure, Except.ok.injEq, Prod.mk.injEq] at h
    obtain ⟨rfl, rfl⟩ := h
    exact ⟨rfl, rfl, recorded, hrecorded⟩

/-- Only the quota commands touch the snapshots. -/
lemma snapshots_of_effect {event : Event} (heffect : Effect pf env db cmd event db')
    (hverb : ¬(cmd.verb = .quotaCliAttempt ∨ cmd.verb = .quotaSnapshot ∨
      cmd.verb = .quotaInvalidate)) : db'.snapshots = db.snapshots := by
  cases heffect with
  | rejected => rfl
  | quota h => exact absurd h hverb
  | created => rfl
  | moved => rfl

/-- No command touches the nights. -/
lemma nights_of_effect {event : Event} (heffect : Effect pf env db cmd event db') :
    db'.nights = db.nights := by
  cases heffect with
  | rejected => rfl
  | quota _ _ _ _ _ _ _ _ hnights => exact hnights
  | created => rfl
  | moved => rfl

lemma attempt_snapshots {attempt : QuotaObservation}
    (h : attemptCommand pf.toRuntime env.clock db cmd attempt = .ok (out, db')) :
    db'.snapshots = db.snapshots := by
  unfold attemptCommand at h
  split at h
  · exact absurd h (by simp)
  · split at h
    · exact (quotaEvent_tables h).1
    · dsimp only at h
      split at h
      · exact absurd h (by simp)
      · exact (quotaEvent_tables h).1

lemma invalidate_snapshots
    (h : invalidateCommand pf.toRuntime env.clock db cmd = .ok (out, db')) :
    db'.snapshots = db.snapshots ∨ ∃ named : QuotaSnapshot → Bool, db'.snapshots =
      db.snapshots.map fun s => if named s then s.invalidated cmd.operationId else s := by
  unfold invalidateCommand at h
  dsimp only at h
  split at h
  · exact .inl (quotaEvent_tables h).1
  · split at h
    · exact .inl (quotaEvent_tables h).1
    · exact .inr ⟨_, (quotaEvent_tables h).1⟩

/-- A snapshot command that passes its checks adds its row. -/
lemma snapshotCommand_of_valid {pool snapshotId : Text} {remaining observed reset : ℤ}
    (hvalid : validateSnapshot pf.toRuntime env.clock db cmd.payload =
      .ok (pool, snapshotId, remaining, observed, reset))
    (hstored : -2 ^ 63 ≤ observed ∧ reset ≤ maxRevision)
    (hunused : snapshotId ∉ db.snapshots.map QuotaSnapshot.snapshotId) :
    snapshotCommand pf.toRuntime env.clock db cmd =
      quotaEvent pf.toRuntime env.clock { db with snapshots := db.snapshots ++
        [snapshotRow env.clock db cmd pool snapshotId remaining observed reset] } cmd
        (.ok [("snapshot_id", .str snapshotId), ("pool_key", .str pool),
          ("covered_claim_seq", .int db.lastClaim)]) := by
  have hany : (db.snapshots.any fun s => s.snapshotId = snapshotId) = false := by
    simp only [List.any_eq_false, decide_eq_true_eq]
    intro s hs heq
    exact hunused (List.mem_map.mpr ⟨s, hs, heq⟩)
  have hrange : ¬(observed < -2 ^ 63 ∨ maxRevision < reset) := by omega
  simp only [snapshotCommand, hvalid, hany, hrange, ↓reduceIte, Bool.false_eq_true]
  rfl

lemma quotaEvent_delta {rt : Runtime} {clock : Clock} {before : Db}
    {first : Text × Value} {rest : List (Text × Value)}
    (h : quotaEvent rt clock before cmd (.ok (first :: rest)) = .ok (out, db')) :
    ∃ text, jsonText rt (.obj (first :: rest)) = .ok text := by
  simp only [quotaEvent, bind_eq_ok] at h
  obtain ⟨_, _, _, hdelta, _⟩ := h
  cases htext : jsonText rt (.obj (first :: rest)) with
  | ok text => exact ⟨text, rfl⟩
  | error e =>
      rw [htext] at hdelta
      cases hdelta

/-- A snapshot command that is executed adds its row, or is refused and adds none. -/
lemma snapshot_snapshots (h : snapshotCommand pf.toRuntime env.clock db cmd = .ok (out, db')) :
    db'.snapshots = db.snapshots ∨ ∃ pool snapshotId remaining observed reset,
      validateSnapshot pf.toRuntime env.clock db cmd.payload =
        .ok (pool, snapshotId, remaining, observed, reset) ∧
      (-2 ^ 63 ≤ observed ∧ reset ≤ maxRevision) ∧
      snapshotId ∉ db.snapshots.map QuotaSnapshot.snapshotId ∧
      db'.snapshots = db.snapshots ++
        [snapshotRow env.clock db cmd pool snapshotId remaining observed reset] := by
  cases hvalid : validateSnapshot pf.toRuntime env.clock db cmd.payload with
  | error stop =>
      cases stop with
      | raised e => simp [snapshotCommand, hvalid] at h
      | refused reason =>
          simp only [snapshotCommand, hvalid] at h
          exact .inl (quotaEvent_tables h).1
  | ok fields =>
      obtain ⟨pool, snapshotId, remaining, observed, reset⟩ := fields
      by_cases hrange : observed < -2 ^ 63 ∨ maxRevision < reset
      · simp only [snapshotCommand, hvalid, hrange, ↓reduceIte] at h
        exact absurd h (by simp)
      · by_cases hunused : snapshotId ∈ db.snapshots.map QuotaSnapshot.snapshotId
        · obtain ⟨s, hs, heq⟩ := List.mem_map.mp hunused
          have hany : (db.snapshots.any fun s => s.snapshotId = snapshotId) = true :=
            List.any_eq_true.mpr ⟨s, hs, by simpa using heq⟩
          simp only [snapshotCommand, hvalid, hrange, hany, ↓reduceIte] at h
          exact .inl (quotaEvent_tables h).1
        · have hstored : -2 ^ 63 ≤ observed ∧ reset ≤ maxRevision := by omega
          rw [snapshotCommand_of_valid hvalid hstored hunused] at h
          exact .inr ⟨pool, snapshotId, remaining, observed, reset, rfl, hstored, hunused,
            (quotaEvent_tables h).1⟩

end

section
variable {pf : Platform} {db : Db} {call : Call}

/-- What is executed is answered from the journal, or dispatched for the first time. -/
lemma dispatch_of_execute {env : Environment} {cmd : Command} {out : Outcome} {db' : Db}
    (h : execute pf env db cmd = .ok (out, db')) :
    db' = db ∨ cmd.operationId ∉ db.events.map Event.operationId ∧
      dispatch pf env db cmd = .ok (out, db') := by
  unfold execute at h
  split at h
  · obtain ⟨-, rfl⟩ := Prod.mk.inj (Except.ok.inj h)
    exact .inl rfl
  · rename_i hnone
    refine .inr ⟨?_, h⟩
    intro hmem
    obtain ⟨event, hevent, hid⟩ := List.mem_map.mp hmem
    have := List.find?_eq_none.mp hnone event hevent
    simp [hid] at this

lemma serve_nights : (serve pf db call).nights = db.nights := by
  unfold serve
  split
  · rename_i out after h
    obtain ⟨cmd, -, hexecute⟩ := bind_eq_ok.mp h
    rcases execute_cases hexecute with ⟨-, -, -, -, rfl⟩ | ⟨-, event, heffect, -⟩
    · rfl
    · exact nights_of_effect heffect
  · rfl

lemma serve_snapshots : SnapshotStep pf db call (serve pf db call) := by
  unfold serve
  split
  · rename_i out after h
    obtain ⟨cmd, hread, hexecute⟩ := bind_eq_ok.mp h
    rcases dispatch_of_execute hexecute with rfl | ⟨hnew, hdispatch⟩
    · exact .same rfl
    · obtain ⟨event, heffect, -⟩ := dispatch_effect hdispatch
      by_cases hverb : cmd.verb = .quotaCliAttempt ∨ cmd.verb = .quotaSnapshot ∨
          cmd.verb = .quotaInvalidate
      · rcases hverb with hverb | hverb | hverb
        · simp only [dispatch, hverb] at hdispatch
          split at hdispatch
          · exact .same (attempt_snapshots hdispatch)
          · exact absurd hdispatch (by simp)
        · simp only [dispatch, hverb] at hdispatch
          rcases snapshot_snapshots hdispatch with h |
            ⟨pool, snapshotId, remaining, observed, reset, hvalid, hstored, hunused, h⟩
          · exact .same h
          · have hquota := hdispatch
            rw [snapshotCommand_of_valid hvalid hstored hunused] at hquota
            obtain ⟨-, -, hpayload⟩ := quotaEvent_tables hquota
            exact .recorded ⟨hread, hverb, hnew, hvalid, hstored, hunused, hpayload,
              quotaEvent_delta hquota⟩ h
        · simp only [dispatch, hverb] at hdispatch
          rcases invalidate_snapshots hdispatch with h | ⟨named, h⟩
          · exact .same h
          · exact .lowered h
      · exact .same (snapshots_of_effect heffect hverb)
  · exact .same rfl

/-- A call that records a snapshot adds its row. -/
lemma serve_of_records {cmd : Command} {pool snapshotId : Text} {remaining observed reset : ℤ}
    (h : Records pf db call cmd pool snapshotId remaining observed reset) :
    (serve pf db call).snapshots = db.snapshots ++
      [snapshotRow call.env.clock db cmd pool snapshotId remaining observed reset] := by
  obtain ⟨payload, hpayload⟩ := h.payload
  obtain ⟨delta, hdelta⟩ := h.delta
  have hfind : db.events.find? (fun e => e.operationId = cmd.operationId) = none := by
    rw [List.find?_eq_none]
    intro e he heq
    exact h.isNew (List.mem_map.mpr ⟨e, he, by simpa using heq⟩)
  have hexecute : handleRequest pf call.env db call.request =
      snapshotCommand pf.toRuntime call.env.clock db cmd := by
    have hstep : handleRequest pf call.env db call.request = execute pf call.env db cmd := by
      rw [handleRequest, h.read]
      rfl
    rw [hstep, execute, hfind]
    simp only [dispatch, h.verb]
  rw [serve, hexecute, snapshotCommand_of_valid h.valid h.stored h.unused]
  simp only [quotaEvent, hpayload, hdelta]
  rfl

end

/-! ## What an accepted snapshot stands for -/

/-- The night's stop is evidenced by an event no later than a time. -/
def Db.stoppedBy (db : Db) (night : Night) (time : ℤ) : Prop :=
  night.phase = ("stopped" : Text) ∧ ∃ stopped, stopped ≤ time ∧
    ((night.stopEvidenceEventId.bind fun id =>
      db.events.find? fun e => e.operationId = id).map Event.time) = some (.int stopped)

/-- What the night debits to the pool. -/
def debitOn (rt : Runtime) (pool : Text) (night : Night) : ℤ :=
  match claimDebit rt pool night with
  | .ok (some debit) => debit
  | _ => 0

/-- The claims name the pool. -/
def concerns (pool : Text) : Value → Bool
  | .obj pools => decide (pool ∈ dictKeys pools)
  | _ => false

lemma claimOn_of_not_concerns {pool : Text} {claim : Value} (h : concerns pool claim = false) :
    claimOn pool claim = .null := by
  cases claim with
  | obj pools =>
      have hget : dictGet pool pools = none := by
        rw [← Option.not_isSome_iff_eq_none, dictGet_isSome]
        simpa [concerns] using h
      simp [claimOn, getValue, hget]
  | _ => rfl

/-- What passes a claim on the pool, once the claims of its night are read. -/
lemma claimsRefuse_cons {rt : Runtime} {db : Db} {pool : Text} {observed : ℤ} {night : Night}
    {rest : List Night} {claim : Value} (hloads : rt.loads false night.poolClaims = .ok claim)
    (h : claimsRefuse rt db pool observed (night :: rest) = .ok ()) :
    (db.stoppedBy night observed ∨ claimOn pool claim = .null) ∧
      claimsRefuse rt db pool observed rest = .ok () := by
  unfold claimsRefuse at h
  rw [hloads] at h
  cases hconcerns : concerns pool claim with
  | false =>
      refine ⟨.inr (claimOn_of_not_concerns hconcerns), ?_⟩
      change (if !(concerns pool claim) then _ else _) = _ at h
      rwa [hconcerns] at h
  | true =>
      change (if !(concerns pool claim) then _ else _) = _ at h
      rw [hconcerns] at h
      simp only [Bool.not_true, Bool.false_eq_true, ↓reduceIte, stop_bind_eq_ok,
        refuseUnless_eq_ok, decide_eq_true_eq] at h
      obtain ⟨-, -, -, hphase, h⟩ := h
      split at h
      · cases h
      · cases h
      · rename_i stopped hstopped
        obtain ⟨_, hle, hrest⟩ := stop_bind_eq_ok.mp h
        exact ⟨.inl ⟨hphase, stopped, by simpa using hle, hstopped⟩, hrest⟩
      · cases h

/-- A reading passes the claims when each of them leaves the pool alone or has stopped before. -/
lemma stopped_of_claimsRefuse {rt : Runtime} {db : Db} {pool : Text} {observed : ℤ}
    {nights : List Night} (h : claimsRefuse rt db pool observed nights = .ok ()) :
    ∀ night ∈ nights, db.stoppedBy night observed ∨ claimDebit rt pool night = .ok none := by
  induction nights with
  | nil => simp
  | cons night rest ih =>
      cases hloads : rt.loads false night.poolClaims with
      | error e =>
          unfold claimsRefuse at h
          rw [hloads] at h
          split at h
          · rename_i hok
            cases hok
          · cases h
          · cases h
      | ok claim =>
          obtain ⟨hclaim, hrest⟩ := claimsRefuse_cons hloads h
          intro other hother
          rcases List.mem_cons.mp hother with rfl | hother
          · refine hclaim.imp_right fun hnull => ?_
            simp [claimDebit, hloads, hnull]
          · exact ih hrest other hother

/-! ## What is debited -/

lemma debitOn_nonneg (rt : Runtime) (pool : Text) (night : Night) : 0 ≤ debitOn rt pool night := by
  unfold debitOn
  split
  · rename_i debit h
    unfold claimDebit at h
    split at h
    · cases h
    · cases h
    · split at h
      · cases h
      · split at h
        · split at h
          · cases h
          · rename_i hneg
            obtain rfl := Option.some.inj (Except.ok.inj h)
            omega
        · cases h
      · cases h
  · exact le_refl 0

/-- What is gathered are the debits of the nights. -/
lemma gatherClaims_spec {rt : Runtime} {pool : Text} {nights : List Night}
    {claims : List (ℤ × ℤ)} (h : gatherClaims rt pool nights = .ok claims) :
    (claims.map Prod.snd).sum = (nights.map (debitOn rt pool)).sum ∧
      ∀ claim ∈ claims, ∃ night ∈ nights, night.claimSeq = claim.1 := by
  induction nights generalizing claims with
  | nil =>
      obtain rfl := Except.ok.inj h
      simp
  | cons night rest ih =>
      simp only [gatherClaims, bind_eq_ok] at h
      obtain ⟨debit, hdebit, more, hmore, h⟩ := h
      obtain rfl := Except.ok.inj h
      obtain ⟨hsum, hmem⟩ := ih hmore
      cases debit with
      | none =>
          refine ⟨by simp [hsum, debitOn, hdebit], ?_⟩
          intro claim hclaim
          obtain ⟨other, hother, hseq⟩ := hmem claim (by simpa using hclaim)
          exact ⟨other, List.mem_cons_of_mem _ hother, hseq⟩
      | some debit =>
          refine ⟨by simp [hsum, debitOn, hdebit], ?_⟩
          intro claim hclaim
          rcases List.mem_cons.mp hclaim with rfl | hclaim
          · exact ⟨night, List.mem_cons_self .., rfl⟩
          · obtain ⟨other, hother, hseq⟩ := hmem claim hclaim
            exact ⟨other, List.mem_cons_of_mem _ hother, hseq⟩

/-- The claims behind a watermark are debited in full. -/
lemma claimsAfterWatermark_spec {rt : Runtime} {db : Db} {pool : Text} {covered : ℤ}
    {claims : List (ℤ × ℤ)} (h : claimsAfterWatermark rt db pool covered = .ok claims) :
    (claims.map Prod.snd).sum =
        ((db.nights.filter fun night => covered < night.claimSeq).map (debitOn rt pool)).sum ∧
      ∀ claim ∈ claims, covered < claim.1 := by
  simp only [claimsAfterWatermark, bind_eq_ok] at h
  obtain ⟨-, -, h⟩ := h
  obtain ⟨hsum, hmem⟩ := gatherClaims_spec h
  have hperm := List.perm_insertionSort (fun m n : Night => m.claimSeq ≤ n.claimSeq)
    (db.nights.filter fun night => covered < night.claimSeq)
  refine ⟨hsum.trans (hperm.map _).sum_eq, ?_⟩
  intro claim hclaim
  obtain ⟨night, hnight, hseq⟩ := hmem claim hclaim
  have := (List.mem_filter.mp (hperm.subset hnight)).2
  rw [← hseq]
  simpa using this

/-- An evaluation that computes what remains is of a trusted row, and takes all it is given. -/
lemma evaluatePool_remaining {s : QuotaSnapshot} {estimate windows : Value}
    {claims : List (ℤ × ℤ)} {atMs remaining : ℤ} {limits : Limits}
    (hclaims : ∀ claim ∈ claims, s.coveredClaimSeq < claim.1)
    (h : (evaluatePool (some s) estimate windows claims atMs limits).remainingBp =
      some remaining) :
    s.stale = false ∧ remaining = s.weeklyRemainingBp - (claims.map Prod.snd).sum := by
  have hall : (claims.filter fun claim => decide (s.coveredClaimSeq < claim.1)) = claims :=
    List.filter_eq_self.mpr fun claim hclaim => by simpa using hclaims claim hclaim
  unfold evaluatePool at h
  dsimp only at h
  split at h
  · split at h
    · cases h
    · split at h
      · cases h
      · split at h
        · cases h
        · split at h
          · cases h
          · rename_i hstale _
            simp only [explain, hall, Option.some.injEq] at h
            refine ⟨?_, h.symm⟩
            simp only [Bool.or_eq_true, not_or, Bool.not_eq_true] at hstale
            exact hstale.1
  · cases h

/-! ## The current row -/

/-- A row recorded no earlier than the rows before it is the one that counts. -/
lemma foldl_newer_concat {rows : List QuotaSnapshot} {s : QuotaSnapshot}
    (h : ∀ row ∈ rows, row.recordedAt ≤ s.recordedAt) (best : Option QuotaSnapshot)
    (hbest : ∀ b, best = some b → b.recordedAt ≤ s.recordedAt) :
    (rows ++ [s]).foldl newer best = some s := by
  induction rows generalizing best with
  | nil =>
      cases best with
      | none => rfl
      | some b => simp [newer, hbest b rfl]
  | cons row rows ih =>
      apply ih (fun r hr => h r (List.mem_cons_of_mem _ hr))
      intro b hb
      unfold newer at hb
      split at hb
      · rename_i b'
        split at hb
        · obtain rfl := Option.some.inj hb
          exact h _ (List.mem_cons_self ..)
        · obtain rfl := Option.some.inj hb
          exact hbest _ rfl
      · obtain rfl := Option.some.inj hb
        exact h _ (List.mem_cons_self ..)

/-- What counts was recorded no earlier than any row. -/
lemma recordedAt_le_of_foldl_newer {rows : List QuotaSnapshot} {best : Option QuotaSnapshot}
    {current : QuotaSnapshot} (h : rows.foldl newer best = some current) :
    (∀ row ∈ rows, row.recordedAt ≤ current.recordedAt) ∧
      ∀ b, best = some b → b.recordedAt ≤ current.recordedAt := by
  induction rows generalizing best with
  | nil =>
      obtain rfl : best = some current := h
      simp
  | cons row rows ih =>
      obtain ⟨hrows, hnext⟩ := ih h
      have hstep : row.recordedAt ≤ current.recordedAt ∧
          ∀ b, best = some b → b.recordedAt ≤ current.recordedAt := by
        cases best with
        | none => exact ⟨hnext row rfl, by simp⟩
        | some b =>
            by_cases hle : b.recordedAt ≤ row.recordedAt
            · have hrow := hnext row (by simp [newer, hle])
              refine ⟨hrow, ?_⟩
              intro b' hb'
              rw [← Option.some.inj hb']
              exact hle.trans hrow
            · have hb := hnext b (by simp [newer, hle])
              refine ⟨by omega, ?_⟩
              intro b' hb'
              rw [← Option.some.inj hb']
              exact hb
      refine ⟨?_, hstep.2⟩
      intro r hr
      rcases List.mem_cons.mp hr with rfl | hr
      · exact hstep.1
      · exact hrows r hr

/-! ## The ledger of a run -/

/-- A snapshot as it was accepted, with the tables it was accepted on. -/
structure AcceptedReading where
  snapshot : QuotaSnapshot
  before : Db

/-- The tables of a run, the snapshots accepted so far, oldest first, and the identities of all that
were found stale. -/
structure Ledger where
  db : Db
  accepted : List AcceptedReading
  lowered : List Text

/-- The row a step added, if any. -/
def recordedBy (before after : Db) : Option QuotaSnapshot :=
  if before.snapshots.length < after.snapshots.length then after.snapshots.getLast? else none

def Ledger.step (pf : Platform) (ledger : Ledger) (happening : Happening) : Ledger :=
  let after := happen pf ledger.db happening
  { db := after
    accepted := ledger.accepted ++
      ((recordedBy ledger.db after).map fun s => ⟨s, ledger.db⟩).toList
    lowered := ledger.lowered ++
      (after.snapshots.filter QuotaSnapshot.stale).map QuotaSnapshot.snapshotId }

def Ledger.run (pf : Platform) (ledger : Ledger) (happenings : List Happening) : Ledger :=
  happenings.foldl (Ledger.step pf) ledger

def Ledger.fresh (tasks : List TaskRow) : Ledger := ⟨Db.fresh tasks, [], []⟩

/-- The most recently accepted observation of a pool. -/
def Ledger.newest (ledger : Ledger) (pool : Text) : Option AcceptedReading :=
  (ledger.accepted.filter fun o => o.snapshot.poolKey = pool).getLast?

/-- What was read, whether it is still trusted or not. -/
def QuotaSnapshot.reading (s : QuotaSnapshot) : QuotaSnapshot :=
  { s with
    stale := false
    staleEventId := none }

/-- The night's claim had verifiably stopped before the observation, when it was accepted. -/
def AcceptedReading.hadStopped (o : AcceptedReading) (night : Night) : Prop :=
  ∃ earlier ∈ o.before.nights, earlier.claimSeq = night.claimSeq ∧
    o.before.stoppedBy earlier o.snapshot.observedAt

open Classical in
/-- The debits on the observation's pool of all claims that had not. -/
noncomputable def AcceptedReading.openDebits (rt : Runtime) (o : AcceptedReading) (nights : List Night) :
    ℤ :=
  ((nights.filter fun night => ¬o.hadStopped night).map (debitOn rt o.snapshot.poolKey)).sum

/-- The row that counts for a pool is the observation accepted last, and what an evaluation of it
leaves, with the claims behind its watermark, is no more than that observation less the debits of
every claim that had not stopped before it; a row found stale once leaves nothing. -/
structure Sound (rt : Runtime) (ledger : Ledger) (pool : Text) : Prop where
  current : (latestSnapshot ledger.db pool).map QuotaSnapshot.reading =
    (ledger.newest pool).map AcceptedReading.snapshot
  bounded : ∀ row claims, latestSnapshot ledger.db pool = some row →
    claimsAfterWatermark rt ledger.db pool row.coveredClaimSeq = .ok claims →
    ∀ estimate windows atMs limits remaining,
      (evaluatePool (some row) estimate windows claims atMs limits).remainingBp = some remaining →
      row.snapshotId ∉ ledger.lowered ∧ ∃ o, ledger.newest pool = some o ∧
        remaining ≤ o.snapshot.weeklyRemainingBp - o.openDebits rt ledger.db.nights

/-! ### What is true of every run -/

/-- What a night was reserved with. -/
def Night.claim (night : Night) : ℤ × Text := (night.claimSeq, night.poolClaims)

/-- What an accepted observation knows of the nights: those before it are covered and leave its pool
alone or had stopped; those after it are not covered. -/
structure AcceptedReading.Covers (rt : Runtime) (o : AcceptedReading) (db : Db) : Prop where
  watermark : o.snapshot.coveredClaimSeq = o.before.lastClaim
  stopped : ∀ night ∈ o.before.nights, o.before.stoppedBy night o.snapshot.observedAt ∨
    claimDebit rt o.snapshot.poolKey night = .ok none
  later : ∃ later, db.nights.map Night.claim = o.before.nights.map Night.claim ++ later ∧
    ∀ claim ∈ later, o.snapshot.coveredClaimSeq < claim.1

structure Ledger.Grounded (rt : Runtime) (ledger : Ledger) : Prop where
  readings : ledger.db.snapshots.map QuotaSnapshot.reading =
    ledger.accepted.map AcceptedReading.snapshot
  nodup : (ledger.db.snapshots.map QuotaSnapshot.snapshotId).Nodup
  known : ∀ id ∈ ledger.lowered, id ∈ ledger.db.snapshots.map QuotaSnapshot.snapshotId
  lowered : ∀ s ∈ ledger.db.snapshots, s.snapshotId ∈ ledger.lowered → s.stale = true
  covers : ∀ o ∈ ledger.accepted, o.Covers rt ledger.db

lemma le_foldl_max (l : List ℤ) : ∀ a, a ≤ l.foldl max a ∧ ∀ x ∈ l, x ≤ l.foldl max a := by
  induction l with
  | nil => simp
  | cons b l ih =>
      intro a
      obtain ⟨hle, hmem⟩ := ih (max a b)
      refine ⟨(le_max_left a b).trans hle, ?_⟩
      intro x hx
      rcases List.mem_cons.mp hx with rfl | hx
      · exact (le_max_right a x).trans hle
      · exact hmem x hx

lemma Db.claimSeq_le_lastClaim {db : Db} {night : Night} (h : night ∈ db.nights) :
    night.claimSeq ≤ db.lastClaim :=
  (le_foldl_max _ 0).2 _ (List.mem_map.mpr ⟨night, h, rfl⟩)

/-- A watermark never passes the last claim. -/
lemma AcceptedReading.Covers.le_lastClaim {rt : Runtime} {o : AcceptedReading} {db : Db}
    (h : o.Covers rt db) : o.snapshot.coveredClaimSeq ≤ db.lastClaim := by
  obtain ⟨later, hclaims, -⟩ := h.later
  have hseqs : db.nights.map Night.claimSeq =
      o.before.nights.map Night.claimSeq ++ later.map Prod.fst := by
    have := congrArg (List.map Prod.fst) hclaims
    simpa [Night.claim, Function.comp_def] using this
  rw [h.watermark, Db.lastClaim, Db.lastClaim, hseqs, List.foldl_append]
  exact (le_foldl_max _ _).1

/-- A step of the nights keeps what was covered: what they were reserved with stays, and new numbers
are larger. -/
lemma AcceptedReading.Covers.of_nights {rt : Runtime} {o : AcceptedReading} {db after : Db}
    (h : o.Covers rt db) {new : List (ℤ × Text)}
    (hnights : after.nights.map Night.claim = db.nights.map Night.claim ++ new)
    (hnew : ∀ claim ∈ new, db.lastClaim < claim.1) : o.Covers rt after := by
  obtain ⟨later, hclaims, hlater⟩ := h.later
  refine ⟨h.watermark, h.stopped, later ++ new, ?_, ?_⟩
  · rw [hnights, hclaims, List.append_assoc]
  · intro claim hclaim
    rcases List.mem_append.mp hclaim with hclaim | hclaim
    · exact hlater claim hclaim
    · exact lt_of_le_of_lt h.le_lastClaim (hnew claim hclaim)

lemma happen_nights (pf : Platform) (db : Db) (happening : Happening) :
    ∃ new, (happen pf db happening).nights.map Night.claim = db.nights.map Night.claim ++ new ∧
      ∀ claim ∈ new, db.lastClaim < claim.1 := by
  cases happening with
  | call call => exact ⟨[], by simp [happen, serve_nights], by simp⟩
  | reserve night skipped =>
      refine ⟨[(db.lastClaim + 1 + skipped, night.poolClaims)], ?_, ?_⟩
      · simp [happen, Db.reserve, Night.claim]
      · simp only [List.mem_singleton, forall_eq]
        omega
  | settle claimSeq phase evidence =>
      refine ⟨[], ?_, by simp⟩
      simp only [happen, Db.settle, List.map_map, List.append_nil]
      apply List.map_congr_left
      intro night _
      simp only [Function.comp_apply]
      split <;> rfl
  | note event =>
      refine ⟨[], ?_, by simp⟩
      simp only [happen, List.append_nil]
      split <;> rfl

/-- What a snapshot that is recorded passed. -/
lemma Records.claims {pf : Platform} {db : Db} {call : Call} {cmd : Command}
    {pool snapshotId : Text} {remaining observed reset : ℤ}
    (h : Records pf db call cmd pool snapshotId remaining observed reset) :
    isPoolKey pool = true ∧
      claimsRefuse pf.toRuntime db pool observed
        (db.nights.insertionSort fun m n => m.claimSeq ≤ n.claimSeq) = .ok () := by
  have hvalid := h.valid
  unfold validateSnapshot at hvalid
  dsimp only at hvalid
  split at hvalid
  · cases hvalid
  · rename_i fields hfields
    obtain ⟨_, hclaims, hvalid⟩ := stop_bind_eq_ok.mp hvalid
    simp only [pure, Except.pure, Except.ok.injEq, Prod.mk.injEq] at hvalid
    obtain ⟨rfl, rfl, rfl, rfl, rfl⟩ := hvalid
    refine ⟨?_, hclaims⟩
    simp only [Option.bind_eq_bind, Option.bind_eq_some_iff, Option.guard_eq_some'] at hfields
    obtain ⟨_, hpool, _, _, _, _, _, _, _, _, _, _, _, _, hfields⟩ := hfields
    obtain ⟨rfl, -⟩ := Prod.mk.inj (Option.some.inj hfields)
    exact (textThat_eq_some hpool).2

lemma Records.covers {pf : Platform} {db : Db} {call : Call} {cmd : Command}
    {pool snapshotId : Text} {remaining observed reset : ℤ}
    (h : Records pf db call cmd pool snapshotId remaining observed reset) :
    (⟨snapshotRow call.env.clock db cmd pool snapshotId remaining observed reset, db⟩ :
      AcceptedReading).Covers pf.toRuntime (serve pf db call) := by
  refine ⟨rfl, ?_, [], ?_, by simp⟩
  · intro night hnight
    have hperm := List.perm_insertionSort (fun m n : Night => m.claimSeq ≤ n.claimSeq) db.nights
    exact stopped_of_claimsRefuse h.claims.2 night (hperm.symm.subset hnight)
  · rw [serve_nights, List.append_nil]

/-- A step that leaves the number of snapshots alone records none. -/
lemma recordedBy_of_length {before after : Db}
    (h : after.snapshots.length = before.snapshots.length) : recordedBy before after = none := by
  simp [recordedBy, h]

lemma recordedBy_concat {before after : Db} {s : QuotaSnapshot}
    (h : after.snapshots = before.snapshots ++ [s]) : recordedBy before after = some s := by
  simp [recordedBy, h]

/-- What a step does to the snapshots, and what it records. -/
inductive SnapshotChange (pf : Platform) (db : Db) (happening : Happening) (after : Db) : Prop
  | kept {f : QuotaSnapshot → QuotaSnapshot} (h : after.snapshots = db.snapshots.map f)
      (hf : ∀ s, f s = s ∨ ∃ operationId, f s = s.invalidated operationId)
  | recorded {call : Call} {cmd : Command} {pool snapshotId : Text} {remaining observed reset : ℤ}
      (hcall : happening = .call call)
      (hrecords : Records pf db call cmd pool snapshotId remaining observed reset)
      (h : after.snapshots = db.snapshots ++
        [snapshotRow call.env.clock db cmd pool snapshotId remaining observed reset])

lemma happen_change (pf : Platform) (db : Db) (happening : Happening) :
    SnapshotChange pf db happening (happen pf db happening) := by
  have hsame {happening : Happening} {after : Db} (h : after.snapshots = db.snapshots) :
      SnapshotChange pf db happening after := .kept (f := id) (by simp [h]) fun s => .inl rfl
  cases happening with
  | call call =>
      have hstep : SnapshotStep pf db call (serve pf db call) := serve_snapshots
      rcases hstep with h | ⟨hrecords, h⟩ | ⟨h⟩
      · exact hsame h
      · exact .recorded rfl hrecords h
      · refine .kept h fun s => ?_
        split
        · exact .inr ⟨_, rfl⟩
        · exact .inl rfl
  | reserve night skipped => exact hsame rfl
  | settle claimSeq phase evidence => exact hsame rfl
  | note event =>
      apply hsame
      simp only [happen]
      split <;> rfl

/-- What is stale and what was stale before is stale, where identities are distinct. -/
lemma stale_of_lowered {rows : List QuotaSnapshot} {lowered : List Text}
    (hnodup : (rows.map QuotaSnapshot.snapshotId).Nodup)
    (hold : ∀ s ∈ rows, s.snapshotId ∈ lowered → s.stale = true) :
    ∀ s ∈ rows, s.snapshotId ∈ lowered ++
      (rows.filter QuotaSnapshot.stale).map QuotaSnapshot.snapshotId → s.stale = true := by
  intro s hs hid
  rcases List.mem_append.mp hid with hid | hid
  · exact hold s hs hid
  · obtain ⟨s', hs', heq⟩ := List.mem_map.mp hid
    obtain ⟨hmem, hstale⟩ := List.mem_filter.mp hs'
    rwa [← List.inj_on_of_nodup_map hnodup hmem hs heq]

lemma Ledger.Grounded.step {pf : Platform} {ledger : Ledger}
    (h : ledger.Grounded pf.toRuntime) (happening : Happening) :
    (ledger.step pf happening).Grounded pf.toRuntime := by
  obtain ⟨new, hnights, hnew⟩ := happen_nights pf ledger.db happening
  have hold : ∀ o ∈ ledger.accepted, o.Covers pf.toRuntime (happen pf ledger.db happening) :=
    fun o ho => (h.covers o ho).of_nights hnights hnew
  have hstale : ∀ id ∈ ((happen pf ledger.db happening).snapshots.filter QuotaSnapshot.stale).map
      QuotaSnapshot.snapshotId,
      id ∈ (happen pf ledger.db happening).snapshots.map QuotaSnapshot.snapshotId :=
    fun id hid => (List.filter_sublist.map _).subset hid
  rcases happen_change pf ledger.db happening with ⟨hkept, hf⟩ | ⟨hcall, hrecords, hsnapshots⟩
  · rename_i f
    have hnone : recordedBy ledger.db (happen pf ledger.db happening) = none :=
      recordedBy_of_length (by simp [hkept])
    have hids : (happen pf ledger.db happening).snapshots.map QuotaSnapshot.snapshotId =
        ledger.db.snapshots.map QuotaSnapshot.snapshotId := by
      rw [hkept, List.map_map]
      apply List.map_congr_left
      intro s _
      rcases hf s with hs | ⟨operationId, hs⟩ <;> simp [hs, QuotaSnapshot.invalidated]
    have hnodup : ((happen pf ledger.db happening).snapshots.map
        QuotaSnapshot.snapshotId).Nodup := hids ▸ h.nodup
    refine ⟨?_, hnodup, ?_, stale_of_lowered hnodup ?_, ?_⟩
    · simp only [Ledger.step, hnone, Option.map_none, Option.toList_none, List.append_nil,
        ← h.readings]
      rw [hkept, List.map_map]
      apply List.map_congr_left
      intro s _
      rcases hf s with hs | ⟨operationId, hs⟩ <;>
        simp [hs, QuotaSnapshot.invalidated, QuotaSnapshot.reading]
    · intro id hid
      rcases List.mem_append.mp hid with hid | hid
      · exact (congrArg (id ∈ ·) hids).mpr (h.known id hid)
      · exact hstale id hid
    · intro s hs hid
      change s ∈ (happen pf ledger.db happening).snapshots at hs
      rw [hkept] at hs
      obtain ⟨s', hs', rfl⟩ := List.mem_map.mp hs
      rcases hf s' with hsame | ⟨operationId, hsame⟩
      · rw [hsame] at hid ⊢
        exact h.lowered s' hs' hid
      · rw [hsame]
        rfl
    · simpa only [Ledger.step, hnone, Option.map_none, Option.toList_none, List.append_nil]
        using hold
  · have hsome := recordedBy_concat hsnapshots
    have hnodup : ((happen pf ledger.db happening).snapshots.map
        QuotaSnapshot.snapshotId).Nodup := by
      rw [hsnapshots, List.map_append]
      refine List.Nodup.append h.nodup (List.nodup_singleton _) ?_
      simpa [snapshotRow] using hrecords.unused
    refine ⟨?_, hnodup, ?_, stale_of_lowered hnodup ?_, ?_⟩
    · simp only [Ledger.step, hsome, Option.map_some, Option.toList_some, List.map_append,
        ← h.readings]
      rw [hsnapshots, List.map_append]
      rfl
    · intro id hid
      rcases List.mem_append.mp hid with hid | hid
      · show id ∈ (happen pf ledger.db happening).snapshots.map QuotaSnapshot.snapshotId
        rw [hsnapshots, List.map_append]
        exact List.mem_append_left _ (h.known id hid)
      · exact hstale id hid
    · intro s hs hid
      change s ∈ (happen pf ledger.db happening).snapshots at hs
      rw [hsnapshots] at hs
      rcases List.mem_append.mp hs with hs | hs
      · exact h.lowered s hs hid
      · obtain rfl := List.mem_singleton.mp hs
        exact absurd (h.known _ hid) hrecords.unused
    · intro o ho
      simp only [Ledger.step, hsome, Option.map_some, Option.toList_some] at ho
      rcases List.mem_append.mp ho with ho | ho
      · exact hold o ho
      · obtain rfl := List.mem_singleton.mp ho
        show AcceptedReading.Covers _ _ (happen pf ledger.db happening)
        rw [hcall]
        exact hrecords.covers

lemma grounded_fresh (rt : Runtime) (tasks : List TaskRow) :
    (Ledger.fresh tasks).Grounded rt := by
  constructor <;> simp [Ledger.fresh, Db.fresh]

/-! ### The row that counts -/

/-- The rows of a pool are the observations accepted for it. -/
lemma Ledger.Grounded.newest_eq {rt : Runtime} {ledger : Ledger} (h : ledger.Grounded rt)
    (pool : Text) : (ledger.newest pool).map AcceptedReading.snapshot =
      ((ledger.db.snapshots.filter fun s => s.poolKey = pool).getLast?).map
        QuotaSnapshot.reading := by
  have hrows : (ledger.accepted.filter fun o => o.snapshot.poolKey = pool).map
      AcceptedReading.snapshot =
        (ledger.db.snapshots.filter fun s => s.poolKey = pool).map QuotaSnapshot.reading := by
    have hfilter := congrArg (List.filter fun s => decide (s.poolKey = pool)) h.readings
    rw [List.filter_map, List.filter_map] at hfilter
    exact hfilter.symm
  rw [Ledger.newest, ← List.getLast?_map, hrows, List.getLast?_map]

/-- The rows of a pool are recorded in order. -/
def Db.Ordered (db : Db) (pool : Text) : Prop :=
  (db.snapshots.filter fun s => s.poolKey = pool).Pairwise fun a b => a.recordedAt ≤ b.recordedAt

lemma latestSnapshot_of_ordered {db : Db} {pool : Text} (hpool : isPoolKey pool = true)
    (h : db.Ordered pool) :
    latestSnapshot db pool = (db.snapshots.filter fun s => s.poolKey = pool).getLast? := by
  rw [latestSnapshot, if_pos hpool]
  unfold Db.Ordered at h
  rcases List.eq_nil_or_concat (db.snapshots.filter fun s => s.poolKey = pool) with
    hnil | ⟨rows, last, hrows⟩
  · simp [hnil]
  · rw [hrows] at h ⊢
    rw [List.concat_eq_append] at h ⊢
    have hle : ∀ row ∈ rows, row.recordedAt ≤ last.recordedAt := by
      intro row hrow
      exact (List.pairwise_append.mp h).2.2 row hrow last (by simp)
    rw [foldl_newer_concat hle none (by simp), List.getLast?_concat]

lemma mem_of_foldl_newer {rows : List QuotaSnapshot} {best : Option QuotaSnapshot}
    {current : QuotaSnapshot} (h : rows.foldl newer best = some current) :
    current ∈ rows ∨ best = some current := by
  induction rows generalizing best with
  | nil => exact .inr h
  | cons row rows ih =>
      rcases ih h with hmem | hnext
      · exact .inl (List.mem_cons_of_mem _ hmem)
      · cases best with
        | none => exact .inl (by simpa [newer, eq_comm] using Or.inl hnext)
        | some b =>
            unfold newer at hnext
            dsimp only at hnext
            split at hnext
            · exact .inl (by simp [Option.some.inj hnext])
            · exact .inr hnext

lemma mem_of_latestSnapshot {db : Db} {pool : Text} {row : QuotaSnapshot}
    (h : latestSnapshot db pool = some row) :
    row ∈ db.snapshots ∧ row.poolKey = pool ∧
      ∀ other ∈ db.snapshots, other.poolKey = pool → other.recordedAt ≤ row.recordedAt := by
  unfold latestSnapshot at h
  split at h
  · have hmem := (mem_of_foldl_newer h).resolve_right (by simp)
    obtain ⟨hrow, hpool⟩ := List.mem_filter.mp hmem
    refine ⟨hrow, by simpa using hpool, ?_⟩
    intro other hother hsame
    exact (recordedAt_le_of_foldl_newer h).1 other (List.mem_filter.mpr ⟨hother, by simpa using hsame⟩)
  · cases h

/-! ### What an evaluation leaves -/

lemma sum_filter_le {α : Type} {p q : α → Bool} {f : α → ℤ} (hf : ∀ a, 0 ≤ f a) {l : List α}
    (h : ∀ a ∈ l, p a = true → q a = true ∨ f a = 0) :
    ((l.filter p).map f).sum ≤ ((l.filter q).map f).sum := by
  induction l with
  | nil => simp
  | cons a l ih =>
      have hrest := ih fun b hb => h b (List.mem_cons_of_mem _ hb)
      have ha := h a (List.mem_cons_self ..)
      have hpos := hf a
      simp only [List.filter_cons]
      by_cases hq : q a = true
      · rw [if_pos hq]
        split <;> simp only [List.map_cons, List.sum_cons] <;> omega
      · rw [if_neg hq]
        split
        · rename_i hp
          have hzero := (ha hp).resolve_left hq
          simp only [List.map_cons, List.sum_cons]
          omega
        · exact hrest

/-- Every claim that had not stopped before the observation is behind its watermark, or leaves its
pool alone. -/
lemma AcceptedReading.Covers.openDebits_le {rt : Runtime} {o : AcceptedReading} {db : Db}
    (h : o.Covers rt db) :
    o.openDebits rt db.nights ≤
      ((db.nights.filter fun night => o.snapshot.coveredClaimSeq < night.claimSeq).map
        (debitOn rt o.snapshot.poolKey)).sum := by
  obtain ⟨later, hclaims, hlater⟩ := h.later
  apply sum_filter_le (debitOn_nonneg rt _)
  intro night hnight hopen
  have hmem : night.claim ∈ o.before.nights.map Night.claim ++ later := by
    rw [← hclaims]
    exact List.mem_map.mpr ⟨night, hnight, rfl⟩
  rcases List.mem_append.mp hmem with hmem | hmem
  · obtain ⟨earlier, hearlier, heq⟩ := List.mem_map.mp hmem
    obtain ⟨hseq, hpools⟩ := Prod.mk.inj heq
    rcases h.stopped earlier hearlier with hstopped | hnone
    · simp only [decide_eq_true_eq] at hopen
      exact absurd ⟨earlier, hearlier, hseq, hstopped⟩ hopen
    · right
      have hnone' : claimDebit rt o.snapshot.poolKey night = .ok none := by
        unfold claimDebit at hnone ⊢
        rwa [← hpools]
      simp [debitOn, hnone']
  · exact .inl (by simpa [Night.claim] using hlater _ hmem)

lemma Sound.of_current {rt : Runtime} {ledger : Ledger} {pool : Text} (h : ledger.Grounded rt)
    (hcurrent : (latestSnapshot ledger.db pool).map QuotaSnapshot.reading =
      (ledger.newest pool).map AcceptedReading.snapshot) : Sound rt ledger pool := by
  refine ⟨hcurrent, ?_⟩
  intro row claims hrow hclaims estimate windows atMs limits remaining hremaining
  obtain ⟨hmem, hpool, -⟩ := mem_of_latestSnapshot hrow
  obtain ⟨hsum, hbehind⟩ := claimsAfterWatermark_spec hclaims
  obtain ⟨htrusted, hvalue⟩ := evaluatePool_remaining hbehind hremaining
  rw [hrow] at hcurrent
  obtain ⟨o, hnewest, hreading⟩ := Option.map_eq_some_iff.mp hcurrent.symm
  refine ⟨?_, o, hnewest, ?_⟩
  · intro hlowered
    rw [h.lowered row hmem hlowered] at htrusted
    cases htrusted
  · have haccepted : o ∈ ledger.accepted := by
      have hlast := List.mem_of_getLast? hnewest
      exact (List.mem_filter.mp hlast).1
    have hdebits := (h.covers o haccepted).openDebits_le
    have hcovered : o.snapshot.coveredClaimSeq = row.coveredClaimSeq := by rw [hreading]; rfl
    have hkey : o.snapshot.poolKey = pool := by rw [hreading]; exact hpool
    have hweekly : o.snapshot.weeklyRemainingBp = row.weeklyRemainingBp := by rw [hreading]; rfl
    rw [hcovered, hkey, ← hsum] at hdebits
    rw [hvalue, hweekly]
    omega

/-! ## Steady clocks -/

/-- A call that records a snapshot of a pool is made no earlier, by the clock, than any snapshot of the
pool was recorded. -/
def Steady (pf : Platform) (db : Db) : Happening → Prop
  | .call call => ∀ cmd pool snapshotId remaining observed reset,
      Records pf db call cmd pool snapshotId remaining observed reset →
      ∀ s ∈ db.snapshots, s.poolKey = pool → s.recordedAt ≤ call.env.clock.now
  | _ => True

/-- The clock is steady throughout. -/
def AlwaysSteady (pf : Platform) : Db → List Happening → Prop
  | _, [] => True
  | db, happening :: rest => Steady pf db happening ∧ AlwaysSteady pf (happen pf db happening) rest

lemma Db.Ordered.step {pf : Platform} {db : Db} {pool : Text} (h : db.Ordered pool)
    {happening : Happening} (hsteady : Steady pf db happening) :
    (happen pf db happening).Ordered pool := by
  unfold Db.Ordered at h ⊢
  rcases happen_change pf db happening with ⟨hkept, hf⟩ | ⟨hcall, hrecords, hsnapshots⟩
  · rename_i f
    have hsame : ∀ s, (f s).poolKey = s.poolKey ∧ (f s).recordedAt = s.recordedAt := by
      intro s
      rcases hf s with hs | ⟨operationId, hs⟩ <;> simp [hs, QuotaSnapshot.invalidated]
    have hfilter : ((db.snapshots.map f).filter fun s => decide (s.poolKey = pool)) =
        (db.snapshots.filter fun s => decide (s.poolKey = pool)).map f := by
      rw [List.filter_map]
      congr 1
      apply List.filter_congr
      intro s _
      simp [(hsame s).1]
    rw [hkept, hfilter, List.pairwise_map]
    exact h.imp fun {a b} hle => by rwa [(hsame a).2, (hsame b).2]
  · subst hcall
    rw [hsnapshots, List.filter_append, List.pairwise_append]
    refine ⟨h, List.Pairwise.sublist List.filter_sublist (List.pairwise_singleton _ _), ?_⟩
    intro s hs last hlast
    obtain ⟨hmem, hpool⟩ := List.mem_filter.mp hs
    obtain ⟨hlast, hlastPool⟩ := List.mem_filter.mp hlast
    obtain rfl := List.mem_singleton.mp hlast
    have hkey : s.poolKey = _ := (of_decide_eq_true hpool).trans (of_decide_eq_true hlastPool).symm
    exact hsteady _ _ _ _ _ _ hrecords s hmem hkey

/-- A snapshot recorded behind another one of its pool is not the one that counts. -/
lemma not_sound_of_behind {pf : Platform} {ledger : Ledger} (h : ledger.Grounded pf.toRuntime)
    {call : Call} {cmd : Command} {pool snapshotId : Text} {remaining observed reset : ℤ}
    (hrecords : Records pf ledger.db call cmd pool snapshotId remaining observed reset)
    {s : QuotaSnapshot} (hs : s ∈ ledger.db.snapshots) (hpool : s.poolKey = pool)
    (hbehind : call.env.clock.now < s.recordedAt) :
    ¬Sound pf.toRuntime (ledger.step pf (.call call)) pool := by
  intro hsound
  have hsnapshots : (happen pf ledger.db (.call call)).snapshots = ledger.db.snapshots ++
      [snapshotRow call.env.clock ledger.db cmd pool snapshotId remaining observed reset] :=
    serve_of_records hrecords
  have hnewest := (h.step (.call call)).newest_eq pool
  have hrows : ((ledger.step pf (.call call)).db.snapshots.filter fun s => s.poolKey = pool) =
      (ledger.db.snapshots.filter fun s => s.poolKey = pool) ++
        [snapshotRow call.env.clock ledger.db cmd pool snapshotId remaining observed reset] := by
    show ((happen pf ledger.db (.call call)).snapshots.filter fun s => s.poolKey = pool) = _
    rw [hsnapshots, List.filter_append]
    simp [snapshotRow]
  rw [hrows, List.getLast?_concat] at hnewest
  have hcurrent := hsound.current.trans hnewest
  obtain ⟨row, hrow, hreading⟩ := Option.map_eq_some_iff.mp hcurrent
  obtain ⟨-, -, hlargest⟩ := mem_of_latestSnapshot hrow
  have hmem : s ∈ (ledger.step pf (.call call)).db.snapshots := by
    show s ∈ (happen pf ledger.db (.call call)).snapshots
    rw [hsnapshots]
    exact List.mem_append_left _ hs
  have hle := hlargest s hmem hpool
  have hrecorded : row.recordedAt = call.env.clock.now :=
    congrArg QuotaSnapshot.recordedAt hreading
  omega

lemma isPoolKey_of_records {pf : Platform} {db : Db} {call : Call} {cmd : Command}
    {pool snapshotId : Text} {remaining observed reset : ℤ}
    (h : Records pf db call cmd pool snapshotId remaining observed reset) :
    isPoolKey pool = true := h.claims.1

/-- From any ledger as a run leaves it, every later state is sound for every pool if and only if the
clock stays steady. -/
lemma sound_iff_steady {pf : Platform} {ledger : Ledger} (h : ledger.Grounded pf.toRuntime)
    (hordered : ∀ pool, ledger.db.Ordered pool) (happenings : List Happening) :
    (∀ k pool, isPoolKey pool = true →
        Sound pf.toRuntime (ledger.run pf (happenings.take k)) pool) ↔
      AlwaysSteady pf ledger.db happenings := by
  induction happenings generalizing ledger with
  | nil =>
      refine ⟨fun _ => trivial, ?_⟩
      intro _ k pool hpool
      rw [List.take_nil]
      apply Sound.of_current h
      rw [latestSnapshot_of_ordered hpool (hordered pool), h.newest_eq]
  | cons happening rest ih =>
      have hgrounded := h.step happening
      constructor
      · intro hsound
        have hsteady : Steady pf ledger.db happening := by
          cases happening with
          | call call =>
              intro cmd pool snapshotId remaining observed reset hrecords s hs hpool
              by_contra hbehind
              have hstep := hsound 1 pool (isPoolKey_of_records hrecords)
              exact not_sound_of_behind h hrecords hs hpool (not_le.mp hbehind) hstep
          | _ => trivial
        refine ⟨hsteady, (ih hgrounded fun pool => (hordered pool).step hsteady).mp ?_⟩
        intro k pool hpool
        exact hsound (k + 1) pool hpool
      · rintro ⟨hsteady, hrest⟩ k pool hpool
        cases k with
        | zero =>
            apply Sound.of_current h
            show (latestSnapshot ledger.db pool).map _ = (ledger.newest pool).map _
            rw [latestSnapshot_of_ordered hpool (hordered pool), h.newest_eq]
        | succ k =>
            exact (ih hgrounded fun pool => (hordered pool).step hsteady).mpr hrest k pool hpool

/-- In a run from fresh tables, what counts for every pool is sound in every state reached, if and
only if no snapshot is recorded behind an earlier one of its pool. -/
theorem sound_of_run_iff (pf : Platform) (tasks : List TaskRow) (happenings : List Happening) :
    (∀ k pool, isPoolKey pool = true →
        Sound pf.toRuntime ((Ledger.fresh tasks).run pf (happenings.take k)) pool) ↔
      AlwaysSteady pf (Db.fresh tasks) happenings := by
  apply sound_iff_steady (grounded_fresh pf.toRuntime tasks)
  intro pool
  simp [Db.Ordered, Ledger.fresh, Db.fresh]

/-! ### A clock that is set back -/

/-- A reading of the pool `codex`, entered at a time. -/
def readingItems (operationId snapshotId : Text) (remaining observed : ℤ) : List (Text × Value) :=
  [("command", .str "quota-snapshot"), ("operation_id", .str operationId),
    ("payload", .obj [("actor", .str "u"), ("pool_key", .str "codex"),
      ("snapshot_id", .str snapshotId), ("weekly_remaining_bp", .int remaining),
      ("observed_at", .int observed), ("reset_at", .int 100000)])]

/-- Ninety per cent are left, the clock shows 2000. -/
def earlierReading : Call where
  env := { bareEnvironment with clock := ⟨2000, by decide, by decide⟩ }
  request := ⟨readingItems firstOperation "s1" 9000 500, by decide +kernel⟩

/-- Ten per cent are left, the clock was set back to 1000. -/
def laterReading : Call where
  env := { bareEnvironment with clock := ⟨1000, by decide, by decide⟩ }
  request :=
    ⟨readingItems "00000000-0000-4000-8000-000000000002" "s2" 1000 600, by decide +kernel⟩

def setBackLedger : Ledger :=
  (Ledger.fresh []).run (hashingPlatform placeDigest isHexDigest_placeDigest)
    [.call earlierReading, .call laterReading]

/-- Both readings are accepted, and an evaluation at 3000 leaves ninety per cent. -/
theorem not_sound_setBack :
    (setBackLedger.accepted.map fun o => o.snapshot.weeklyRemainingBp) = [9000, 1000] ∧
      (evaluatePool (latestSnapshot setBackLedger.db "codex") (.int 1) (.int 1) [] 3000
        {}).remainingBp = some 9000 ∧
      ¬Sound (hashingPlatform placeDigest (by decide)).toRuntime setBackLedger "codex" := by
  refine ⟨by decide +kernel, by decide +kernel, ?_⟩
  intro h
  have hcurrent := congrArg (Option.map QuotaSnapshot.weeklyRemainingBp) h.current
  revert hcurrent
  decide +kernel

end Kanban

end AgentOrch
