import AgentOrch.Construction.Convergence
import AgentOrch.Construction.Envelope
import AgentOrch.Construction.Trajectory
import Mathlib.Algebra.Order.Ring.Rat
import Mathlib.Data.List.Lex
import Mathlib.Data.List.MinMax
import Mathlib.Data.Prod.Lex
import Mathlib.Order.Fin.Basic

/-!
# The kanban tables

A card is the projection of its journal: every command, accepted or rejected, appends one event, and
an accepted one moves the revision of the card by one.

The columns of an event are cells, since SQLite stores what it is given and the readers check what
they find.  A card is read with the types its columns declare.
-/

namespace AgentOrch

open Py Json

namespace Kanban

/-! ## Cells -/

/-- A value in a column. -/
inductive Cell
  | null
  | int (n : ℤ)
  | real (x : Binary64)
  | text (t : Text)
  | blob (bytes : Bytes)
  deriving DecidableEq

/-- A nullable text column. -/
def Cell.ofText : Option Text → Cell
  | none => .null
  | some t => .text t

/-- A nullable integer column. -/
def Cell.ofInt : Option ℤ → Cell
  | none => .null
  | some n => .int n

/-- The cell as Python reads it, where JSON has such a value. -/
def Cell.toValue? : Cell → Option Value
  | .null => some .null
  | .int n => some (.int n)
  | .real x => some (.float x)
  | .text t => some (.str t)
  | .blob _ => none

/-- `value == cell` for a value read from JSON. -/
def Cell.equals (c : Cell) (value : Value) : Bool := c.toValue?.any fun v => value.eqv v

/-- `json.loads(cell or "null")` -/
def Cell.loads (rt : Runtime) : Cell → Except Exc Value
  | .null => .ok .null
  | .text [] | .blob [] => .ok .null
  | .text t => rt.loads false t
  | .blob bytes =>
    match decodeStrict bytes with
    | some t => rt.loads false t
    | none => .error .unicodeDecodeError
  | .int n =>
    if n = 0 then .ok .null else .error (.typeError "the JSON object must be str, bytes or bytearray")
  | .real x =>
    if x.eqInt 0 then .ok .null
    else .error (.typeError "the JSON object must be str, bytes or bytearray")

/-- `MAX_REVISION` -/
def maxRevision : ℤ := 2 ^ 63 - 1

/-- `_valid_revision` of a stored or submitted integer. -/
def validRevision (n : ℤ) : Bool := decide (0 ≤ n) && decide (n ≤ maxRevision)

/-- An integer of the given range. -/
def Cell.within (minimum maximum : ℤ) : Cell → Option ℤ
  | .int n => if minimum ≤ n ∧ n ≤ maximum then some n else none
  | _ => none

/-- The place of a cell in the order of SQLite: nulls, then numbers by value, then texts by code
point, then bytes.  Two cells are in one group when they have one key. -/
def Cell.key : Cell → ℕ ×ₗ ℚ ×ₗ List ℕ
  | .null => toLex (0, toLex (0, []))
  | .int n => toLex (2, toLex (n, []))
  | .real (.finite m e) => toLex (2, toLex (m * 2 ^ e.toNat / 2 ^ (-e).toNat, []))
  | .real (.infinite true) => toLex (1, toLex (0, []))
  | .real (.infinite false) => toLex (3, toLex (0, []))
  | .real .nan => toLex (0, toLex (0, []))
  | .text t => toLex (4, toLex (0, t.map Fin.val))
  | .blob bytes => toLex (5, toLex (0, bytes.map Fin.val))

/-! ## The columns of a card -/

/-- `SCOPE_FIELDS`, the columns an approval covers. -/
inductive ScopeField
  | repoPath
  | worktreePath
  | gitCommonDir
  | changeName
  | specPath
  | acceptancePath
  | specReviewPointer
  | specReviewHash
  | baseHead
  | candidateFingerprint
  | risk
  | estimateByPool
  | allowedCommands
  | profileName
  | provider
  | model
  | effort
  | routingDigest
  | configDigest
  deriving DecidableEq

namespace ScopeField

def all : List ScopeField :=
  [.repoPath, .worktreePath, .gitCommonDir, .changeName, .specPath, .acceptancePath,
    .specReviewPointer, .specReviewHash, .baseHead, .candidateFingerprint, .risk, .estimateByPool,
    .allowedCommands, .profileName, .provider, .model, .effort, .routingDigest, .configDigest]

def name : ScopeField → Text
  | .repoPath => "repo_path"
  | .worktreePath => "worktree_path"
  | .gitCommonDir => "git_common_dir"
  | .changeName => "change_name"
  | .specPath => "spec_path"
  | .acceptancePath => "acceptance_path"
  | .specReviewPointer => "spec_review_pointer"
  | .specReviewHash => "spec_review_hash"
  | .baseHead => "base_head"
  | .candidateFingerprint => "candidate_fingerprint"
  | .risk => "risk"
  | .estimateByPool => "estimate_by_pool"
  | .allowedCommands => "allowed_commands"
  | .profileName => "profile_name"
  | .provider => "provider"
  | .model => "model"
  | .effort => "effort"
  | .routingDigest => "routing_digest"
  | .configDigest => "config_digest"

lemma mem_all (f : ScopeField) : f ∈ all := by cases f <;> decide

end ScopeField

/-- `EDITABLE_FIELDS` -/
inductive Field
  | scope (f : ScopeField)
  | title
  | note
  | priority
  deriving DecidableEq

def Field.all : List Field := ScopeField.all.map .scope ++ [.title, .note, .priority]

def Field.name : Field → Text
  | .scope f => f.name
  | .title => "title"
  | .note => "note"
  | .priority => "priority"

/-- The editable column of that name. -/
def Field.ofName (name : Text) : Option Field := Field.all.find? fun f => f.name = name

/-- `JSON_OBJECT_FIELDS` -/
def Field.holdsObject (f : Field) : Bool := f = .scope .risk || f = .scope .estimateByPool

/-- `JSON_ARRAY_FIELDS` -/
def Field.holdsArray (f : Field) : Bool := f = .scope .allowedCommands

/-- The values of `manual_state`. -/
inductive ManualState
  | inbox
  | needsClarification
  | ready
  | returned
  | done
  | archived
  deriving DecidableEq

def ManualState.text : ManualState → Text
  | .inbox => "inbox"
  | .needsClarification => "needs_clarification"
  | .ready => "ready"
  | .returned => "returned"
  | .done => "done"
  | .archived => "archived"

/-- `TERMINAL_STATES` -/
def ManualState.isTerminal : ManualState → Bool
  | .done | .archived => true
  | _ => false

/-- `PRIORITIES` -/
def priorities : List Text := ["high", "normal", "low"]

/-- The columns `approval_actor`, `approval_at`, `approval_hash` and `approval_event_id`: all of them
or none. -/
structure Approval where
  actor : Text
  time : ℤ
  hash : Text
  eventId : Text
  deriving DecidableEq

/-- A row of `kanban_cards`. -/
structure Card where
  rowid : ℤ
  cardId : Text
  revision : ℤ
  title : Text
  note : Option Text
  priority : Text
  manualState : ManualState
  scope : ScopeField → Option Text
  specHash : Option Text
  acceptanceHash : Option Text
  profileHash : Option Text
  approvalGeneration : ℤ
  approval : Option Approval
  taskId : Option Text
  lastReason : Option Text
  lastEvidenceEventId : Option Text
  createdAt : ℤ
  updatedAt : ℤ

/-- What the board reads to place a card, whatever is stored there. -/
structure BoardCard where
  rowid : ℤ
  cardId : Option Text
  manualState : ManualState
  revision : Cell

def Card.onBoard (card : Card) : BoardCard :=
  ⟨card.rowid, some card.cardId, card.manualState, .int card.revision⟩

/-- `approval_hash` -/
def Card.approvalHash (card : Card) : Option Text := card.approval.map Approval.hash

/-- `approval_event_id` -/
def Card.approvalEventId (card : Card) : Option Text := card.approval.map Approval.eventId

/-- The CHECK constraints on what a command may set. -/
def Card.satisfiesChecks (card : Card) : Bool :=
  decide (0 ≤ card.revision) && decide (card.priority ∈ priorities) &&
    ((card.scope .effort).all fun e => decide (e ∈ (["low", "medium", "high"] : List Text))) &&
    decide (0 ≤ card.approvalGeneration) &&
    (decide (0 < card.approvalGeneration) || card.approval.isNone)

/-! ## The journal -/

inductive Verdict
  | accepted
  | rejected
  deriving DecidableEq

def Verdict.text : Verdict → Text
  | .accepted => "accepted"
  | .rejected => "rejected"

/-- A row of `kanban_events`. -/
structure Event where
  operationId : Text
  payloadHash : Cell
  kind : Text
  cardId : Option Text
  taskId : Cell
  expectedRevision : Cell
  resultRevision : Cell
  actor : Cell
  time : Cell
  result : Verdict
  reason : Cell
  payload : Cell
  metadataDelta : Cell

/-- What is read of a row of `kanban_nights`. -/
structure Night where
  claimSeq : ℤ
  nightId : Text
  cardId : Text
  phase : Text
  poolClaims : Text
  stopEvidenceEventId : Option Text

/-- A row of `kanban_quota_snapshots`. -/
structure QuotaSnapshot where
  snapshotId : Text
  poolKey : Text
  weeklyRemainingBp : ℤ
  observedAt : ℤ
  recordedAt : ℤ
  resetAt : ℤ
  operator : Text
  coveredClaimSeq : ℤ
  stale : Bool
  staleEventId : Option Text

/-- `WEEK_MS` -/
def weekMs : ℤ := 7 * 24 * 60 * 60 * 1000

/-- The columns `observed_at_ms`, `remaining_percent` and `reset_at_ms`: all of them or none. -/
structure QuotaReading where
  observedAtMs : ℤ
  remainingPercent : ℤ
  resetAtMs : ℤ
  deriving DecidableEq

/-- The row of `cli_quota_observation`; `error` is null where the outcome is `ok`. -/
structure QuotaObservation where
  attemptedAtMs : ℤ
  error : Option Text
  reading : Option QuotaReading
  deriving DecidableEq

/-- The CHECK constraints of the table. -/
def QuotaObservation.satisfiesChecks (row : QuotaObservation) : Bool :=
  decide (0 < row.attemptedAtMs ∧ row.attemptedAtMs ≤ 253402300799999) &&
    (row.error.isSome || row.reading.isSome) &&
    row.reading.all fun r =>
      decide (0 ≤ r.remainingPercent ∧ r.remainingPercent ≤ 100) &&
        decide (0 < r.observedAtMs ∧ r.observedAtMs ≤ row.attemptedAtMs) &&
        decide (r.observedAtMs < r.resetAtMs ∧ r.resetAtMs ≤ r.observedAtMs + weekMs)

/-- What is read of a row of `tasks`. -/
structure TaskRow where
  id : Text
  status : Text
  stopReason : Option Text

/-- The tables a kanban command reads and writes. -/
structure Db where
  cards : List Card
  events : List Event
  nights : List Night
  tasks : List TaskRow
  snapshots : List QuotaSnapshot
  observation : Option QuotaObservation

/-- `_card` -/
def Db.card (db : Db) (cardId : Value) : Option Card :=
  match cardId with
  | .str id => if id.isEmpty then none else db.cards.find? fun card => card.cardId = id
  | _ => none

/-- The events of a card. -/
def Db.eventsOf (db : Db) (cardId : Text) : List Event :=
  db.events.filter fun e => e.cardId = some cardId

/-- `INSERT INTO kanban_events` -/
def Db.insertEvent (db : Db) (e : Event) : Db := { db with events := db.events ++ [e] }

/-! ## Text of JSON -/

/-- What a refusal of the writer raises. -/
def refused : Refusal → Exc
  | .depth => .recursionError
  | .digits => .valueError "Exceeds the limit (4300 digits) for integer string conversion"
  | .notNumber => .valueError "Out of range float values are not JSON compliant"

/-- `json.dumps(v, ensure_ascii=False, sort_keys=True)` -/
def jsonText (rt : Runtime) (v : Value) : Except Exc Text :=
  (dumpsPadded " " rt.dumpsDepth rt.floatRepr v).mapError refused

/-- The text `canonical_json` encodes. -/
def canonicalText (rt : Runtime) (v : Value) : Except Exc Text :=
  (dumpsPadded [] rt.dumpsDepth rt.floatRepr v).mapError refused

/-- `canonical_json` -/
def canonicalJson (rt : Runtime) (v : Value) : Except Exc Bytes := do
  let t ← canonicalText rt v
  encoded t

/-- `hashlib.sha256(canonical_json(v)).hexdigest()` -/
def canonicalHash (pf : Platform) (v : Value) : Except Exc Text :=
  (canonicalJson pf.toRuntime v).map pf.sha256

/-- `payload_hash` -/
def payloadHash (pf : Platform) (command : Text) (payload : List (Text × Value)) :
    Except Exc Text :=
  canonicalHash pf (.obj [("command", .str command), ("payload", .obj payload)])

/-- The default interpreter beside a hash that is known at one place only. -/
def hashingPlatform (digest : Text) (h : isHexDigest digest = true) : Platform where
  toRuntime := .standard
  nfc := id
  sha256 _ := digest
  walkDepth := 400
  nfc_ascii := id_ascii
  sha256_hex _ := h

/-! ## Reserved framing -/

def planBegin : Text := "<!-- orch-execution-plan:v1 -->"

def planEnd : Text := "<!-- /orch-execution-plan -->"

/-- `RESERVED_MARKERS` -/
def reservedMarkers : List Text :=
  [envelopeBegin, envelopeEnd, planBegin, planEnd, convergenceBegin, convergenceEnd]

/-- `reserved_marker_in(text) is not None` -/
def reservedMarkerIn (t : Text) : Bool := reservedMarkers.any fun marker => contains marker t

/-- A stripped text that is not empty, not too long, and free of reserved framing. -/
def plainText (limit : ℕ) (t : Text) : Bool :=
  !isBlank t && decide (t.length ≤ limit) && !reservedMarkerIn t

/-- `PROGRESS_STATUSES` -/
def progressStatuses : List Text :=
  ["not_started", "in_progress", "blocked", "needs_decision", "reported_done"]

/-! ## The scope of a card -/

/-- `progress_scope_digest` -/
def progressScopeDigest (pf : Platform) (card : Card) : Except Exc Text :=
  canonicalHash pf (.obj
    (ScopeField.all.map (fun f => (f.name, Trajectory.optText (card.scope f))) ++
      [(("approval_generation" : Text), .int card.approvalGeneration),
        ("approval_hash", Trajectory.optText card.approvalHash),
        ("task_id", Trajectory.optText card.taskId)]))

end Kanban

end AgentOrch
