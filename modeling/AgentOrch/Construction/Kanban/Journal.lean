import AgentOrch.Construction.Kanban.Read

/-!
# Writing the journal

A command ends in one event: an accepted one, with the compare-and-swap update of its card, or a
rejected one, with the reason and no change.  `mutate` is what the commands that move a card share;
each of them adds what it checks and what it assigns.
-/

namespace AgentOrch

open Py Json

namespace Kanban

/-- The file system, as `approve` and `done` look at it.  `readText` is `read_text(encoding="utf-8")`,
`loadProfile` is `load_profile(path).to_dict()`. -/
structure Disk where
  isDir : Text → Bool
  isFile : Text → Bool
  readText : Text → Except Exc Text
  readBytes : Text → Except Exc Bytes
  resolve : Text → Except Exc Text
  loadProfile : Text → Except Exc (List (Text × Value))

/-- A clock that shows milliseconds since the epoch, as SQLite can store them. -/
structure Clock where
  now : ℤ
  now_nonneg : 0 ≤ now
  now_le : now ≤ maxRevision

/-- What a command meets: the files, the clock, `str.lower`, and the answer of `_validate_gate`, which
reads the files of a closeout. -/
structure Environment where
  disk : Disk
  clock : Clock
  lower : Text → Text
  gate : Db → Card → List (Text × Value) → List (Text × Value) → Except Exc (Option Text)

/-- The commands. -/
inductive Verb
  | create
  | edit
  | approve
  | withdraw
  | return_
  | pause
  | done
  | archive
  | quotaCliAttempt
  | quotaSnapshot
  | quotaInvalidate
  | reportProgress
  | place
  deriving DecidableEq

/-- `COMMANDS` -/
def Verb.all : List Verb :=
  [.create, .edit, .approve, .withdraw, .return_, .pause, .done, .archive, .quotaCliAttempt,
    .quotaSnapshot, .quotaInvalidate, .reportProgress, .place]

def Verb.name : Verb → Text
  | .create => "create"
  | .edit => "edit"
  | .approve => "approve"
  | .withdraw => "withdraw"
  | .return_ => "return"
  | .pause => "pause"
  | .done => "done"
  | .archive => "archive"
  | .quotaCliAttempt => "quota-cli-attempt"
  | .quotaSnapshot => "quota-snapshot"
  | .quotaInvalidate => "quota-invalidate"
  | .reportProgress => "report-progress"
  | .place => "place"

/-- The command of that name. -/
def Verb.ofValue (v : Value) : Option Verb := Verb.all.find? fun verb => v.eqv (.str verb.name)

/-- A request whose shape passed: the arguments of `_dispatch`. -/
structure Command where
  verb : Verb
  operationId : Text
  digest : Text
  actor : Text
  payload : List (Text × Value)

/-- What `handle_request` returns; `extra` is what a command adds. -/
structure Outcome where
  command : Text
  operationId : Text
  cardId : Value
  result : Verdict
  reason : Cell
  revision : Cell
  recorded : Bool
  replayed : Bool
  extra : List (Text × Value)

/-- Why a command goes no further: it raises, or it is rejected for a reason. -/
inductive Stop
  | raised (e : Exc)
  | refused (reason : Text)

/-- A step that may raise. -/
def raising {α : Type} (step : Except Exc α) : Except Stop α := step.mapError .raised

/-- `if not condition: return reject(reason)`. -/
def refuseUnless (condition : Bool) (reason : Text) : Except Stop Unit :=
  if condition then .ok () else .error (.refused reason)

@[simp] lemma refuseUnless_eq_ok {condition : Bool} {reason : Text} {u : Unit} :
    refuseUnless condition reason = .ok u ↔ condition = true := by
  cases condition <;> simp [refuseUnless]

@[simp] lemma raising_eq_ok {α : Type} {step : Except Exc α} {a : α} :
    raising step = .ok a ↔ step = .ok a := by
  cases step <;> simp [raising, Except.mapError]

/-- A sequence of checks passes when its first step does and the rest does. -/
lemma stop_bind_eq_ok {α β : Type} {x : Except Stop α} {f : α → Except Stop β} {b : β} :
    x >>= f = .ok b ↔ ∃ a, x = .ok a ∧ f a = .ok b := by
  cases x with
  | error e => simp [bind, Except.bind]
  | ok a => simp [bind, Except.bind]

/-- `card_id if isinstance(card_id, str) else None` -/
def namedCard (payload : List (Text × Value)) : Value :=
  match getValue "card_id" payload with
  | .str id => .str id
  | _ => .null

/-- `expected_revision`, where it is a revision. -/
def submittedRevision (payload : List (Text × Value)) : Cell :=
  match getValue "expected_revision" payload with
  | .int n => if validRevision n then .int n else .null
  | _ => .null

section
variable (rt : Runtime) (clock : Clock)

/-- `_reject`: the reason on record, and the card as it was. -/
def reject (db : Db) (cmd : Command) (reason : Text) (shown : Value) (card : Option Card) :
    Except Exc (Outcome × Db) := do
  let recorded ← jsonText rt (.obj cmd.payload)
  let event : Event := {
    operationId := cmd.operationId
    payloadHash := .text cmd.digest
    kind := cmd.verb.name
    cardId := card.map Card.cardId
    taskId := .null
    expectedRevision := submittedRevision cmd.payload
    resultRevision := .null
    actor := .text cmd.actor
    time := .int clock.now
    result := .rejected
    reason := .text reason
    payload := .text recorded
    metadataDelta := .null }
  return ({
    command := cmd.verb.name
    operationId := cmd.operationId
    cardId := shown
    result := .rejected
    reason := .text reason
    revision := .null
    recorded := true
    replayed := false
    extra := [] }, db.insertEvent event)

/-- What an accepted command records and returns, beside what it assigns. -/
structure Record where
  payload : Text
  delta : List (Text × Value)
  extra : List (Text × Value)

/-- `_accept` -/
def accept (db : Db) (cmd : Command) (cardId : Text) (resultRevision : ℤ) (record : Record) :
    Except Exc (Outcome × Db) := do
  let delta ← jsonText rt (.obj record.delta)
  let event : Event := {
    operationId := cmd.operationId
    payloadHash := .text cmd.digest
    kind := cmd.verb.name
    cardId := some cardId
    taskId := .null
    expectedRevision := submittedRevision cmd.payload
    resultRevision := .int resultRevision
    actor := .text cmd.actor
    time := .int clock.now
    result := .accepted
    reason := .null
    payload := .text record.payload
    metadataDelta := .text delta }
  return ({
    command := cmd.verb.name
    operationId := cmd.operationId
    cardId := .str cardId
    result := .accepted
    reason := .null
    revision := .int resultRevision
    recorded := true
    replayed := false
    extra := record.extra }, db.insertEvent event)

/-- The row an update leaves. -/
def Card.moved (card : Card) (assign : Card → Card) : Card :=
  { assign card with revision := card.revision + 1, updatedAt := clock.now }

/-- `WHERE card_id=? AND revision=?` -/
def isTarget (cardId : Text) (revision : ℤ) (card : Card) : Bool :=
  decide (card.cardId = cardId ∧ card.revision = revision)

/-- `UPDATE kanban_cards` -/
def Db.update (db : Db) (cardId : Text) (revision : ℤ) (f : Card → Card) : Db :=
  { db with cards := db.cards.map fun card => if isTarget cardId revision card then f card else card }

/-- `_cas_update`; `none` when no row has the expected revision. -/
def casUpdate (db : Db) (cardId : Text) (expected : ℤ) (assign : Card → Card) :
    Except Exc (Option Db) :=
  match db.cards.find? (isTarget cardId expected) with
  | none => .ok none
  | some card =>
    let moved := card.moved clock assign
    if maxRevision < moved.revision ∨ maxRevision < moved.approvalGeneration then
      .error .overflowError
    else if !moved.satisfiesChecks then .error .integrityError
    else .ok (some (db.update cardId expected fun card => card.moved clock assign))

/-- `_guard`: the card, its revision and whether it is terminal. -/
def guardCard (card : Option Card) (payload : List (Text × Value))
    (allowTerminal allowClaimed : Bool) : Except Text Card :=
  match card with
  | none => .error "card_not_found"
  | some card =>
    match getValue "expected_revision" payload with
    | .int expected =>
      if !validRevision expected then .error "invalid_expected_revision"
      else if expected ≠ card.revision then .error "revision_conflict"
      else if expected = maxRevision then .error "revision_exhausted"
      else if !allowTerminal && card.manualState.isTerminal then .error "card_is_terminal"
      else if card.taskId.isSome && !allowClaimed then .error "card_is_claimed"
      else .ok card
    | _ => .error "expected_revision_required"

/-- What a command does to its card once the guard has passed. -/
structure Change where
  assign : Card → Card
  record : Record

/-- A command that moves a card: the guard, the checks of the command, the update, the event.
`lost` is what it does when the update misses, which it cannot inside the transaction. -/
def mutate (db : Db) (cmd : Command) (shown : Value) (allowTerminal allowClaimed : Bool)
    (lost : Stop) (body : Card → Except Stop Change) : Except Exc (Outcome × Db) :=
  let card := db.card (getValue "card_id" cmd.payload)
  match guardCard card cmd.payload allowTerminal allowClaimed with
  | .error reason => reject rt clock db cmd reason shown card
  | .ok current =>
    match body current with
    | .error (.raised e) => .error e
    | .error (.refused reason) => reject rt clock db cmd reason shown card
    | .ok change =>
      match casUpdate clock db current.cardId current.revision change.assign, lost with
      | .error e, _ => .error e
      | .ok none, .raised e => .error e
      | .ok none, .refused reason => reject rt clock db cmd reason shown card
      | .ok (some db'), _ =>
        accept rt clock db' cmd current.cardId (current.revision + 1) change.record

end

end Kanban

end AgentOrch
