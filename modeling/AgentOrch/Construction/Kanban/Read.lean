import AgentOrch.Construction.Kanban.View
import Mathlib.Data.List.Sort
import Mathlib.Order.WithBot

/-!
# The readers of the board

`page_snapshot` shows one view of the board a page at a time.  Which cards a view has is decided by
SQL over the placement rows of the journal; where each card is queued is decided again, by
`_summaries`, and the renderer filters on that.  `_summaries` also selects the few events a card is
judged by, and computes the flags that stand for the rest of its history.

A predicate of a query is evaluated on every row the query ranges over.
-/

namespace AgentOrch

open Py Json

namespace Kanban

/-! ## Where a row places its card -/

def isPlacement (event : Event) : Bool :=
  decide (event.kind ∈ (["place", "create"] : List Text)) && decide (event.result = .accepted)

/-- The destinations a row may name. -/
def destination : Value → Option Location
  | .str t =>
    if t = ("board" : Text) then some .board
    else if t = ("backlog" : Text) then some .backlog
    else none
  | _ => none

/-- The text of an actor or of a request of a user. -/
def isStatedText (limit : ℕ) (v : Value) : Bool := (textThat (plainText limit) v).isSome

/-- `_location` of a `create` event with that `metadata_delta`.  One without placement is legacy, and
stays on the board. -/
def createLocation (pf : Platform) (event : Event) (delta : Value) : Except Exc Location :=
  match delta with
  | .obj changes =>
    if ("queue_location" : Text) ∉ dictKeys changes then .ok .board
    else do
      let stored ← event.payload.loads pf.toRuntime
      match destination (getValue "queue_location" changes), stored with
      | some place, .obj payload =>
        match getValue "fields" payload with
        | .obj _ =>
          if event.resultRevision = .int 0 ∧
              (Cell.ofText event.cardId).equals (getValue "card_id" payload) ∧
              event.actor.equals (getValue "actor" payload) then do
            let digest ← payloadHash pf "create" payload
            return if event.payloadHash = .text digest then place else .unknown
          else return .unknown
        | _ => return .unknown
      | _, _ => return .unknown
  | _ => .ok .unknown

def placeKeys : List Text :=
  ["card_id", "expected_revision", "actor", "destination", "user_request"]

/-- Does the payload of a `place` event agree with its row? -/
def placeAgrees (event : Event) (revision : ℤ) (payload : List (Text × Value)) : Bool :=
  ((event.resultRevision.within 1 revision).any fun n =>
    decide (event.expectedRevision = .int (n - 1)) &&
      (integerIn (n - 1) (n - 1) (getValue "expected_revision" payload)).isSome) &&
    keysAre payload placeKeys &&
    (Cell.ofText event.cardId).equals (getValue "card_id" payload) &&
    event.actor.equals (getValue "actor" payload) &&
    eventTimeKnown event &&
    isStatedText 500 (getValue "actor" payload) &&
    isStatedText 4000 (getValue "user_request" payload)

/-- `_location` of a `place` event with that `metadata_delta`. -/
def placeLocation (pf : Platform) (event : Event) (revision : ℤ) (delta : Value) :
    Except Exc Location := do
  match ← event.payload.loads pf.toRuntime with
  | .obj payload =>
    match destination (getValue "destination" payload) with
    | some place =>
      if placeAgrees event revision payload &&
          delta.eqv (.obj [("queue_location", getValue "destination" payload)]) then do
        let digest ← payloadHash pf "place" payload
        return if event.payloadHash = .text digest then place else .unknown
      else return .unknown
    | none => return .unknown
  | _ => return .unknown

/-- `except (ValueError, TypeError, KeyError)` -/
def isDoubt : Exc → Bool
  | .typeError _ | .keyError _ => true
  | e => e.isValueError

/-- `_location` of an event, with the revision of its card. -/
def location (pf : Platform) (event : Event) (revision : Cell) : Except Exc Location :=
  match revision.within 0 maxRevision with
  | none => .ok .unknown
  | some current =>
    let read : Except Exc Location := do
      let delta ← event.metadataDelta.loads pf.toRuntime
      if event.kind = ("create" : Text) then createLocation pf event delta
      else placeLocation pf event current delta
    match read with
    | .error e => if isDoubt e then .ok .unknown else .error e
    | .ok place => .ok place

/-- A column that `json_object` does not take. -/
def Event.hasBlob (event : Event) : Bool :=
  [event.payloadHash, event.taskId, event.expectedRevision, event.resultRevision, event.actor,
    event.time, event.reason, event.payload, event.metadataDelta].any fun
    | .blob _ => true
    | _ => false

/-- `_location` called from SQL, over the row as JSON.  A float reaches it rounded, which no check
tells apart. -/
def sqlLocation (pf : Platform) (revision : Cell) (event : Event) : Except Exc Location :=
  if event.hasBlob then .error (.sqliteError "JSON cannot hold BLOB values")
  else match location pf event revision with
    | .error _ => .error (.sqliteError "user-defined function raised exception")
    | .ok place => .ok place

/-! ## Where the journal places a card -/

/-- `ORDER BY result_revision DESC, operation_id DESC LIMIT 1` -/
def newestRow (rows : List Event) : Option Event :=
  rows.argmax fun e => toLex (e.resultRevision.key, e.operationId)

/-- `EXISTS(SELECT 1 … AND location_value(…)='unknown')` -/
def anyUnknown (pf : Platform) (revision : Cell) : List Event → Except Exc Bool
  | [] => .ok false
  | e :: rest => do
    if (← sqlLocation pf revision e) = .unknown then return true
    else anyUnknown pf revision rest

/-- `_placement_expression`, over the placement rows of a card. -/
def placementExpression (pf : Platform) (revision : Cell) (rows : List Event) :
    Except Exc Location := do
  let doubtful ← anyUnknown pf revision rows
  if doubtful || !decide (rows.map fun e => e.resultRevision.key).Nodup then return .unknown
  else match newestRow rows with
    | none => return .board
    | some e => sqlLocation pf revision e

/-- `COUNT(DISTINCT result_revision)`, which does not count nulls. -/
def distinctRevisions (rows : List Event) : ℕ :=
  ((rows.filter fun e => decide (e.resultRevision ≠ .null)).map
    fun e => e.resultRevision.key).dedup.length

/-- `_location(by_id.get(card_id), revision)`; a card without placement rows is on the board. -/
def currentLocation (pf : Platform) (revision : Cell) (rows : List Event) : Except Exc Location :=
  match newestRow rows with
  | none => .ok .board
  | some e => location pf e revision

/-- The location `_summaries` gives a card, and whether it flags its placement. -/
def queueLocation (pf : Platform) (revision : Cell) (rows : List Event) :
    Except Exc (Location × Bool) := do
  let current ← currentLocation pf revision rows
  let found ← rows.mapM (sqlLocation pf revision)
  let bad := decide (Location.unknown ∈ found) || decide (distinctRevisions rows < rows.length)
  return (if bad then .unknown else current, bad)

/-! ## Pages -/

/-- The cards and the journal, whatever they hold. -/
structure Board where
  cards : List BoardCard
  events : List Event

def Db.board (db : Db) : Board := ⟨db.cards.map Card.onBoard, db.events⟩

/-- The placement rows of a card. -/
def Board.placements (board : Board) (card : BoardCard) : List Event :=
  board.events.filter fun e => card.cardId.isSome && decide (e.cardId = card.cardId) && isPlacement e

inductive View
  | main
  | backlog
  | archive
  deriving DecidableEq

def BoardCard.isArchived (card : BoardCard) : Bool := decide (card.manualState = .archived)

/-- The `WHERE` clause of a view. -/
def Board.isMember (pf : Platform) (board : Board) (view : View) (card : BoardCard) :
    Except Exc Bool :=
  match view with
  | .archive => .ok card.isArchived
  | .main | .backlog =>
    if card.isArchived then .ok false
    else do
      let place ← placementExpression pf card.revision (board.placements card)
      return decide ((place = .backlog) ↔ (view = .backlog))

/-- `a < b` on keys; a null is in no order. -/
def keyLt (a b : Option Text) : Bool :=
  match a, b with
  | some s, some t => decide (s < t)
  | _, _ => false

/-- The key of a row, with nulls first. -/
def BoardCard.key (card : BoardCard) : WithBot Text := card.cardId

/-- `ORDER BY card_id COLLATE BINARY` -/
def sortCards (cards : List BoardCard) : List BoardCard :=
  cards.insertionSort fun a b => a.key ≤ b.key

def pageSize : ℕ := 20

/-- Where a page starts: at an end of the view, or beside the row of a cursor. -/
inductive Cursor
  | start
  | after (token : ℤ)
  | before (token : ℤ)
  deriving DecidableEq

structure Page where
  cards : List (BoardCard × Location)
  previous : Option ℤ
  next : Option ℤ

/-- `_cursor` -/
def validCursor : Cursor → Bool
  | .start => true
  | .after token | .before token => decide (-2 ^ 63 ≤ token ∧ token < 2 ^ 63)

/-- The card of a cursor, which has to be in the view. -/
def Board.cursorCard (pf : Platform) (board : Board) (view : View) (token : ℤ) :
    Except Exc BoardCard := do
  let found ← keepIf (board.isMember pf view) (board.cards.filter fun c => c.rowid = token)
  match found with
  | [] => .error (.sqliteError "page cursor unavailable")
  | c :: _ => return c

/-- The rows of a page, in the order of their keys. -/
def Board.pageRows (pf : Platform) (board : Board) (view : View) (cursor : Cursor) :
    Except Exc (List BoardCard) := do
  let members (p : BoardCard → Bool) : Except Exc (List BoardCard) :=
    (keepIf (board.isMember pf view) (board.cards.filter p)).map sortCards
  match cursor with
  | .start =>
    let rows ← members fun _ => true
    return if view = .main then rows else rows.take pageSize
  | .after token =>
    let from_ ← board.cursorCard pf view token
    return (← members fun c => keyLt from_.cardId c.cardId).take pageSize
  | .before token =>
    let from_ ← board.cursorCard pf view token
    return ((← members fun c => keyLt c.cardId from_.cardId).reverse.take pageSize).reverse

/-- `exists`: does the view have a row on that side of a card? -/
def Board.hasRow (pf : Platform) (board : Board) (view : View) (p : BoardCard → Bool) :
    Except Exc Bool :=
  (keepIf (board.isMember pf view) (board.cards.filter p)).map fun rows => !rows.isEmpty

/-- `page_snapshot`, as far as the cards and their places go. -/
def Board.pageSnapshot (pf : Platform) (board : Board) (view : View) (cursor : Cursor) :
    Except Exc Page := do
  require (validCursor cursor) (.valueError "invalid cursor")
  require (view ≠ .main || cursor = .start) (.valueError "main board is not paginated")
  let rows ← board.pageRows pf view cursor
  let cards ← rows.mapM fun c => do
    let (place, _) ← queueLocation pf c.revision (board.placements c)
    return (c, place)
  match rows.head?, rows.getLast? with
  | some first, some last =>
    if view = .main then return ⟨cards, none, none⟩
    else do
      let hasPrevious ← board.hasRow pf view fun c => keyLt c.cardId first.cardId
      let hasNext ← board.hasRow pf view fun c => keyLt last.cardId c.cardId
      return ⟨cards, if hasPrevious then some first.rowid else none,
        if hasNext then some last.rowid else none⟩
  | _, _ => return ⟨cards, none, none⟩

/-- The cards the renderer leaves on a page: it filters on the display group, which is `封存` for the
archived cards, and on the location. -/
def Page.rendered (view : View) (page : Page) : List BoardCard :=
  (page.cards.filter fun (c, place) =>
    match view with
    | .archive => c.isArchived
    | .main => !c.isArchived && decide (place ≠ .backlog)
    | .backlog => !c.isArchived && decide (place = .backlog)).map Prod.fst

/-! ## Summaries -/

/-- The value of a column that `json_valid` passes. -/
def sqlJson (rt : Runtime) : Cell → Option Value
  | .text t =>
    match rt.loads false t with
    | .ok v => if v.floats.all (fun x => decide (x ≠ .nan ∧ x ≠ .infinite false ∧
        x ≠ .infinite true)) && decide (v.depth ≤ 1000) then some v else none
    | .error _ => none
  | _ => none

/-- `json_extract(document, '$.key')`, where the document has it. -/
def jsonMember (key : Text) : Value → Option Value
  | .obj items => dictGet key items
  | _ => none

def isReport (event : Event) : Bool := decide (event.kind = ("report-progress" : Text))

def isEdit (event : Event) : Bool := decide (event.kind = ("edit" : Text))

/-- `user_report` -/
def isUserReport (rt : Runtime) (event : Event) : Bool :=
  isReport event && (decide (event.actor = .text "USER") ||
    ((sqlJson rt event.payload).bind (jsonMember "actor")).any fun v => v.eqv (.str "USER"))

/-- `nonuser_report` -/
def isNonuserReport (event : Event) : Bool :=
  isReport event && decide (event.actor ≠ .text "USER")

/-- `WORKER_EVENT_PREDICATE` -/
def isWorkerEvent (rt : Runtime) (event : Event) : Bool :=
  isReport event &&
    match sqlJson rt event.payload with
    | some (.obj items) =>
      decide (("worker_observation" : Text) ∈ dictKeys items) ||
        decide (("worker_binding" : Text) ∈ dictKeys items)
    | _ => true

/-- An edit whose `metadata_delta` is no JSON object. -/
def isBadEdit (rt : Runtime) (event : Event) : Bool :=
  isEdit event &&
    match sqlJson rt event.metadataDelta with
    | some (.obj _) => false
    | _ => true

/-- An edit that names the scope fields it changed. -/
def isScopeEdit (rt : Runtime) (event : Event) : Bool :=
  isEdit event &&
    match (sqlJson rt event.metadataDelta).bind (jsonMember "scope_fields_changed") with
    | some (.obj _) => true
    | some v => v.truthy
    | none => false

/-- The events a card is judged by: the newest accepted one of each kind of evidence. -/
def evidence (rt : Runtime) (events : List Event) : List Event :=
  let accepted := events.filter fun e => decide (e.result = .accepted)
  let selected := [isReport, isUserReport rt, isNonuserReport, isWorkerEvent rt, isBadEdit rt,
    isScopeEdit rt].filterMap fun p => newestRow (accepted.filter p)
  (dictOf (selected.map fun e => (e.operationId, e))).map Prod.snd

/-- `typeof(value)='integer' AND minimum<=value AND value<=maximum` -/
def isWithin (minimum maximum : ℤ) (c : Cell) : Bool := (c.within minimum maximum).isSome

/-- The newest revision of a report, or -1. -/
def newestReport (events : List Event) : ℕ ×ₗ ℚ ×ₗ List ℕ :=
  ((events.filter fun e => isAcceptedReport e && decide (e.resultRevision ≠ .null)).map
    fun e => e.resultRevision.key).foldl max (Cell.int (-1)).key

/-- `summary_flags` of a card, from its events and its nights. -/
def summaryFlags (rt : Runtime) (card : Card) (events : List Event) (nights : List Night)
    (badLocation : Bool) : Flags where
  badCard := !validRevision card.revision || !validRevision card.approvalGeneration
  badTime := events.any fun e => !eventTimeKnown e
  badRevision := events.any fun e =>
    (isEdit e || isReport e) && decide (e.result = .accepted) &&
      !isWithin 1 card.revision e.resultRevision
  badEdit := events.any fun e =>
    isEdit e && decide (e.result = .accepted) && decide (e.resultRevision ≠ .null) &&
      decide (newestReport events < e.resultRevision.key) && isBadEdit rt e
  badLocation := badLocation
  badWorker :=
    let rows := events.filter fun e => decide (e.result = .accepted) && isWorkerEvent rt e
    decide (distinctRevisions rows < rows.length)
  badNight := nights.any fun n =>
    decide (n.phase ∉ (["reserved", "submitted", "stopped"] : List Text))

/-- What `_summaries` returns for a card. -/
structure Summary where
  events : List Event
  flags : Flags
  location : Location

/-- `_summaries`, for one card. -/
def summary (pf : Platform) (db : Db) (card : Card) : Except Exc Summary := do
  let events := db.eventsOf card.cardId
  let (place, bad) ← queueLocation pf (.int card.revision) (events.filter isPlacement)
  return ⟨evidence pf.toRuntime events,
    summaryFlags pf.toRuntime card events (db.nights.filter fun n => n.cardId = card.cardId) bad,
    place⟩

/-- The task of a card. -/
def Db.taskOf (db : Db) (card : Card) : Option TaskRow :=
  card.taskId.bind fun id => db.tasks.find? fun t => t.id = id

/-- What `page_snapshot` hands `project` for a card: its evidence, and no night. -/
def pageData (pf : Platform) (db : Db) (card : Card) : Except Exc CardData := do
  let s ← summary pf db card
  return ⟨card, s.events, [], db.taskOf card, s.flags, s.location⟩

/-- What `snapshot` hands `project` for a card: all its events, and all its nights. -/
def snapshotData (pf : Platform) (db : Db) (card : Card) : Except Exc CardData := do
  let s ← summary pf db card
  let events := (db.eventsOf card.cardId).insertionSort fun e f => e.operationId ≤ f.operationId
  return ⟨card, events, db.nights.filter fun n => n.cardId = card.cardId, db.taskOf card, s.flags,
    s.location⟩

end Kanban

end AgentOrch
