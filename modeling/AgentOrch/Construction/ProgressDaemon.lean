import AgentOrch.Construction.Daemon
import AgentOrch.Construction.Kanban.Commands
import AgentOrch.Framework.JsonKeys

/-!
# The daemon in progress-management mode

In this mode the service scans `processing/` and `inbox/` for board commands of a fixed list and
leaves every other file where it is.  A request is claimed, executed, answered and archived in four
steps; the result and the archived request are named after the stem of the file.

The model takes one step for each of them, and the service can die between any two.  A result is
kept as what reading it gives; a file is a regular one.
-/

namespace AgentOrch

open Py Json

namespace ProgressDaemon

/-! ## Requests -/

/-- `PROGRESS_COMMANDS` -/
def progressCommands : List Text :=
  ["create", "edit", "report-progress", "archive", "place", "quota-cli-attempt"]

/-- `json.loads(path.read_text(encoding="utf-8"))` -/
def readJson (rt : Runtime) (content : Bytes) : Except Exc Value :=
  match decodeStrict content with
  | some text => rt.loads false (universalNewlines text)
  | none => .error .unicodeDecodeError

/-- `validate_request` of the quota reader's attempts. -/
def validateRequest (items : List (Text × Value)) : Bool :=
  keysAre items Kanban.requestKeys && (getValue "action" items).eqv (.str "kanban") &&
    (getValue "command" items).eqv (.str "quota-cli-attempt") &&
    (match getValue "payload" items with
      | .obj payload => (Kanban.validateAttempt payload).isSome
      | _ => false) &&
    (Kanban.textThat Trajectory.isUuid (getValue "request_id" items)).isSome &&
    (Kanban.textThat Trajectory.isUuid (getValue "operation_id" items)).isSome

/-- A board command of the list. -/
def isAllowed (items : List (Text × Value)) : Bool :=
  (getValue "action" items).eqv (.str "kanban") &&
    match getValue "command" items with
    | .str command => decide (command ∈ progressCommands) &&
        (decide (command ≠ ("quota-cli-attempt" : Text)) || validateRequest items)
    | _ => false

/-- What `_progress_request` makes of a file; a document that is nested too deep raises. -/
inductive Classified
  | nonRequest
  | unreadable
  | notAllowed
  | raises
  | allowed (request : Kanban.Request)

lemma readJson_wellKeyed {rt : Runtime} {content : Bytes} {v : Value}
    (h : readJson rt content = .ok v) : v.wellKeyed = true := by
  unfold readJson at h
  split at h
  · unfold Runtime.loads at h
    split at h
    · rename_i hloads
      obtain rfl := Except.ok.inj h
      exact loads_wellKeyed hloads
    all_goals cases h
  · cases h

/-- `_progress_request` -/
def progressRequest (rt : Runtime) (name : Text) (content : Bytes) : Classified :=
  if isHidden name || suffix name ≠ ".json" then .nonRequest
  else
    match h : readJson rt content with
    | .error .recursionError => .raises
    | .error _ => .unreadable
    | .ok (.obj items) =>
      if isAllowed items then .allowed ⟨items, readJson_wellKeyed h⟩ else .notAllowed
    | .ok _ => .notAllowed

/-! ## The service -/

/-- A file of `processed/` that ends in `.progress.result.json`, as reading it gives: the request it
records, if it can be read and has one, and the answer, or the name of what was raised. -/
structure ResultFile where
  request : Option Value
  requestId : Value
  answer : Except Text Kanban.Outcome

/-- How far `_progress_handle` is with a request. -/
inductive Activity
  | received
  | executed (result : ResultFile)
  | answered

inductive Phase
  | down
  | idle
  | scanning (place : Place) (names : List Text)
  | handling (name : Text) (request : Kanban.Request) (activity : Activity) (place : Place)
      (names : List Text)

/-- The tables, the directories, and where the service stands.  `requests` and `results` are the
files `<stem>.progress.request.json` and `<stem>.progress.result.json` of `processed/`. -/
structure State where
  db : Kanban.Db
  inbox : List (Text × Bytes)
  processing : List (Text × Bytes)
  requests : List (Text × Bytes)
  results : List (Text × ResultFile)
  phase : Phase

def State.files (d : State) : Place → List (Text × Bytes)
  | .inbox => d.inbox
  | .processing => d.processing

/-- A directory without one file. -/
def without (name : Text) (files : List (Text × Bytes)) : List (Text × Bytes) :=
  files.filter fun file => file.1 ≠ name

/-- `sorted(directory.iterdir())` -/
def sortedNames (files : List (Text × Bytes)) : List Text :=
  (dictKeys files).insertionSort fun a b => !decide (b < a)

/-- What `_progress_handle` catches; anything else ends the service. -/
def isCaught : Exc → Bool
  | .kanbanError _ | .keyError _ | .typeError _ | .valueError _ | .unicodeDecodeError
  | .unicodeEncodeError | .jsonDecodeError _ | .sqliteError _ | .integrityError => true
  | _ => false

/-- `type(exc).__name__` of what is caught. -/
def exceptionName : Exc → Text
  | .kanbanError _ => "KanbanError"
  | .keyError _ => "KeyError"
  | .typeError _ => "TypeError"
  | .unicodeDecodeError => "UnicodeDecodeError"
  | .unicodeEncodeError => "UnicodeEncodeError"
  | .jsonDecodeError _ => "JSONDecodeError"
  | .sqliteError _ => "OperationalError"
  | .integrityError => "IntegrityError"
  | _ => "ValueError"

/-- The request's identity is a canonical UUID. -/
def hasRequestId (request : Kanban.Request) : Bool :=
  (Kanban.textThat Trajectory.isUuid (getValue "request_id" request.items)).isSome

/-- The call of the board, once the identity of the request is checked. -/
def execute (pf : Platform) (env : Kanban.Environment) (db : Kanban.Db)
    (request : Kanban.Request) : Except Exc (Kanban.Outcome × Kanban.Db) :=
  if hasRequestId request then Kanban.handleRequest pf env db request
  else if ("request_id" : Text) ∈ dictKeys request.items then
    .error (.valueError "invalid request id")
  else .error (.keyError "request_id")

/-- An attempt of the quota reader is looked at again before anything else. -/
def isUnchanged (rt : Runtime) (d : State) (name : Text) (request : Kanban.Request) : Bool :=
  !(getValue "command" request.items).eqv (.str "quota-cli-attempt") ||
    match (dictGet name d.processing).map (progressRequest rt name) with
    | some (.allowed checked) => (Value.obj checked.items).eqv (.obj request.items)
    | _ => false

/-- What happens: a file appears in a free place, a request is executed, a request is archived. -/
inductive Event
  | deliver (place : Place) (name : Text) (content : Bytes)
  | execute (call : Kanban.Call)
  | archive (name : Text) (content : Bytes)
  | internal

/-- One step of the service, of its caller, or its end.  A file that this mode did not move stands in
`processing/` only from before it was started.  The database may fail before a request is executed. -/
inductive Step (pf : Platform) (d : State) : Event → State → Prop
  | deliver (name : Text) (content : Bytes) (hname : name ∉ dictKeys d.inbox) :
    Step pf d (.deliver .inbox name content) { d with inbox := d.inbox ++ [(name, content)] }
  | left (name : Text) (content : Bytes) (hname : name ∉ dictKeys d.processing)
      (hphase : d.phase = .down) :
    Step pf d (.deliver .processing name content)
      { d with processing := d.processing ++ [(name, content)] }
  | crash : Step pf d .internal { d with phase := .down }
  | start (hphase : d.phase = .down) : Step pf d .internal { d with phase := .idle }
  | scan (hphase : d.phase = .idle) :
    Step pf d .internal { d with phase := .scanning .processing (sortedNames d.processing) }
  | scanned (hphase : d.phase = .scanning .processing []) :
    Step pf d .internal { d with phase := .scanning .inbox (sortedNames d.inbox) }
  | rest (hphase : d.phase = .scanning .inbox []) : Step pf d .internal { d with phase := .idle }
  | skip (place : Place) (name : Text) (names : List Text)
      (hphase : d.phase = .scanning place (name :: names))
      (hfile : ∀ content request, dictGet name (d.files place) = some content →
        progressRequest pf.toRuntime name content ≠ .allowed request) :
    Step pf d .internal { d with phase := .scanning place names }
  | collide (name : Text) (names : List Text) (hphase : d.phase = .scanning .inbox (name :: names))
      (hclaimed : name ∈ dictKeys d.processing) :
    Step pf d .internal { d with phase := .scanning .inbox names }
  | claim (name : Text) (names : List Text) (content : Bytes) (request : Kanban.Request)
      (hphase : d.phase = .scanning .inbox (name :: names))
      (hfile : dictGet name d.inbox = some content)
      (hallowed : progressRequest pf.toRuntime name content = .allowed request)
      (hfree : name ∉ dictKeys d.processing) :
    Step pf d .internal { d with
      inbox := without name d.inbox
      processing := d.processing ++ [(name, content)]
      phase := .handling name request .received .inbox names }
  | resume (name : Text) (names : List Text) (content : Bytes) (request : Kanban.Request)
      (hphase : d.phase = .scanning .processing (name :: names))
      (hfile : dictGet name d.processing = some content)
      (hallowed : progressRequest pf.toRuntime name content = .allowed request) :
    Step pf d .internal { d with phase := .handling name request .received .processing names }
  | changed (name : Text) (request : Kanban.Request) (place : Place) (names : List Text)
      (hphase : d.phase = .handling name request .received place names)
      (h : isUnchanged pf.toRuntime d name request = false) :
    Step pf d .internal { d with phase := .scanning place names }
  | found (name : Text) (request : Kanban.Request) (place : Place) (names : List Text)
      (result : ResultFile) (recorded : Value)
      (hphase : d.phase = .handling name request .received place names)
      (h : isUnchanged pf.toRuntime d name request = true)
      (hresult : dictGet (stem name) d.results = some result)
      (hrequest : result.request = some recorded)
      (hsame : recorded.eqv (.obj request.items) = true) :
    Step pf d .internal { d with phase := .handling name request .answered place names }
  | differs (name : Text) (request : Kanban.Request) (place : Place) (names : List Text)
      (result : ResultFile)
      (hphase : d.phase = .handling name request .received place names)
      (hresult : dictGet (stem name) d.results = some result)
      (hother : ∀ recorded, result.request = some recorded →
        recorded.eqv (.obj request.items) = false) :
    Step pf d .internal { d with phase := .scanning place names }
  | execute (name : Text) (request : Kanban.Request) (place : Place) (names : List Text)
      (env : Kanban.Environment) (out : Kanban.Outcome) (db : Kanban.Db)
      (hphase : d.phase = .handling name request .received place names)
      (h : isUnchanged pf.toRuntime d name request = true)
      (hresult : dictGet (stem name) d.results = none)
      (hexecute : execute pf env d.db request = .ok (out, db)) :
    Step pf d (.execute ⟨env, request⟩) { d with
      db := db
      phase := .handling name request (.executed
        ⟨some (.obj request.items), getValue "request_id" request.items, .ok out⟩) place names }
  | refuse (name : Text) (request : Kanban.Request) (place : Place) (names : List Text)
      (env : Kanban.Environment) (exc : Exc)
      (hphase : d.phase = .handling name request .received place names)
      (h : isUnchanged pf.toRuntime d name request = true)
      (hresult : dictGet (stem name) d.results = none)
      (hexecute : execute pf env d.db request = .error exc ∨ ∃ message, exc = .sqliteError message)
      (hcaught : isCaught exc = true) :
    Step pf d .internal { d with
      phase := .handling name request (.executed ⟨some (.obj request.items),
        getValue "request_id" request.items, .error (exceptionName exc)⟩) place names }
  | write (name : Text) (request : Kanban.Request) (place : Place) (names : List Text)
      (result : ResultFile)
      (hphase : d.phase = .handling name request (.executed result) place names) :
    Step pf d .internal { d with
      results := dictSet (stem name) result d.results
      phase := .handling name request .answered place names }
  | kept (name : Text) (request : Kanban.Request) (place : Place) (names : List Text)
      (content archived : Bytes)
      (hphase : d.phase = .handling name request .answered place names)
      (hfile : dictGet name d.processing = some content)
      (harchived : dictGet (stem name) d.requests = some archived) (hother : archived ≠ content) :
    Step pf d .internal { d with phase := .scanning place names }
  | archive (name : Text) (request : Kanban.Request) (place : Place) (names : List Text)
      (content : Bytes)
      (hphase : d.phase = .handling name request .answered place names)
      (hfile : dictGet name d.processing = some content)
      (harchived : ∀ archived, dictGet (stem name) d.requests = some archived →
        archived = content) :
    Step pf d (.archive name content) { d with
      processing := without name d.processing
      requests := dictSet (stem name) content d.requests
      phase := .scanning place names }

/-- Before the first file; the board may have been used before. -/
def Fresh (pf : Platform) (tasks : List Kanban.TaskRow) (d : State) : Prop :=
  ∃ earlier, d = ⟨Kanban.run pf (.fresh tasks) earlier, [], [], [], [], .down⟩

/-- The executions of the service, with what happened so far. -/
abbrev Runs (pf : Platform) (tasks : List Kanban.TaskRow) : State → List Event → Prop :=
  Trace (Fresh pf tasks) (Step pf)

end ProgressDaemon

end AgentOrch
