import AgentOrch.Construction.Database
import AgentOrch.Construction.Retained
import AgentOrch.Framework.Glob
import AgentOrch.Framework.Traces

/-!
# The daemon

`run_daemon` serves request files: a file moves from `inbox/` to `processing/`, `_handle` carries
out its action, writes a result, and moves the file on.  A start first blocks the tasks a crash
left running, and then looks at what is left in the two directories.

The model takes one step for every transaction and every file that appears, moves or is
overwritten; the daemon can die between any two of them.  Requests are well-formed: what `_handle`
does with other files is no part of the queue.
-/

namespace AgentOrch

open Py Json

/-! ## Requests and results -/

/-- What a request asks for; `task_id` of a run request is optional. -/
inductive Action
  | run (taskId : Option Text)
  | resume (taskId : Text) (rerunStage : Bool)
  | kanban

structure Request where
  requestId : Text
  action : Action

/-- `req.get("task_id") or request_id`. -/
def Request.taskFor (request : Request) (taskId : Option Text) : Text :=
  match taskId with
  | some id => if id.isEmpty then request.requestId else id
  | none => request.requestId

/-- The stamp of a result: `uuid.uuid4().hex[:8]`. -/
structure ResultStamp where
  text : Text
  digits : text.length = 8 ∧ text.all (fun c => (hexDigit c).isSome) = true

/-- `f"{req_path.stem}.{stamp}.result.json"`. -/
def resultName (name : Text) (stamp : ResultStamp) : Text :=
  stem name ++ "." ++ stamp.text ++ ".result.json"

/-- `f"{path.stem}.*.result.json"`. -/
def resultPattern (name : Text) : Text := stem name ++ ".*.result.json"

/-- A file the service polls for. -/
def isRequestFile (name : Text) : Bool := fnmatch name "*.json"

def isHidden (name : Text) : Bool := name.head? = some 0x2E

/-! ## The service -/

inductive Place
  | inbox
  | processing
  deriving DecidableEq

/-- How far `_handle` is with a request: it has read it, runs a task, has claimed a run whose
provider was not called yet or has returned, has left the loop, has an outcome, has written it. -/
inductive Activity
  | received
  | looping (id : Text)
  | claimed (id token : Text)
  | returned (id token : Text)
  | stopped
  | answered
  | written

inductive Phase
  | down
  | starting (orphans : List Text)
  | scanning (place : Place) (names : List Text)
  | polling (place : Place) (names : List Text)
  | idle
  | handling (name : Text) (request : Request) (activity : Activity) (place : Place)
      (names : List Text)

/-- The database, the directories under the home, and where the process stands.  A result file is
kept with the identity of the request it is the result of. -/
structure Daemon where
  db : Db
  inbox : List (Text × Request)
  processing : List (Text × Request)
  quarantine : List Request
  results : List (Text × Text)
  phase : Phase

/-- What one step does. -/
inductive Event
  | drop (name : Text) (request : Request)
  | crash
  | block (id : Text)
  | submit (id operationId : Text)
  | resume (id operationId : Text)
  | claim (id token : Text)
  | invoke (id token : Text)
  | commit (id token : Text)
  | stop (id : Text)
  | answer (requestId : Text)
  | write (requestId : Text)
  | reconcile (name : Text) (request : Request)
  | internal

/-- The operation identities of all transitions. -/
def Db.operationIds (db : Db) : List Text := db.flatMap fun t => t.2.operationIds

namespace Daemon

def files (d : Daemon) : Place → List (Text × Request)
  | .inbox => d.inbox
  | .processing => d.processing

/-- Does `processed.glob` find a result for the file? -/
def finished (d : Daemon) (name : Text) : Bool :=
  d.results.any fun result => fnmatch result.1 (resultPattern name)

/-- A directory without one file. -/
def without (name : Text) (files : List (Text × Request)) : List (Text × Request) :=
  files.filter fun file => file.1 ≠ name

def remove (d : Daemon) (place : Place) (name : Text) : Daemon :=
  match place with
  | .inbox => { d with inbox := without name d.inbox }
  | .processing => { d with processing := without name d.processing }

def runningTasks (d : Daemon) : List Text :=
  (d.db.filter fun t => t.2.task.status = .running).map Prod.fst

/-- The tasks change in one transaction on one task. -/
def set (d : Daemon) (id : Text) (s : TaskStore) (phase : Phase) : Daemon :=
  { d with db := dictSet id s d.db, phase := phase }

/-- One step of `_handle`, from one activity to the next.  Whatever raises an exception `_handle`
catches leads to an outcome as well; a board command has its outcome at once. -/
inductive Handle (rt : Runtime) (request : Request) (d : Daemon) :
    Activity → Event → Db → Activity → Prop
  | fail (activity : Activity) (h : activity ≠ .answered ∧ activity ≠ .written) :
    Handle rt request d activity (.answer request.requestId) d.db .answered
  | kanban (haction : request.action = .kanban) :
    Handle rt request d .received (.answer request.requestId) d.db .answered
  | submit (taskId : Option Text) (sub : Submission) (s : TaskStore)
      (haction : request.action = .run taskId)
      (hnew : dictGet (request.taskFor taskId) d.db = none)
      (hid : sub.operationId = request.requestId)
      (h : submitTask (d.db.takenBeside (request.taskFor taskId)) sub = .ok s) :
    Handle rt request d .received (.submit (request.taskFor taskId) request.requestId)
      (dictSet (request.taskFor taskId) s d.db) (.looping (request.taskFor taskId))
  | submitted (taskId : Option Text) (sub : Submission) (s : TaskStore)
      (haction : request.action = .run taskId)
      (hs : dictGet (request.taskFor taskId) d.db = some s)
      (hsame : s.task.type = sub.taskType ∧ s.frozen = sub.frozen ∧ s.input = sub.input) :
    Handle rt request d .received .internal d.db (.looping (request.taskFor taskId))
  | resume (id : Text) (rerunStage : Bool) (s s' : TaskStore)
      (haction : request.action = .resume id rerunStage)
      (hnew : request.requestId ∉ d.db.operationIds) (hs : dictGet id d.db = some s)
      (h : s.perform rt (d.db.takenBeside id) (.resume request.requestId rerunStage) = .ok s') :
    Handle rt request d .received (.resume id request.requestId) (dictSet id s' d.db) (.looping id)
  | resumed (id : Text) (rerunStage : Bool) (s : TaskStore)
      (haction : request.action = .resume id rerunStage) (hs : dictGet id d.db = some s)
      (happlied : request.requestId ∈ s.operationIds) :
    Handle rt request d .received .internal d.db (.looping id)
  | status (id : Text) (s : TaskStore) (hs : dictGet id d.db = some s)
      (hstopped : s.task.status ≠ .queued ∧ s.task.status ≠ .running) :
    Handle rt request d (.looping id) .internal d.db .stopped
  | block (id : Text) (s s' : TaskStore) (stamp : Stamp) (hs : dictGet id d.db = some s)
      (h : s.perform rt (d.db.takenBeside id) (.blockOrphan stamp) = .ok s') :
    Handle rt request d (.looping id) (.block id) (dictSet id s' d.db) .stopped
  | preflight (id : Text) (s s' : TaskStore) (stamp : Stamp) (stop : TaskStore.PreflightStop)
      (hs : dictGet id d.db = some s)
      (h : s.perform rt (d.db.takenBeside id) (.preflightStop stamp stop) = .ok s') :
    Handle rt request d (.looping id) (.stop id) (dictSet id s' d.db) .stopped
  | cap (id : Text) (s s' : TaskStore) (stamp : Stamp) (model : Option Text)
      (hs : dictGet id d.db = some s)
      (h : s.claimStage rt (d.db.takenBeside id) stamp model = .ok (.stopped s')) :
    Handle rt request d (.looping id) (.stop id) (dictSet id s' d.db) .stopped
  | claim (id : Text) (s s' : TaskStore) (stamp : Stamp) (model : Option Text)
      (hs : dictGet id d.db = some s)
      (h : s.claimStage rt (d.db.takenBeside id) stamp model = .ok (.claimed s')) :
    Handle rt request d (.looping id) (.claim id stamp.runToken) (dictSet id s' d.db)
      (.claimed id stamp.runToken)
  | reject (id token : Text) (s s' : TaskStore) (stamp : Stamp) (message : Text)
      (hs : dictGet id d.db = some s)
      (henvelope : extractEnvelope rt s.inputText = .error (.envelopeError message))
      (h : s.stopClaimedRun rt (d.db.takenBeside id) stamp token message = .ok s') :
    Handle rt request d (.claimed id token) (.commit id token) (dictSet id s' d.db) .stopped
  | invoke (id token : Text) :
    Handle rt request d (.claimed id token) (.invoke id token) d.db (.returned id token)
  | commit (id token : Text) (s s' : TaskStore) (stamp : Stamp) (run : StageRun) (stage : Stage)
      (envelope : Option Envelope) (context : Option ConvergenceContext) (raw : RunResult)
      (hs : dictGet id d.db = some s) (hraw : Observed rt raw)
      (hstage : s.profile.stage s.task.currentStage = .ok stage)
      (henvelope : extractEnvelope rt s.inputText = .ok envelope)
      (h : s.finishRun rt (d.db.takenBeside id) stamp token stage envelope context raw = .ok s') :
    Handle rt request d (.returned id token) (.commit id token) (dictSet id s' d.db) (.looping id)
  | answer : Handle rt request d .stopped (.answer request.requestId) d.db .answered

/-- One step of the service, of its caller, or its end. -/
inductive Step (rt : Runtime) (d : Daemon) : Event → Daemon → Prop
  | drop (name : Text) (request : Request) (hname : name ∉ dictKeys d.inbox)
      (hfile : isRequestFile name = true) :
    Step rt d (.drop name request) { d with inbox := d.inbox ++ [(name, request)] }
  | crash : Step rt d .crash { d with phase := .down }
  | start (hphase : d.phase = .down) :
    Step rt d .internal { d with phase := .starting d.runningTasks }
  | block (id : Text) (orphans : List Text) (s s' : TaskStore) (stamp : Stamp)
      (hphase : d.phase = .starting (id :: orphans)) (hs : dictGet id d.db = some s)
      (h : s.perform rt (d.db.takenBeside id) (.blockOrphan stamp) = .ok s') :
    Step rt d (.block id) (d.set id s' (.starting orphans))
  | started (hphase : d.phase = .starting []) :
    Step rt d .internal { d with phase := .scanning .inbox (dictKeys d.inbox) }
  | keep (place : Place) (name : Text) (names : List Text)
      (hphase : d.phase = .scanning place (name :: names))
      (h : isHidden name = true ∨ (suffix name = ".json" ∧ d.finished name = false)) :
    Step rt d .internal { d with phase := .scanning place names }
  | quarantine (place : Place) (name : Text) (names : List Text) (request : Request)
      (hphase : d.phase = .scanning place (name :: names))
      (hfile : dictGet name (d.files place) = some request)
      (h : isHidden name = true ∨ suffix name ≠ ".json") :
    Step rt d .internal { d.remove place name with
      quarantine := d.quarantine ++ [request], phase := .scanning place names }
  | reconcile (place : Place) (name : Text) (names : List Text) (request : Request)
      (hphase : d.phase = .scanning place (name :: names))
      (hfile : dictGet name (d.files place) = some request)
      (hplain : isHidden name = false ∧ suffix name = ".json") (h : d.finished name = true) :
    Step rt d (.reconcile name request) { d.remove place name with phase := .scanning place names }
  | scanned (hphase : d.phase = .scanning .inbox []) :
    Step rt d .internal { d with phase := .scanning .processing (dictKeys d.processing) }
  | ready (hphase : d.phase = .scanning .processing []) :
    Step rt d .internal { d with phase := .idle }
  | poll (hphase : d.phase = .idle) : Step rt d .internal { d with
      phase := .polling .processing ((dictKeys d.processing).filter isRequestFile) }
  | replay (name : Text) (names : List Text) (request : Request)
      (hphase : d.phase = .polling .processing (name :: names))
      (hfile : dictGet name d.processing = some request) :
    Step rt d .internal { d with phase := .handling name request .received .processing names }
  | replayed (hphase : d.phase = .polling .processing []) : Step rt d .internal { d with
      phase := .polling .inbox ((dictKeys d.inbox).filter isRequestFile) }
  | take (name : Text) (names : List Text) (request : Request)
      (hphase : d.phase = .polling .inbox (name :: names))
      (hfile : dictGet name d.inbox = some request) :
    Step rt d .internal { d with
      inbox := without name d.inbox, processing := dictSet name request d.processing
      phase := .handling name request .received .inbox names }
  | polled (hphase : d.phase = .polling .inbox []) : Step rt d .internal { d with phase := .idle }
  | handle (name : Text) (request : Request) (activity activity' : Activity) (place : Place)
      (names : List Text) (event : Event) (db : Db)
      (hphase : d.phase = .handling name request activity place names)
      (h : Handle rt request d activity event db activity') :
    Step rt d event { d with db := db, phase := .handling name request activity' place names }
  | write (name : Text) (request : Request) (place : Place) (names : List Text)
      (stamp : ResultStamp) (hphase : d.phase = .handling name request .answered place names) :
    Step rt d (.write request.requestId) { d with
      results := dictSet (resultName name stamp) request.requestId d.results
      phase := .handling name request .written place names }
  | finish (name : Text) (request : Request) (place : Place) (names : List Text)
      (hphase : d.phase = .handling name request .written place names) :
    Step rt d .internal { d.remove .processing name with phase := .polling place names }

/-- Before the first start. -/
def Fresh (d : Daemon) : Prop :=
  d = ⟨[], [], [], [], [], .down⟩

/-- The executions of the service, with what happened so far. -/
abbrev Runs (rt : Runtime) (condition : Daemon → Event → Prop) : Daemon → List Event → Prop :=
  Trace Fresh fun d event d' => condition d event ∧ Step rt d event d'

end Daemon

end AgentOrch
