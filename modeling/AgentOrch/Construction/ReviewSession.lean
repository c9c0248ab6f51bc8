import AgentOrch.Construction.Exceptions
import AgentOrch.Framework.Dict
import AgentOrch.Framework.Traces
import Mathlib.Logic.Function.Basic

/-!
# The sessions of the reviewers

A series of reviews goes through one provider session, whose record is a file of its own.  Any number
of processes register series, call the provider, finish calls, reconcile and rehydrate; each holds the
lock of the registry or of one series while it works, and dies at any point, which gives the lock back.

An identity that is drawn counts from where it is first named to others.  The checks of a receipt to
import, of the reason and of the checkpoint only refuse, and are left out.
-/

namespace AgentOrch

open Py

namespace ReviewSession

/-! ## Records -/

inductive SessionState
  | new
  | ready
  deriving DecidableEq

/-- Who runs the process. -/
structure RuntimeOwner where
  uid : ℤ
  host : Text
  deriving DecidableEq

/-- What a record says of the last receipt: that of an import, or the manifest of a call. -/
inductive Evidence
  | imported (receiptSha256 : Text)
  | completed (manifestPath manifestHash : Text)

/-- A record of `review-sessions/`; `pending` is the log of the call that is not resolved. -/
structure Record where
  specSeriesId : Text
  sessionId : Text
  model : Text
  cwd : Text
  uid : ℤ
  host : Text
  state : SessionState
  pending : Option Text
  lastReceipt : Option Evidence
  contextRehydrated : Bool

structure Binding where
  specSeriesId : Text
  sessionId : Text
  model : Text
  cwd : Text
  uid : ℤ
  host : Text
  deriving DecidableEq

/-- `binding` -/
def Record.binding (r : Record) : Binding :=
  ⟨r.specSeriesId, r.sessionId, r.model, r.cwd, r.uid, r.host⟩

def reviewModel : Text := "claude-fable-5-1"

/-- The record `register` writes. -/
def newRecord (series sid cwd : Text) (owner : RuntimeOwner) (receipt : Option Text) : Record where
  specSeriesId := series
  sessionId := sid
  model := reviewModel
  cwd := cwd
  uid := owner.uid
  host := owner.host
  state := if receipt.isSome then .ready else .new
  pending := none
  lastReceipt := receipt.map Evidence.imported
  contextRehydrated := false

/-- How a record is inspected: what it must agree with, what is let pass, who asks, and whether the
directory of the session is there. -/
structure Inspection where
  expected : Option Binding
  allowPending : Bool
  allowMissingCwd : Bool
  owner : RuntimeOwner
  cwdAvailable : Bool

/-- `inspect` -/
def inspect (series : Text) (how : Inspection) : Option Record → Except Exc Record
  | none => .error (.executionConfigError "review_session_missing")
  | some record => do
    require (decide (record.specSeriesId = series))
      (.executionConfigError "review session binding mismatch")
    require (decide (record.uid = how.owner.uid) && decide (record.host = how.owner.host))
      (.executionConfigError "review session belongs to another runtime owner")
    require (decide (record.model = reviewModel))
      (.executionConfigError "invalid review session identity")
    require (how.allowMissingCwd || how.cwdAvailable)
      (.executionConfigError "review session canonical cwd unavailable")
    require (how.expected.all fun expected => decide (record.binding = expected))
      (.executionConfigError "review session changed since task intake")
    require (record.pending.isNone || how.allowPending) (.executionConfigError
      "review_session_interrupted_unknown: reconcile the sealed run before resuming")
    return record

/-- How `bind_session` and `call` inspect. -/
def strictly (expected : Binding) (owner : RuntimeOwner) (cwdAvailable : Bool) : Inspection :=
  ⟨some expected, false, false, owner, cwdAvailable⟩

/-- How `rehydrate` inspects. -/
def leniently (owner : RuntimeOwner) (cwdAvailable : Bool) : Inspection :=
  ⟨none, true, true, owner, cwdAvailable⟩

/-! ## Finishing a call -/

/-- A manifest as it stands on the disk: its hash, and what it says. -/
structure ManifestFile where
  sha256 : Text
  taskId : Option Text
  runToken : Option Text
  logPath : Option Text
  providerSessionId : Option Text
  providerReportedModel : Option Text
  sessionSeries : Option Text

/-- The arguments of `finish`, and the manifest it reads. -/
structure Completion where
  logPath : Text
  manifestPath : Text
  manifestHash : Text
  manifest : ManifestFile

/-- What `finish` writes. -/
def finishRecord (record : Record) (c : Completion) : Except Exc Record := do
  require (decide (c.manifest.sha256 = c.manifestHash))
    (.executionConfigError "session completion manifest hash mismatch")
  require (decide (record.pending = some c.logPath) && decide (c.manifest.logPath = some c.logPath))
    (.executionConfigError "session completion run mismatch")
  require (decide (c.manifest.providerSessionId = some record.sessionId) &&
      decide (c.manifest.providerReportedModel = some record.model))
    (.executionConfigError "resume_failed: provider session/model was not confirmed")
  return { record with
    pending := none
    state := .ready
    lastReceipt := some (.completed c.manifestPath c.manifestHash) }

/-- A run of the database, with the path and the hash of its manifest, and the manifest there. -/
structure SealedRun where
  runToken : Text
  running : Bool
  logPath : Text
  manifestRef : Option (Text × Text)
  manifest : ManifestFile

/-- The run `reconcile` finishes, from the newest one on. -/
def reconcileTarget (taskId : Text) : List SealedRun → Except Exc (Text × Completion)
  | [] => .error (.executionConfigError
      "no committed review receipt; do not replay an unknown provider call")
  | run :: rest =>
    match run.running, run.manifestRef with
    | false, some (path, hash) => do
      require (decide (run.manifest.sha256 = hash))
        (.executionConfigError "reconciliation manifest was modified")
      match run.manifest.sessionSeries with
      | none => reconcileTarget taskId rest
      | some series => do
        require (decide (run.manifest.taskId = some taskId) &&
            decide (run.manifest.runToken = some run.runToken))
          (.executionConfigError "reconciliation task/run binding mismatch")
        return (series, ⟨run.logPath, path, hash, run.manifest⟩)
    | _, _ => reconcileTarget taskId rest

/-! ## Processes -/

/-- Where a process stands.  `registering` holds the lock of the registry and has these files left to
compare with; what follows `bound` holds the lock of its series. -/
inductive Phase
  | idle
  | registering (record : Record) (others : List Text)
  | bound (series : Text) (expected : Binding) (state : SessionState)
  | calling (series : Text) (expected : Binding) (record : Record)
  | leased (series : Text) (expected : Binding) (record : Record) (log : Text)
  | called (series : Text) (expected : Binding) (record : Record) (log : Text)
  | finishing (series : Text) (record finished : Record) (c : Completion)
  | rehydrating (series cwd : Text) (previous : Record)

/-- The process holds `registry.lock`. -/
def Phase.locksRegistry : Phase → Bool
  | registering _ _ => true
  | _ => false

/-- The series whose lock the process holds. -/
def Phase.lockedSeries : Phase → Option Text
  | calling series _ _ | leased series _ _ _ | called series _ _ _ | finishing series _ _ _
  | rehydrating series _ _ => some series
  | _ => none

/-- The records, the processes, and what was named so far: provider sessions and logs. -/
structure State where
  records : List (Text × Record)
  phases : ℕ → Phase
  sessions : List Text
  logs : List Text

namespace State

def record (d : State) (series : Text) : Option Record := dictGet series d.records

/-- A process moves on. -/
def goTo (d : State) (p : ℕ) (phase : Phase) : State :=
  { d with phases := Function.update d.phases p phase }

/-- A process replaces a record. -/
def write (d : State) (series : Text) (record : Record) : State :=
  { d with records := dictSet series record d.records }

/-- No process holds the lock of the series. -/
def Free (d : State) (series : Text) : Prop := ∀ q, (d.phases q).lockedSeries ≠ some series

end State

/-- The record of a call that is about to start. -/
def Record.started (r : Record) (log : Text) : Record := { r with pending := some log }

/-- The record `rehydrate` writes. -/
def Record.rehydrated (r : Record) (sid cwd : Text) : Record :=
  { r with
    sessionId := sid
    cwd := cwd
    state := .new
    pending := none
    lastReceipt := none
    contextRehydrated := true }

/-- What happens: a record is written, or the provider is called. -/
inductive Event
  | registered (series : Text)
  | started (series : Text) (expected : Binding) (log : Text)
  | called (series : Text) (expected : Binding) (log : Text)
  | finished (series : Text) (c : Completion)
  | rehydrated (series expectedSession sid : Text)
  | internal

/-- One step of one process.  Every check that fails, and every death, ends what the process does. -/
inductive Step (d : State) : Event → State → Prop
  | crash (p : ℕ) : Step d .internal (d.goTo p .idle)
  | register (p : ℕ) (series sid cwd : Text) (owner : RuntimeOwner) (receipt : Option Text)
      (others : List Text) (hphase : d.phases p = .idle)
      (hfree : ∀ q, (d.phases q).locksRegistry = false) (hnew : d.record series = none)
      (hdrawn : receipt = none → sid ∉ d.sessions) (hothers : others.Perm (dictKeys d.records)) :
    Step d .internal
      { d.goTo p (.registering (newRecord series sid cwd owner receipt) others) with
        sessions := sid :: d.sessions }
  | compare (p : ℕ) (record other : Record) (name : Text) (others : List Text)
      (hphase : d.phases p = .registering record (name :: others))
      (hother : d.record name = some other) (hsession : other.sessionId ≠ record.sessionId) :
    Step d .internal (d.goTo p (.registering record others))
  | registered (p : ℕ) (record : Record) (hphase : d.phases p = .registering record []) :
    Step d (.registered record.specSeriesId)
      ((d.write record.specSeriesId record).goTo p .idle)
  | bind (p : ℕ) (expected : Binding) (record : Record) (owner : RuntimeOwner) (cwdAvailable : Bool)
      (hphase : d.phases p = .idle)
      (hinspect : inspect expected.specSeriesId (strictly expected owner cwdAvailable)
        (d.record expected.specSeriesId) = .ok record) :
    Step d .internal (d.goTo p (.bound expected.specSeriesId expected record.state))
  | call (p : ℕ) (series : Text) (expected : Binding) (state : SessionState) (record : Record)
      (owner : RuntimeOwner) (cwdAvailable : Bool)
      (hphase : d.phases p = .bound series expected state) (hfree : d.Free series)
      (hinspect : inspect series (strictly expected owner cwdAvailable) (d.record series) =
        .ok record)
      (hstate : record.state = state) :
    Step d .internal (d.goTo p (.calling series expected record))
  | started (p : ℕ) (series : Text) (expected : Binding) (record : Record) (log : Text)
      (hphase : d.phases p = .calling series expected record) (hdrawn : log ∉ d.logs) :
    Step d (.started series expected log)
      { (d.write series (record.started log)).goTo p (.leased series expected record log) with
        logs := log :: d.logs }
  | called (p : ℕ) (series : Text) (expected : Binding) (record : Record) (log : Text)
      (hphase : d.phases p = .leased series expected record log) :
    Step d (.called series expected log) (d.goTo p (.called series expected record log))
  | returned (p : ℕ) (series : Text) (expected : Binding) (record : Record) (log : Text)
      (hphase : d.phases p = .called series expected record log) :
    Step d .internal (d.goTo p .idle)
  | finish (p : ℕ) (series : Text) (record finished : Record) (c : Completion)
      (hphase : d.phases p = .idle) (hfree : d.Free series)
      (hrecord : d.record series = some record) (hfinish : finishRecord record c = .ok finished) :
    Step d .internal (d.goTo p (.finishing series record finished c))
  | reconcile (p : ℕ) (taskId series : Text) (runs : List SealedRun) (record finished : Record)
      (c : Completion) (hphase : d.phases p = .idle)
      (htarget : reconcileTarget taskId runs = .ok (series, c)) (hfree : d.Free series)
      (hrecord : d.record series = some record) (hfinish : finishRecord record c = .ok finished) :
    Step d .internal (d.goTo p (.finishing series record finished c))
  | finished (p : ℕ) (series : Text) (record finished : Record) (c : Completion)
      (hphase : d.phases p = .finishing series record finished c) :
    Step d (.finished series c) ((d.write series finished).goTo p .idle)
  | rehydrate (p : ℕ) (series expectedSession cwd : Text) (previous : Record) (owner : RuntimeOwner)
      (cwdAvailable : Bool) (hphase : d.phases p = .idle) (hfree : d.Free series)
      (hinspect : inspect series (leniently owner cwdAvailable) (d.record series) = .ok previous)
      (hexpected : previous.sessionId = expectedSession) :
    Step d .internal (d.goTo p (.rehydrating series cwd previous))
  | rehydrated (p : ℕ) (series cwd sid : Text) (previous : Record)
      (hphase : d.phases p = .rehydrating series cwd previous) (hdrawn : sid ∉ d.sessions) :
    Step d (.rehydrated series previous.sessionId sid)
      { (d.write series (previous.rehydrated sid cwd)).goTo p .idle with
        sessions := sid :: d.sessions }

/-- Before the first registration. -/
def Fresh (d : State) : Prop := d.records = [] ∧ ∀ p, d.phases p = .idle

/-- The executions of the processes, with what happened so far. -/
abbrev Runs : State → List Event → Prop := Trace Fresh Step

end ReviewSession

end AgentOrch
