import AgentOrch.Construction.ConvergenceGate

/-!
# The run loop

`run_until_stop` claims the current stage, invokes a provider, settles its result and commits
it, until the task leaves `queued` and `running`.  What an iteration meets outside the store, a
preflight answer, a provider's result, fresh identities, comes in as an `Iteration`.
-/

namespace AgentOrch

open Py Json

/-! ## Settling a result -/

/-- Routing of a reviewer's result that is a success but not `ready`. -/
def reviewerOverride (result : RunResult) : RunResult :=
  if result.isReviewer && result.classification = .success &&
      result.outcome ≠ some ("ready" : Text) then
    { result with
      classification := .waitingUser
      reason := "review_requires_astra_decision: " ++ result.reason }
  else result

/-- The report file of a reviewer's final response, encoded strictly. -/
def writeReport (result : RunResult) : Except Exc Unit :=
  require (!result.isReviewer || result.finalResponse.all fun t => decide (Encodable t))
    .unicodeEncodeError

/-- `if convergence is not None: result = self._apply_convergence(...)`. -/
def scoreWith (rt : Runtime) (context : Option ConvergenceContext) (result : RunResult) :
    Except Exc RunResult :=
  match context with
  | some context => applyConvergence rt result context
  | none => .ok result

/-- The tail of an iteration up to the commit: classification, the convergence gate, the reviewer
override and the report. -/
def settleResult (rt : Runtime) (allowed : List Text) (context : Option ConvergenceContext)
    (raw : RunResult) : Except Exc RunResult := do
  let classified ← classifyResult rt allowed raw
  let scored ← scoreWith rt context classified
  writeReport (reviewerOverride scored)
  return reviewerOverride scored

/-! ## One iteration -/

/-- The answer of the provider preflight, the execution runner included. -/
inductive Preflight
  | passed (model : Option Text)
  | stopped (stop : TaskStore.PreflightStop)
  | raised (exc : Exc)

/-- How the provider call ended: with a result, or with an exception observed by the
controller. -/
inductive Provider
  | returned (raw : RunResult)
  | raised (message : Text)

/-- The texts of a runner's result are decoded: the display stream of a run that was started, the
final response unless it is the result string of a reviewer's JSON. -/
structure RunResult.Decoded (raw : RunResult) : Prop where
  output : raw.containmentStop = none → Encodable raw.output
  finalResponse : raw.isReviewer = false → ∀ t, raw.finalResponse = some t → Encodable t

/-- What one iteration meets outside the store. -/
structure Iteration where
  preflight : Preflight
  claim : Stamp
  provider : Provider
  commit : Stamp

/-- `raw_result`. -/
def Provider.raw : Provider → RunResult
  | returned raw => raw
  | raised message => .basic none ("controller observed runner interruption: " ++ message ++ "\n")
      none .raw "raw"

/-- `except (ControllerError, ValueError, OSError, KeyError, TypeError, SubprocessError)`. -/
def Preflight.caught : Exc → Bool
  | .controllerError _ | .osError _ | .keyError _ | .typeError _ => true
  | e => e.isValueError

/-- What the preflight of a working stage leads to. -/
def Preflight.verdict : Preflight → ℤ → Except Exc (Option Text ⊕ TaskStore.PreflightStop)
  | passed model, _ => .ok (.inl model)
  | stopped stop, _ => .ok (.inr stop)
  | raised exc, now =>
    if caught exc then
      .ok (.inr ⟨false, "execution_config_invalid", exc.message, none, none, now, now⟩)
    else .error exc

/-- How one iteration ended. -/
inductive Turn
  | stop (s : TaskStore)
  | next (s : TaskStore)

def Turn.store : Turn → TaskStore
  | stop s => s
  | next s => s

namespace TaskStore

/-- The transaction after the provider returned: settle the raw result and commit it. -/
def finishRun (rt : Runtime) (s : TaskStore) (others : Taken) (stamp : Stamp) (token : Text)
    (stage : Stage) (envelope : Option Envelope) (context : Option ConvergenceContext)
    (raw : RunResult) : Except Exc TaskStore := do
  let result ← settleResult rt (allowedOutcomes (dictKeys stage.outcomes) envelope.isSome) context
    raw
  s.commitRun rt others stamp token result

/-- `_stop_claimed_run`, for an input whose envelope does not read. -/
def stopClaimedRun (rt : Runtime) (s : TaskStore) (others : Taken) (stamp : Stamp) (token : Text)
    (message : Text) : Except Exc TaskStore :=
  s.commitRun rt others stamp token (.basic none
    ("controller rejected envelope framing: " ++ message ++ "\n") none .blocked "envelope_invalid")

/-- The convergence context of a claimed run; a legacy task has none. -/
def contextFor (rt : Runtime) (s : TaskStore) (envelope : Option Envelope) (stage : Text) :
    Except Exc (Option ConvergenceContext) :=
  if envelope.isSome then s.convergenceContext rt stage else .ok none

/-- The iteration after the claim. -/
def runClaimed (rt : Runtime) (s : TaskStore) (others : Taken) (it : Iteration) (stage : Stage) :
    Except Exc Turn :=
  match extractEnvelope rt s.inputText with
  | .error (.envelopeError m) => do
    let s' ← s.stopClaimedRun rt others it.commit it.claim.runToken m
    return .stop s'
  | .error e => .error e
  | .ok envelope => do
    let context ← s.contextFor rt envelope stage.name
    let s' ← s.finishRun rt others it.commit it.claim.runToken stage envelope context
      it.provider.raw
    return .next s'

/-- One iteration of `run_until_stop`.  An exception after the claim leaves the claimed rows. -/
def iterate (rt : Runtime) (s : TaskStore) (others : Taken) (it : Iteration) :
    TaskStore × Except Exc Turn :=
  match s.task.status with
  | .queued =>
    match s.profile.stage s.task.currentStage with
    | .error e => (s, .error e)
    | .ok stage =>
      let verdict := if stage.terminal.isSome then .ok (.inl none)
        else it.preflight.verdict it.claim.now
      match verdict with
      | .error e => (s, .error e)
      | .ok (.inr stop) =>
        (s, (s.recordPreflightStop others it.claim stage stop).map .stop)
      | .ok (.inl model) =>
        match s.claimStage rt others it.claim model with
        | .error e => (s, .error e)
        | .ok (.stopped s') => (s, .ok (.stop s'))
        | .ok (.claimed s') => (s', s'.runClaimed rt others it stage)
  | .running => (s, (s.blockOrphanedRunning others it.claim).map .stop)
  | _ => (s, .ok (.stop s))

end TaskStore

end AgentOrch
