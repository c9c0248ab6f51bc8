import AgentOrch.Construction.StopGate

/-!
# What the commands on a task write

One lemma for each command that may raise: what it found when it did not, and the files it left.
-/

namespace AgentOrch

open Py Json

namespace Lifecycle

variable {rt : Runtime} {id : Text} {l l' : Lifecycle} {notices : List LifecycleNotice}

/-! ## Synchronising -/

/-- The result a sync reads, before it is compared with what the files say. -/
def readSummary (id : Text) (l : Lifecycle) (processed : List ProcessedFile) (processing : Bool)
    (now : Text) : Except Exc ExecutionResult :=
  match l.executionRequestId with
  | none => .error (.valueError ("task " ++ id ++ " has no execution request_id to sync"))
  | some requestId =>
    match findProcessedResult processed requestId with
    | none => .error (.valueError
        ((if processing then "daemon request still processing for request_id "
          else "processed daemon result not found for request_id ") ++ requestId))
    | some seed => do
      let payload ← parseProcessed "daemon result" seed
      let seedResult ← asObject payload
      let (file, result) ← findLatestProcessedResult processed seed seedResult
      l.executionResultSummary (processedRequestId result requestId) file.name now result

/-- The result with another time. -/
def atTime (r : ExecutionResult) (now : Text) : ExecutionResult :=
  { r with syncedAt := now }

section
variable {processed : List ProcessedFile} {processing : Bool} {now : Text}
  {summary : ExecutionResult}

lemma map_bind {α β γ : Type} (x : Except Exc α) (f : α → Except Exc β) (g : β → γ) :
    (x >>= f).map g = x >>= fun a => (f a).map g := by
  cases x <;> rfl

lemma map_eq_bind {α β : Type} (x : Except Exc α) (g : α → β) :
    x.map g = x >>= fun a => pure (g a) := by
  cases x <;> rfl

/-- A sync that reads a result records it. -/
lemma runStartSync_eq : l.runStartSync rt id processed processing now =
    (l.readSummary id processed processing now).map (l.synced rt id) := by
  cases hrequest : l.executionRequestId with
  | none =>
      simp only [runStartSync, readSummary, hrequest]
      rfl
  | some requestId =>
      cases hfound : findProcessedResult processed requestId with
      | none =>
          simp only [runStartSync, readSummary, hrequest, hfound]
          rfl
      | some seed =>
          simp only [runStartSync, readSummary, hrequest, hfound, map_bind]
          simp only [map_eq_bind]

/-- What is read depends on the request and on whether there is a gate. -/
lemma readSummary_congr (hrequest : l'.executionRequestId = l.executionRequestId)
    (hgate : l'.stopGate = l.stopGate) :
    l'.readSummary id processed processing now = l.readSummary id processed processing now := by
  simp only [readSummary, executionResultSummary, hrequest, hgate]

/-- Read again, it is the same but for the time; a result that asks for a gate waits for it. -/
lemma readSummary_again (h : l.readSummary id processed processing now = .ok summary)
    (processing' : Bool) (now' : Text) :
    l.readSummary id processed processing' now' = .ok (atTime summary now') ∧
      (summary.gateRequired = true ↔ isStopGatePending summary = true) := by
  cases hrequest : l.executionRequestId with
  | none =>
      simp only [readSummary, hrequest] at h
      cases h
  | some requestId =>
      cases hfound : findProcessedResult processed requestId with
      | none =>
          simp only [readSummary, hrequest, hfound] at h
          cases h
      | some seed =>
          simp only [readSummary, hrequest, hfound, executionResultSummary, bind_eq_ok] at h ⊢
          obtain ⟨payload, hpayload, seed', hseed, ⟨file, result⟩, hlatest, stage, hstage, h⟩ := h
          cases h
          refine ⟨⟨payload, hpayload, seed', hseed, ⟨file, result⟩, hlatest, stage, hstage,
            rfl⟩, ?_⟩
          simp only [isStopGatePending, Bool.and_eq_true, decide_eq_true_eq]
          constructor
          · intro hrequired
            exact ⟨hrequired, if_pos hrequired⟩
          · exact fun hpending => hpending.1

end

/-! ## The gate -/

/-- What `_require_pending_stop_gate` finds. -/
structure Pending (l : Lifecycle) (gate : Gate) (result : ExecutionResult) : Prop where
  waiting : l.stage = .waitingUser
  found : l.routing.gate.or l.record.gate = some gate
  undecided : gate.decided = false
  recorded : l.routing.executionResult.or l.record.executionResult = some result
  required : result.gateRequired = true
  stage : result.lifecycleStage = .waitingUser

lemma pending_of_require {gate : Gate} {result : ExecutionResult}
    (h : l.requirePendingStopGate id = .ok (gate, result)) : l.Pending gate result := by
  simp only [requirePendingStopGate, bind_eq_ok, require_eq_ok, decide_eq_true_eq] at h
  obtain ⟨_, hstage, _, _, h⟩ := h
  cases hgate : l.routing.gate.or l.record.gate with
  | none =>
      simp only [hgate] at h
      cases h
  | some gate' =>
      simp only [hgate, bind_eq_ok, require_eq_ok] at h
      obtain ⟨_, hundecided, h⟩ := h
      cases hresult : l.routing.executionResult.or l.record.executionResult with
      | none =>
          simp only [hresult] at h
          cases h
      | some result' =>
          simp only [hresult, bind_eq_ok, require_eq_ok, decide_eq_true_eq] at h
          obtain ⟨_, hrequired, _, hwaits, _, _, h⟩ := h
          cases h
          exact ⟨hstage, hgate, by simpa using hundecided, hresult, hrequired, hwaits⟩

/-- A gate review is enqueued for a gate that is pending, and noted in the gate and beside it. -/
lemma runGateRun_eq_ok {review : GateReview} (h : l.runGateRun rt id review = .ok (l', notices)) :
    ∃ gate result summary, l.Pending gate result ∧ l.gateDecision = none ∧
      l.gateReviewExecution = none ∧
      l' = l.setEntries fun e => { e with
        gateReviewExecution := some summary
        gate := some { gate with reviewExecution := some summary } } := by
  simp only [runGateRun, bind_eq_ok, require_eq_ok, Option.isNone_iff_eq_none] at h
  obtain ⟨_, hundecided, _, hnew, ⟨gate, result⟩, hpending, ⟨role, provider⟩, _, h⟩ := h
  cases howner : provider.bind fun p => dictGet p stopGateReviewer with
  | none =>
      simp only [howner] at h
      cases h
  | some owner =>
      simp only [howner, bind_eq_ok] at h
      obtain ⟨_, _, _, _, h⟩ := h
      cases h
      exact ⟨gate, result, _, pending_of_require hpending, hundecided, hnew, rfl⟩

/-- What a gate sync writes: the review is held for the user, or has a result. -/
inductive ReviewWritten (l : Lifecycle) (gate : Gate) (execution : GateReviewExecution) :
    Lifecycle → Prop
  | held (pending : GateReviewPending) : ReviewWritten l gate execution
      { l.setEntries fun e => { e with gate := some { gate with
          reviewExecution := some execution
          reviewPending := some pending } } with stage := .waitingUser }
  | finished (summary : GateReviewResult) : ReviewWritten l gate execution
      { l.setEntries fun e => { e with
          gate := some { gate with
            reviewExecution := some execution
            reviewResult := some summary }
          gateReviewResult := some summary } with stage := .waitingUser }

lemma gateSynced_eq_ok {gate : Gate} {original : ExecutionResult}
    {execution : GateReviewExecution} {requestId path now : Text} {result : List (Text × Value)}
    (h : l.gateSynced id gate original execution requestId path now result = .ok (l', notices)) :
    ReviewWritten l gate execution l' := by
  unfold gateSynced at h
  split_ifs at h
  · cases h
    exact .held _
  · simp only [bind_eq_ok] at h
    obtain ⟨outcome, _, stage, _, h⟩ := h
    cases h
    exact .finished _

/-- A gate sync needs a pending gate whose review was enqueued. -/
lemma runGateSync_eq_ok {processed : List ProcessedFile} {now : Text}
    (h : l.runGateSync id processed now = .ok (l', notices)) :
    ∃ gate result execution, l.Pending gate result ∧ l.gateDecision = none ∧
      l.gateReviewExecution = some execution ∧ ReviewWritten l gate execution l' := by
  simp only [runGateSync, bind_eq_ok, require_eq_ok, Option.isNone_iff_eq_none] at h
  obtain ⟨_, hundecided, _, _, ⟨gate, original⟩, hpending, h⟩ := h
  cases hexecution : l.gateReviewExecution with
  | none =>
      simp only [hexecution] at h
      cases h
  | some execution =>
      simp only [hexecution, bind_eq_ok] at h
      obtain ⟨_, _, h⟩ := h
      cases hfound : findProcessedResult processed execution.requestId with
      | none =>
          simp only [hfound] at h
          cases h
      | some seed =>
          simp only [hfound, bind_eq_ok] at h
          obtain ⟨payload, _, h⟩ := h
          cases payload with
          | obj seedResult =>
              simp only [bind_eq_ok] at h
              obtain ⟨latest, _, h⟩ := h
              exact ⟨gate, original, execution, pending_of_require hpending, hundecided, rfl,
                gateSynced_eq_ok h⟩
          | _ => cases h

/-- A gate under a decision that was just made. -/
def decidedGate (gate : Gate) (d : GateDecision) : Gate :=
  { gate with
    decided := true
    stage := d.finalStage
    decision := some d.decision
    decidedAt := some d.decidedAt
    decisionReason := d.reason
    decisionArtifactPath := some d.decisionArtifactPath }

/-- A decision is written to all three files. -/
lemma runGateDecision_eq_ok {verdict : GateVerdict} {reason : Option Text} {now path : Text}
    (h : l.runGateDecision id verdict reason now path = .ok (l', notices)) :
    ∃ gate result d, l'.decisionFile = some d ∧ l.Pending gate result ∧ l.decisionFile = none ∧
      l.gateDecision = none ∧ d.finalStage = verdict.finalStage ∧
      l' = { l.setEntries fun e => { e with
          gate := some (decidedGate gate d), gateDecision := some d } with
        stage := d.finalStage
        decisionFile := some d } := by
  simp only [runGateDecision, bind_eq_ok, require_eq_ok, Bool.and_eq_true,
    Option.isNone_iff_eq_none] at h
  obtain ⟨_, ⟨hfile, hundecided⟩, ⟨gate, original⟩, hpending, h⟩ := h
  cases h
  exact ⟨gate, original, _, rfl, pending_of_require hpending, hfile, hundecided, rfl, rfl⟩

end Lifecycle

end AgentOrch
