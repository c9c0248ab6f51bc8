import AgentOrch.Construction.StopGate

/-!
# One execution for a task

A task is executed when its intake starts it by itself, or when an operator lets a parked task go.
`run_start_go` tells a parked task by its stage alone, and a synchronised result can leave a task
with the same stage.  As long as it is not accepted for a task whose files name a request already, a
task is executed at most once.
-/

namespace AgentOrch

open Py Json

namespace Lifecycle

variable {rt : Runtime} {id : Text} {l l' : Lifecycle} {notices : List LifecycleNotice}

/-! ## What names the request -/

/-- Both files record the same entry. -/
lemma executionRequestId_setEntries {f : Entries → Entries}
    (hf : ∀ e, (f e).execution = e.execution) :
    (l.setEntries f).executionRequestId = l.executionRequestId := by
  simp only [executionRequestId, setEntries, hf]

/-- A request that was recorded is the one the files name. -/
lemma executionRequestId_enqueued {reason receipt : Text} {request : ExecutionRequest}
    {f : Entries → Entries} (hf : ∀ e, (f e).execution = some (.enqueued reason receipt request)) :
    (l.setEntries f).executionRequestId = some request.requestId := by
  have hnamed : request.requestId.isEmpty = false := by
    simpa using request.drawn
  simp [executionRequestId, setEntries, hf, requestOf, hnamed]

lemma executionRequestId_setStage {stage : LifecycleStage} :
    ({ l with stage := stage } : Lifecycle).executionRequestId = l.executionRequestId := rfl

/-- A start that has the task executed names its request. -/
lemma runStart_executed {intake : Intake} {attempt : Attempt} {requestId : Text}
    (h : (runStart rt id intake attempt).executed = some requestId) :
    (runStart rt id intake attempt).state.executionRequestId = some requestId := by
  unfold runStart at h ⊢
  dsimp only at h ⊢
  split_ifs at h ⊢
  cases hexecution : enqueueForRouting rt intake.pattern "auto_start=true" attempt with
  | enqueued reason receipt request =>
      simp only [hexecution] at h ⊢
      rw [← h]
      exact executionRequestId_enqueued fun _ => rfl
  | waitingUser reason receipt =>
      simp only [hexecution] at h
      cases h
  | blocked reason =>
      simp only [hexecution] at h
      cases h

/-- So does a start-go, once it accepted the task. -/
lemma runStartGo_executed {attempt : Attempt} {requestId : Text}
    (h : (l.runStartGo rt id attempt).executed = some requestId) :
    l.checkGo id = .ok () ∧
      (l.runStartGo rt id attempt).state.executionRequestId = some requestId := by
  unfold runStartGo at h ⊢
  cases hcheck : l.checkGo id with
  | error e =>
      simp only [hcheck] at h
      cases h
  | ok u =>
      simp only [hcheck] at h ⊢
      refine ⟨trivial, ?_⟩
      cases hexecution : enqueueForRouting rt l.pattern "explicit start-go" attempt with
      | enqueued reason receipt request =>
          simp only [hexecution] at h ⊢
          rw [← h]
          exact executionRequestId_setStage.trans (executionRequestId_enqueued fun _ => rfl)
      | waitingUser reason receipt =>
          simp only [hexecution] at h
          cases h
      | blocked reason =>
          simp only [hexecution] at h
          cases h

/-- A start-go accepts a task that waits for the user. -/
lemma checkGo_ok (h : l.checkGo id = .ok ()) : l.stage = .waitingUser := by
  simp only [checkGo, bind_eq_ok, require_eq_ok, decide_eq_true_eq] at h
  obtain ⟨_, _, _, _, hstage⟩ := h
  exact hstage

/-- A start-go that refuses the task leaves it alone. -/
lemma runStartGo_refused {attempt : Attempt} (h : l.checkGo id ≠ .ok ()) :
    (l.runStartGo rt id attempt).state = l ∧ (l.runStartGo rt id attempt).executed = none := by
  unfold runStartGo
  cases hcheck : l.checkGo id with
  | error e => exact ⟨rfl, rfl⟩
  | ok u => exact absurd hcheck h

/-! ## The commands that execute nothing -/

lemma synced_names (summary : ExecutionResult) :
    (l.synced rt id summary).1.executionRequestId = l.executionRequestId := by
  unfold synced
  cases l.redecided summary with
  | some decided =>
      cases l.record.gate.or l.routing.gate with
      | some gate => rfl
      | none => rfl
  | none =>
      dsimp only
      split
      · rfl
      · rfl

lemma runStartSync_names {processed : List ProcessedFile} {processing : Bool} {now : Text}
    (h : l.runStartSync rt id processed processing now = .ok (l', notices)) :
    l'.executionRequestId = l.executionRequestId := by
  unfold runStartSync at h
  cases hrequest : l.executionRequestId with
  | none =>
      simp only [hrequest] at h
      cases h
  | some requestId =>
      simp only [hrequest] at h
      cases hfound : findProcessedResult processed requestId with
      | none =>
          simp only [hfound] at h
          cases h
      | some seed =>
          simp only [hfound, bind_eq_ok] at h
          obtain ⟨payload, -, seedResult, -, latest, -, summary, -, h⟩ := h
          have hsynced := @synced_names rt id l summary
          rw [Except.ok.inj h, hrequest] at hsynced
          exact hsynced

lemma runGateRun_names {review : GateReview}
    (h : l.runGateRun rt id review = .ok (l', notices)) :
    l'.executionRequestId = l.executionRequestId := by
  simp only [runGateRun, bind_eq_ok] at h
  obtain ⟨_, _, _, _, ⟨gate, result⟩, _, ⟨role, provider⟩, _, h⟩ := h
  cases howner : provider.bind fun p => dictGet p stopGateReviewer with
  | none =>
      simp only [howner] at h
      cases h
  | some owner =>
      simp only [howner, bind_eq_ok] at h
      obtain ⟨_, _, _, _, h⟩ := h
      cases h
      rfl

lemma gateSynced_names {gate : Gate} {original : ExecutionResult} {execution : GateReviewExecution}
    {requestId path now : Text} {result : List (Text × Value)}
    (h : l.gateSynced id gate original execution requestId path now result = .ok (l', notices)) :
    l'.executionRequestId = l.executionRequestId := by
  unfold gateSynced at h
  split_ifs at h
  · cases h
    rfl
  · simp only [bind_eq_ok] at h
    obtain ⟨outcome, _, stage, _, h⟩ := h
    cases h
    rfl

lemma runGateSync_names {processed : List ProcessedFile} {now : Text}
    (h : l.runGateSync id processed now = .ok (l', notices)) :
    l'.executionRequestId = l.executionRequestId := by
  simp only [runGateSync, bind_eq_ok] at h
  obtain ⟨_, _, _, _, ⟨gate, original⟩, _, h⟩ := h
  cases hexecution : l.gateReviewExecution with
  | none =>
      simp only [hexecution] at h
      cases h
  | some execution =>
      simp only [hexecution, bind_eq_ok] at h
      obtain ⟨_, _, h⟩ := h
      cases hfound : findProcessedResult processed execution.requestId with
      | none =>
          simp only [hfound] at h
          cases h
      | some seed =>
          simp only [hfound, bind_eq_ok] at h
          obtain ⟨payload, _, h⟩ := h
          cases payload with
          | obj seedResult =>
              simp only [bind_eq_ok] at h
              obtain ⟨latest, _, h⟩ := h
              exact gateSynced_names h
          | _ => cases h

lemma runGateDecision_names {verdict : GateVerdict} {reason : Option Text} {now path : Text}
    (h : l.runGateDecision id verdict reason now path = .ok (l', notices)) :
    l'.executionRequestId = l.executionRequestId := by
  simp only [runGateDecision, bind_eq_ok] at h
  obtain ⟨_, _, ⟨gate, original⟩, _, h⟩ := h
  cases h
  rfl

/-- A command that may raise names no other request and executes nothing. -/
lemma outcomeOf_names {r : Except Exc (Lifecycle × List LifecycleNotice)}
    (h : ∀ l' notices, r = .ok (l', notices) → l'.executionRequestId = l.executionRequestId) :
    (outcomeOf l r).state.executionRequestId = l.executionRequestId ∧
      (outcomeOf l r).executed = none := by
  cases r with
  | error e => exact ⟨rfl, rfl⟩
  | ok result => exact ⟨h _ _ rfl, rfl⟩

/-- Every command but a start-go. -/
lemma perform_names {command : Command} (h : ∀ attempt, command ≠ .startGo attempt) :
    (l.perform rt id command).state.executionRequestId = l.executionRequestId ∧
      (l.perform rt id command).executed = none := by
  cases command with
  | start => exact ⟨rfl, rfl⟩
  | startGo attempt => exact absurd rfl (h attempt)
  | startSync => exact outcomeOf_names fun _ _ => runStartSync_names
  | gateRun => exact outcomeOf_names fun _ _ => runGateRun_names
  | gateSync => exact outcomeOf_names fun _ _ => runGateSync_names
  | gateDecision => exact outcomeOf_names fun _ _ => runGateDecision_names

/-! ## The result -/

/-- A start-go is not accepted for a task whose files name a request. -/
def Parked (id : Text) (l : Option Lifecycle) (command : Command) : Prop :=
  ∀ l' attempt, l = some l' → command = .startGo attempt → l'.executionRequestId ≠ none →
    l'.checkGo id ≠ .ok ()

/-- The requests a run had executed. -/
def executions (events : List (Command × Option Text)) : List Text := events.filterMap Prod.snd

/-- Nothing was executed yet, or the one request is the one the files name. -/
def Single (l : Option Lifecycle) (events : List (Command × Option Text)) : Prop :=
  executions events = [] ∨ ∃ l' requestId, l = some l' ∧ executions events = [requestId] ∧
    l'.executionRequestId = some requestId

lemma executions_snoc (events : List (Command × Option Text)) (event : Command × Option Text) :
    executions (events ++ [event]) = executions events ++ event.2.toList := by
  rw [executions, List.filterMap_append]
  rfl

/-- The state before the task is started has executed nothing. -/
lemma Single.none_nil {events : List (Command × Option Text)} (h : Single none events) :
    executions events = [] := by
  rcases h with h | ⟨_, _, hnone, -⟩
  · exact h
  · cases hnone

/-- A step that executes keeps the run single when nothing was executed before. -/
lemma Single.executed {events : List (Command × Option Text)} {command : Command}
    {executed : Option Text} (hnil : executions events = [])
    (hnames : ∀ requestId, executed = some requestId → l.executionRequestId = some requestId) :
    Single (some l) (events ++ [(command, executed)]) := by
  cases hexecuted : executed with
  | none => exact .inl (by rw [executions_snoc, hnil]; rfl)
  | some requestId =>
      exact .inr ⟨l, requestId, rfl, by rw [executions_snoc, hnil]; rfl, hnames _ hexecuted⟩

lemma Single.step {l l' : Option Lifecycle} {events : List (Command × Option Text)}
    {event : Command × Option Text} (h : Single l events) (hcondition : Parked id l event.1)
    (hstep : Step rt id l event l') : Single l' (events ++ [event]) := by
  cases hstep with
  | start intake attempt => exact .executed h.none_nil fun _ => runStart_executed
  | command l command =>
      by_cases hgo : ∃ attempt, command = .startGo attempt
      · obtain ⟨attempt, rfl⟩ := hgo
        rcases h with hnil | ⟨_, requestId, hsame, hone, hnamed⟩
        · exact .executed hnil fun _ hexecuted => (runStartGo_executed hexecuted).2
        · obtain rfl := Option.some.inj hsame
          have hrefused := hcondition l attempt rfl rfl (by simp [hnamed])
          obtain ⟨hstate, hexecuted⟩ := @runStartGo_refused rt _ _ attempt hrefused
          refine .inr ⟨_, requestId, rfl, ?_, ?_⟩
          · rw [executions_snoc, hone]
            simp only [perform, hexecuted]
            rfl
          · simpa only [perform, hstate] using hnamed
      · obtain ⟨hnames, hexecuted⟩ := @perform_names rt id l _
          fun attempt heq => hgo ⟨attempt, heq⟩
        rcases h with hnil | ⟨_, requestId, hsame, hone, hnamed⟩
        · exact .inl (by rw [executions_snoc, hnil, hexecuted]; rfl)
        · obtain rfl := Option.some.inj hsame
          refine .inr ⟨_, requestId, rfl, ?_, hnames.trans hnamed⟩
          rw [executions_snoc, hone, hexecuted]
          rfl

/-- In every run in which no start-go is accepted for a task that names a request, at most one
request is enqueued for execution. -/
theorem executed_once (rt : Runtime) (id : Text) (l : Option Lifecycle)
    (events : List (Command × Option Text)) (h : Runs rt id (Parked id) l events) :
    (executions events).length ≤ 1 := by
  have hsingle : Single l events := by
    refine h.invariant (fun _ _ => .inl rfl) fun l event l' events hinv hstep => ?_
    exact Single.step hinv hstep.1 hstep.2
  rcases hsingle with hnil | ⟨_, _, _, hone, _⟩
  · simp [hnil]
  · simp [hone]

/-! ## A hold that was synchronised -/

def smokeIntake : Intake :=
  ⟨⟨.pass, none⟩, some ("provider_smoke" : Text), some ("claude" : Text), some ("codex" : Text),
    "rule", false, false, false⟩

def smokeAttempt (requestId : Text) (h : requestId ≠ []) : Attempt :=
  .resolved requestId ("inbox/" ++ requestId ++ ".json") "profiles/provider_smoke.yaml"
    "tasks/smoke-execution-input.md" "tasks/smoke-resolver.json" h

/-- The daemon's result for the first request: the controller holds for the user. -/
def heldResult : ProcessedFile where
  name := "20260929-first.result.json"
  mtime := 1
  content := .ok (.obj [("task_id", .str "first"), ("request_id", .str "first"),
    ("status", .str "waiting_user"), ("stop_reason", .str "user_decision_required")])

def smokeParked : Lifecycle := (runStart .standard "smoke" smokeIntake (.rejected [])).state

lemma drawn_first : ("first" : Text) ≠ [] := by decide

def smokeExecuted : Lifecycle :=
  (smokeParked.perform .standard "smoke" (.startGo (smokeAttempt "first" drawn_first))).state

def smokeSynced : Lifecycle :=
  (smokeExecuted.perform .standard "smoke" (.startSync [heldResult] false "now")).state

/-- The run up to the hold. -/
lemma runs_smokeSynced {condition : Option Lifecycle → Command → Prop}
    (hcondition : ∀ l command, l = none ∨ l = some smokeParked ∨ l = some smokeExecuted →
      condition l command) :
    Runs .standard "smoke" condition (some smokeSynced)
      [(.start smokeIntake (.rejected []), none),
        (.startGo (smokeAttempt "first" (by decide)), some "first"),
        (.startSync [heldResult] false "now", none)] := by
  have h0 : Runs .standard "smoke" condition none [] := .init rfl
  have h1 := h0.step ⟨hcondition _ _ (.inl rfl), Step.start smokeIntake (.rejected [])⟩
  have h2 := h1.step ⟨hcondition _ _ (.inr (.inl rfl)), Step.command smokeParked
    (.startGo (smokeAttempt "first" (by decide)))⟩
  exact h2.step ⟨hcondition _ _ (.inr (.inr rfl)), Step.command smokeExecuted
    (.startSync [heldResult] false "now")⟩

theorem executed_once_smoke :
    (executions [(.start smokeIntake (.rejected []), none),
      (.startGo (smokeAttempt "first" (by decide)), some "first"),
      (.startSync [heldResult] false "now", none)]).length ≤ 1 := by
  refine executed_once .standard "smoke" (some smokeSynced) _ (runs_smokeSynced ?_)
  rintro l command (rfl | rfl | rfl) l' attempt hl rfl hnamed
  · cases hl
  · obtain rfl := Option.some.inj hl
    exact absurd rfl hnamed
  · obtain rfl := Option.some.inj hl
    intro hcheck
    cases checkGo_ok hcheck

/-- The operator lets the held task go, and it is executed again. -/
theorem not_executed_once_smoke :
    ¬ ∀ l events, Runs .standard "smoke" (fun _ _ => True) l events →
      (executions events).length ≤ 1 := by
  intro hall
  have h3 := @runs_smokeSynced (fun _ _ => True) fun _ _ _ => trivial
  have h4 := h3.step ⟨trivial, Step.command smokeSynced
    (.startGo (smokeAttempt "second" (by decide)))⟩
  have hexecuted : (smokeSynced.perform .standard "smoke"
      (.startGo (smokeAttempt "second" (by decide)))).executed = some "second" := by
    decide +kernel
  have hlength := hall _ _ h4
  simp [executions, hexecuted] at hlength

end Lifecycle

end AgentOrch
