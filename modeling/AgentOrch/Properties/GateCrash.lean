import AgentOrch.Properties.SingleExecution

/-!
# A crash inside a gate decision

`run_gate_decision` replaces three files one after the other: the decision artifact, the task record,
the routing decision.  The artifact alone already counts as a decision for the command itself, and
no other command writes a decision, so a crash after the first or the second file leaves a decision
that stays incomplete; after the first one, the gate stays pending as well.
-/

namespace AgentOrch

open Py Json

namespace Lifecycle

variable {rt : Runtime} {id : Text} {l full : Lifecycle} {notices : List LifecycleNotice}

/-! ## The files after a crash -/

/-- The files when the decision that leads from `l` to `full` dies after that many of its writes; the
third is followed by the notification only. -/
def crashedAfter (writes : ℕ) (l full : Lifecycle) : Lifecycle :=
  { l with
    decisionFile := if 1 ≤ writes then full.decisionFile else l.decisionFile
    stage := if 2 ≤ writes then full.stage else l.stage
    record := if 2 ≤ writes then full.record else l.record
    routing := if 3 ≤ writes then full.routing else l.routing }

/-- The files after more commands. -/
def afterwards (rt : Runtime) (id : Text) (l : Lifecycle) (commands : List Command) : Lifecycle :=
  commands.foldl (fun l command => (l.perform rt id command).state) l

/-- The gate is not decided, and every decision is accepted. -/
def Repeatable (id : Text) (l : Lifecycle) : Prop :=
  l.gateDecision = none ∧ l.decisionFile = none ∧
    ∀ verdict reason now path, ∃ result, l.runGateDecision id verdict reason now path = .ok result

/-- One decision, complete in the artifact and in both files, and under it the gate of each. -/
def Settled (l : Lifecycle) : Prop :=
  ∃ d : GateDecision, l.decisionFile = some d ∧ l.record.gateDecision = some d ∧
    l.routing.gateDecision = some d ∧ l.stage = d.finalStage ∧
    ∀ entries ∈ [l.record, l.routing], ∃ gate, entries.gate = some gate ∧ gate.decided = true ∧
      gate.decision = some d.decision

/-- The gate can still be decided, or its decision is complete, or some commands complete it. -/
def Recoverable (rt : Runtime) (id : Text) (l : Lifecycle) : Prop :=
  Repeatable id l ∨ ∃ commands, Settled (afterwards rt id l commands)

/-- The gate is reported as decided while the task waits for the decision, and whatever commands
follow, neither file holds one and the artifact stays. -/
def Stuck (rt : Runtime) (id : Text) (l : Lifecycle) : Prop :=
  (∀ verdict reason now path, l.runGateDecision id verdict reason now path =
      .error (.valueError ("stop-gate for task " ++ id ++ " is already decided"))) ∧
    l.stage = .waitingUser ∧
    ∀ commands, (afterwards rt id l commands).gateDecision = none ∧
      (afterwards rt id l commands).decisionFile = l.decisionFile

/-! ## What the commands do to a decision -/

/-- A decision is what the files say of one, or a gate of theirs. -/
lemma gateDecision_eq_none : l.gateDecision = none ↔
    (l.routing.gateDecision = none ∧ l.record.gateDecision = none) ∧
      (∀ gate, l.routing.gate = some gate → gate.decided = false) ∧
      ∀ gate, l.record.gate = some gate → gate.decided = false := by
  have hgate (g : Option Gate) :
      g.bind Gate.asDecided = none ↔ ∀ gate, g = some gate → gate.decided = false := by
    cases g with
    | none => simp
    | some gate => simp [Gate.asDecided]
  simp only [gateDecision, Option.or_eq_none_iff, Option.map_eq_none_iff, hgate, and_assoc]

/-- The artifact, and the decision entries of the two files. -/
def decisions (l : Lifecycle) : Option GateDecision × Option GateDecision × Option GateDecision :=
  (l.decisionFile, l.record.gateDecision, l.routing.gateDecision)

/-- A gate that a command records beside the entries that hold no decision is undecided. -/
lemma gateDecision_recordGate {gate : Gate} (h : l.gateDecision = none)
    (hgate : gate.decided = false) : (l.recordGate gate).gateDecision = none := by
  obtain ⟨hentries, -⟩ := gateDecision_eq_none.mp h
  refine gateDecision_eq_none.mpr ⟨hentries, ?_, ?_⟩
  all_goals
    intro gate' hgate'
    obtain rfl : gate = gate' := Option.some.inj hgate'
    exact hgate

lemma requirePendingStopGate_ok {gate : Gate} {original : ExecutionResult}
    (h : l.requirePendingStopGate id = .ok (gate, original)) :
    l.stage = .waitingUser ∧ gate.decided = false := by
  simp only [requirePendingStopGate, bind_eq_ok, require_eq_ok, decide_eq_true_eq] at h
  obtain ⟨_, hstage, _, _, h⟩ := h
  refine ⟨hstage, ?_⟩
  cases hgate : l.routing.gate.or l.record.gate with
  | none =>
      simp only [hgate] at h
      cases h
  | some gate' =>
      simp only [hgate, bind_eq_ok, require_eq_ok] at h
      obtain ⟨_, hpending, h⟩ := h
      cases hresult : l.routing.executionResult.or l.record.executionResult with
      | none =>
          simp only [hresult] at h
          cases h
      | some result =>
          simp only [hresult, bind_eq_ok] at h
          obtain ⟨_, _, _, _, _, _, h⟩ := h
          cases h
          simpa using hpending

/-- What a command that makes no decision keeps. -/
structure Keeps (l l' : Lifecycle) : Prop where
  decisions : l'.decisions = l.decisions
  undecided : l.gateDecision = none → l'.gateDecision = none

lemma Keeps.refl (l : Lifecycle) : Keeps l l := ⟨rfl, fun h => h⟩

lemma runStartGo_keeps {attempt : Attempt} : Keeps l (l.runStartGo rt id attempt).state := by
  unfold runStartGo
  cases l.checkGo id with
  | error e => exact .refl l
  | ok u =>
      dsimp only
      split
      · exact ⟨rfl, fun h => h⟩
      · exact ⟨rfl, fun h => h⟩
      · exact ⟨rfl, fun h => h⟩

lemma synced_keeps (summary : ExecutionResult) : Keeps l (l.synced rt id summary).1 := by
  have hrecord (r : ExecutionResult) : (l.recordResult r).gateDecision = none ↔
      l.gateDecision = none := Iff.rfl
  unfold synced
  cases hredecided : l.redecided summary with
  | some decided =>
      have hdecided : l.gateDecision ≠ none := by
        intro hnone
        unfold redecided at hredecided
        rw [hnone] at hredecided
        split at hredecided <;> cases hredecided
      cases l.record.gate.or l.routing.gate with
      | some gate => exact ⟨rfl, fun h => absurd h hdecided⟩
      | none => exact ⟨rfl, fun h => absurd h hdecided⟩
  | none =>
      dsimp only
      split
      · exact ⟨rfl, fun h => gateDecision_recordGate ((hrecord _).mpr h) rfl⟩
      · exact ⟨rfl, fun h => h⟩

lemma runStartSync_keeps {l' : Lifecycle} {processed : List ProcessedFile} {processing : Bool}
    {now : Text} (h : l.runStartSync rt id processed processing now = .ok (l', notices)) :
    Keeps l l' := by
  unfold runStartSync at h
  cases hrequest : l.executionRequestId with
  | none =>
      simp only [hrequest] at h
      cases h
  | some requestId =>
      simp only [hrequest] at h
      cases hfound : findProcessedResult processed requestId with
      | none =>
          simp only [hfound] at h
          cases h
      | some seed =>
          simp only [hfound, bind_eq_ok] at h
          obtain ⟨payload, -, seedResult, -, latest, -, summary, -, h⟩ := h
          have hsynced := @synced_keeps rt id l summary
          rwa [Except.ok.inj h] at hsynced

lemma runGateRun_keeps {l' : Lifecycle} {review : GateReview}
    (h : l.runGateRun rt id review = .ok (l', notices)) : Keeps l l' := by
  simp only [runGateRun, bind_eq_ok] at h
  obtain ⟨_, _, _, _, ⟨gate, result⟩, hpending, ⟨role, provider⟩, _, h⟩ := h
  have hgate := (requirePendingStopGate_ok hpending).2
  cases howner : provider.bind fun p => dictGet p stopGateReviewer with
  | none =>
      simp only [howner] at h
      cases h
  | some owner =>
      simp only [howner, bind_eq_ok] at h
      obtain ⟨_, _, _, _, h⟩ := h
      cases h
      refine ⟨rfl, fun hnone => ?_⟩
      exact gateDecision_recordGate (l := l.setEntries fun e => { e with
        gateReviewExecution := some _ }) hnone hgate

lemma gateSynced_keeps {l' : Lifecycle} {gate : Gate} {original : ExecutionResult}
    {execution : GateReviewExecution} {requestId path now : Text} {result : List (Text × Value)}
    (hgate : gate.decided = false)
    (h : l.gateSynced id gate original execution requestId path now result = .ok (l', notices)) :
    Keeps l l' := by
  unfold gateSynced at h
  split_ifs at h
  · cases h
    exact ⟨rfl, fun hnone => gateDecision_recordGate (l := l) hnone hgate⟩
  · simp only [bind_eq_ok] at h
    obtain ⟨outcome, _, stage, _, h⟩ := h
    cases h
    refine ⟨rfl, fun hnone => ?_⟩
    exact gateDecision_recordGate (l := l.setEntries fun e => { e with
      gateReviewResult := some _ }) hnone hgate

lemma runGateSync_keeps {l' : Lifecycle} {processed : List ProcessedFile} {now : Text}
    (h : l.runGateSync id processed now = .ok (l', notices)) : Keeps l l' := by
  simp only [runGateSync, bind_eq_ok] at h
  obtain ⟨_, _, _, _, ⟨gate, original⟩, hpending, h⟩ := h
  cases hexecution : l.gateReviewExecution with
  | none =>
      simp only [hexecution] at h
      cases h
  | some execution =>
      simp only [hexecution, bind_eq_ok] at h
      obtain ⟨_, _, h⟩ := h
      cases hfound : findProcessedResult processed execution.requestId with
      | none =>
          simp only [hfound] at h
          cases h
      | some seed =>
          simp only [hfound, bind_eq_ok] at h
          obtain ⟨payload, _, h⟩ := h
          cases payload with
          | obj seedResult =>
              simp only [bind_eq_ok] at h
              obtain ⟨latest, _, h⟩ := h
              exact gateSynced_keeps (requirePendingStopGate_ok hpending).2 h
          | _ => cases h

/-- Once the artifact is there, a decision is refused. -/
lemma runGateDecision_refused (h : l.decisionFile ≠ none) (verdict : GateVerdict)
    (reason : Option Text) (now path : Text) :
    l.runGateDecision id verdict reason now path =
      .error (.valueError ("stop-gate for task " ++ id ++ " is already decided")) := by
  cases hfile : l.decisionFile with
  | none => exact absurd hfile h
  | some d =>
      simp only [runGateDecision, hfile, Option.isNone_some, Bool.false_and, require]
      rfl

lemma outcomeOf_keeps {r : Except Exc (Lifecycle × List LifecycleNotice)}
    (h : ∀ l' notices, r = .ok (l', notices) → Keeps l l') : Keeps l (outcomeOf l r).state := by
  cases r with
  | error e => exact .refl l
  | ok result => exact h _ _ rfl

/-- With the artifact there, no command makes a decision. -/
lemma perform_keeps (h : l.decisionFile ≠ none) (command : Command) :
    Keeps l (l.perform rt id command).state := by
  cases command with
  | start => exact .refl l
  | startGo attempt => exact runStartGo_keeps
  | startSync => exact outcomeOf_keeps fun _ _ => runStartSync_keeps
  | gateRun => exact outcomeOf_keeps fun _ _ => runGateRun_keeps
  | gateSync => exact outcomeOf_keeps fun _ _ => runGateSync_keeps
  | gateDecision verdict reason now path =>
      apply outcomeOf_keeps
      intro l' notices hok
      rw [runGateDecision_refused h] at hok
      cases hok

/-- What commands cannot change, however many follow. -/
lemma afterwards_keeps (h : l.decisionFile ≠ none) (commands : List Command) :
    Keeps l (afterwards rt id l commands) := by
  induction commands generalizing l with
  | nil => exact .refl l
  | cons command rest ih =>
      have hstep : Keeps l (l.perform rt id command).state := perform_keeps h command
      have hfile : (l.perform rt id command).state.decisionFile = l.decisionFile :=
        congrArg Prod.fst hstep.decisions
      have hrest : Keeps (l.perform rt id command).state
          (afterwards rt id (l.perform rt id command).state rest) := ih (by rwa [hfile])
      exact ⟨hrest.decisions.trans hstep.decisions,
        fun hnone => hrest.undecided (hstep.undecided hnone)⟩

/-! ## The crash points -/

/-- What an accepted decision starts from, and what it writes. -/
structure Decides (id : Text) (l full : Lifecycle) : Prop where
  undecided : l.gateDecision = none
  absent : l.decisionFile = none
  waiting : l.stage = .waitingUser
  repeatable : ∀ verdict reason now path, ∃ result,
    l.runGateDecision id verdict reason now path = .ok result
  settled : Settled full
  decidedStage : full.stage ≠ .waitingUser
  others : full = crashedAfter 3 l full

lemma decides_of_ok {verdict : GateVerdict} {reason : Option Text} {now path : Text}
    (h : l.runGateDecision id verdict reason now path = .ok (full, notices)) :
    Decides id l full := by
  have hstart := h
  simp only [runGateDecision, bind_eq_ok, require_eq_ok, Bool.and_eq_true,
    Option.isNone_iff_eq_none] at hstart
  obtain ⟨_, ⟨hfile, hundecided⟩, ⟨gate, original⟩, hpending, hfull⟩ := hstart
  have hstage := (requirePendingStopGate_ok hpending).1
  refine ⟨hundecided, hfile, hstage, ?_, ?_, ?_, ?_⟩
  · intro verdict reason now path
    simp only [runGateDecision, hfile, hundecided, hpending]
    exact ⟨_, rfl⟩
  · cases hfull
    refine ⟨_, rfl, rfl, rfl, rfl, ?_⟩
    intro entries hentries
    simp only [List.mem_cons, List.not_mem_nil, or_false] at hentries
    rcases hentries with rfl | rfl
    · exact ⟨_, rfl, rfl, rfl⟩
    · exact ⟨_, rfl, rfl, rfl⟩
  · cases hfull
    cases verdict <;> exact fun hwaiting => by cases hwaiting
  · cases hfull
    rfl

lemma repeatable_crashedAfter_zero (h : Decides id l full) :
    Repeatable id (crashedAfter 0 l full) :=
  ⟨h.undecided, h.absent, h.repeatable⟩

lemma crashedAfter_of_three_le (h : Decides id l full) {writes : ℕ} (hwrites : 3 ≤ writes) :
    crashedAfter writes l full = full := by
  have h1 : 1 ≤ writes := by omega
  have h2 : 2 ≤ writes := by omega
  rw [h.others]
  simp [crashedAfter, h1, h2, hwrites]

lemma decisionFile_crashedAfter (h : Decides id l full) {writes : ℕ} (hwrites : 1 ≤ writes) :
    (crashedAfter writes l full).decisionFile ≠ none := by
  obtain ⟨d, hfile, -⟩ := h.settled
  simp [crashedAfter, hwrites, hfile]

/-- The routing decision is written last, and without it no decision is complete. -/
lemma not_recoverable (h : Decides id l full) {writes : ℕ} (hfirst : 1 ≤ writes)
    (hlast : writes < 3) : ¬Recoverable rt id (crashedAfter writes l full) := by
  have hfile := decisionFile_crashedAfter h hfirst
  rintro (⟨-, hnone, -⟩ | ⟨commands, d, -, -, hrouting, -⟩)
  · exact hfile hnone
  · have hkeeps : Keeps (crashedAfter writes l full)
        (afterwards rt id (crashedAfter writes l full) commands) :=
      afterwards_keeps hfile commands
    have hsame : (afterwards rt id (crashedAfter writes l full) commands).routing.gateDecision =
        (crashedAfter writes l full).routing.gateDecision :=
      congrArg (Prod.snd ∘ Prod.snd) hkeeps.decisions
    have hrest : (crashedAfter writes l full).routing = l.routing := by
      simp [crashedAfter, Nat.not_le.mpr hlast]
    rw [hsame, hrest, (gateDecision_eq_none.mp h.undecided).1.1] at hrouting
    cases hrouting

/-- After the artifact alone the task waits for a decision that no command can make or undo. -/
lemma stuck_crashedAfter_one (h : Decides id l full) : Stuck rt id (crashedAfter 1 l full) := by
  have hfile : (crashedAfter 1 l full).decisionFile ≠ none :=
    decisionFile_crashedAfter h (le_refl 1)
  refine ⟨runGateDecision_refused hfile, h.waiting, ?_⟩
  intro commands
  have hkeeps : Keeps (crashedAfter 1 l full)
      (afterwards rt id (crashedAfter 1 l full) commands) := afterwards_keeps hfile commands
  exact ⟨hkeeps.undecided h.undecided, congrArg Prod.fst hkeeps.decisions⟩

lemma not_stuck_of_stage (h : l.stage ≠ .waitingUser) : ¬Stuck rt id l := fun hstuck =>
  h hstuck.2.1

lemma stuck_iff (h : Decides id l full) (writes : ℕ) :
    Stuck rt id (crashedAfter writes l full) ↔ writes = 1 := by
  constructor
  · intro hstuck
    by_contra hne
    rcases Nat.eq_zero_or_pos writes with rfl | hpos
    · obtain ⟨result, hok⟩ := (repeatable_crashedAfter_zero h).2.2 .allow none [] []
      rw [hstuck.1] at hok
      cases hok
    · have htwo : 2 ≤ writes := by omega
      refine not_stuck_of_stage ?_ hstuck
      simpa [crashedAfter, htwo] using h.decidedStage
  · rintro rfl
    exact stuck_crashedAfter_one h

/-- A crash inside a decision leaves a gate that can be decided, or a decision that is or can be made
complete, if and only if it comes before the first or after the third write; and it leaves a task
that waits for a decision it reports as made exactly after the first. -/
theorem gateDecision_crash_iff (rt : Runtime) (id : Text) (l full : Lifecycle)
    (notices : List LifecycleNotice) (verdict : GateVerdict) (reason : Option Text)
    (now path : Text) (h : l.runGateDecision id verdict reason now path = .ok (full, notices))
    (writes : ℕ) :
    ((Recoverable rt id (crashedAfter writes l full) ∧
        ¬Stuck rt id (crashedAfter writes l full)) ↔ writes = 0 ∨ 3 ≤ writes) ∧
      (Stuck rt id (crashedAfter writes l full) ↔ writes = 1) := by
  have hdecides := decides_of_ok h
  refine ⟨⟨?_, ?_⟩, stuck_iff hdecides writes⟩
  · rintro ⟨hrecoverable, -⟩
    by_contra hbetween
    exact not_recoverable hdecides (by omega) (by omega) hrecoverable
  · intro hwrites
    refine ⟨?_, fun hstuck => ?_⟩
    · rcases hwrites with rfl | hthree
      · exact .inl (repeatable_crashedAfter_zero hdecides)
      · refine .inr ⟨[], ?_⟩
        show Settled (crashedAfter writes l full)
        rw [crashedAfter_of_three_le hdecides hthree]
        exact hdecides.settled
    · have hone := (stuck_iff hdecides writes).mp hstuck
      omega

/-! ### A decision that dies after its artifact -/

def gatedIntake : Intake := { smokeIntake with stopGate := true }

/-- The daemon's result for the request: the controller is done. -/
def doneResult : ProcessedFile where
  name := "20260929-first.result.json"
  mtime := 1
  content := .ok (.obj [("task_id", .str "first"), ("request_id", .str "first"),
    ("status", .str "done"), ("stop_reason", .str "terminal")])

/-- A task that was started, let go, executed and synchronised; its gate is pending. -/
def gatePending : Lifecycle :=
  afterwards .standard "gated" (runStart .standard "gated" gatedIntake (.rejected [])).state
    [.startGo (smokeAttempt "first" drawn_first), .startSync [doneResult] false "now"]

/-- The files once it is allowed. -/
def gateAllowed : Lifecycle :=
  (gatePending.perform .standard "gated" (.gateDecision .allow none "later" "decision.yaml")).state

lemma runGateDecision_gatePending : ∃ notices,
    gatePending.runGateDecision "gated" .allow none "later" "decision.yaml" =
      .ok (gateAllowed, notices) := ⟨_, rfl⟩

theorem gateDecision_crash_allowed :
    (Recoverable .standard "gated" (crashedAfter 3 gatePending gateAllowed) ∧
        ¬Stuck .standard "gated" (crashedAfter 3 gatePending gateAllowed)) := by
  obtain ⟨notices, h⟩ := runGateDecision_gatePending
  exact (gateDecision_crash_iff .standard "gated" gatePending gateAllowed notices .allow none "later"
    "decision.yaml" h 3).1.mpr (.inr (le_refl 3))

/-- The decision dies after its artifact: neither a repeat nor any other command completes it. -/
theorem not_recoverable_gatePending :
    ¬Recoverable .standard "gated" (crashedAfter 1 gatePending gateAllowed) ∧
      Stuck .standard "gated" (crashedAfter 1 gatePending gateAllowed) := by
  obtain ⟨notices, h⟩ := runGateDecision_gatePending
  have hdecides := decides_of_ok h
  exact ⟨not_recoverable hdecides (by decide) (by decide), stuck_crashedAfter_one hdecides⟩

end Lifecycle

end AgentOrch
