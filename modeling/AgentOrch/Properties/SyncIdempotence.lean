import AgentOrch.Properties.GateSteps
import AgentOrch.Properties.GateCrash

/-!
# Synchronising twice

A sync reads the result of the daemon anew and compares it with what the files say.  As long as no
new result appears, a second sync changes nothing, with one exception: a decision made in between
puts the recorded result under it, once.
-/

namespace AgentOrch

open Py Json

namespace Lifecycle

variable {rt : Runtime} {id : Text} {l l' : Lifecycle} {notices : List LifecycleNotice}

/-! ## Every order of commands -/

/-- The identity a start-go draws is new: no result that was seen is named after it. -/
def Draws (seen : Option (List ProcessedFile)) (command : Command) : Prop :=
  ∀ processed requestId requestPath profile input receipt drawn, seen = some processed →
    command = .startGo (.resolved requestId requestPath profile input receipt drawn) →
      findProcessedResult processed requestId = none

/-- The states of a task that any commands lead to, with the results the last successful sync saw.
A sync that raises leaves both as they are. -/
inductive Reaches (rt : Runtime) (id : Text) : Lifecycle → Option (List ProcessedFile) → Prop
  | started (intake : Intake) (attempt : Attempt) :
    Reaches rt id (runStart rt id intake attempt).state none
  | synced {l l' : Lifecycle} {seen : Option (List ProcessedFile)} {processed : List ProcessedFile}
    {processing : Bool} {now : Text} {notices : List LifecycleNotice} (h : Reaches rt id l seen)
    (hok : l.runStartSync rt id processed processing now = .ok (l', notices)) :
    Reaches rt id l' (some processed)
  | other {l : Lifecycle} {seen : Option (List ProcessedFile)} (h : Reaches rt id l seen)
    (command : Command) (hdraws : Draws seen command)
    (hother : ∀ processed processing now, command ≠ .startSync processed processing now) :
    Reaches rt id (l.perform rt id command).state seen

/-! ## The two files -/

/-- The two files agree, and so do a decision and its gate. -/
structure Agrees (l : Lifecycle) : Prop where
  files : l.record = l.routing
  undecided : l.routing.gateDecision = none → ∀ g, l.routing.gate = some g → g.decided = false
  decided : ∀ d, l.routing.gateDecision = some d → d.finalStage ≠ .waitingUser ∧
    ∃ g, l.routing.gate = some g ∧ g.decided = true ∧
      redecideGate g (GateDecision.decided d) d.finalStage = g

lemma Agrees.gateDecision_eq (h : Agrees l) :
    l.gateDecision = l.routing.gateDecision.map GateDecision.decided := by
  cases hd : l.routing.gateDecision with
  | some d => simp [gateDecision, hd]
  | none =>
      have hgate : l.routing.gate.bind Gate.asDecided = none := by
        cases hg : l.routing.gate with
        | none => rfl
        | some g => simp [Gate.asDecided, h.undecided hd g hg]
      simp [gateDecision, h.files, hd, hgate]

/-- Entries are set alike in both files. -/
lemma Agrees.setEntries (h : Agrees l) (f : Entries → Entries) :
    (l.setEntries f).record = (l.setEntries f).routing := congrArg f h.files

/-- No command but a decision sets a decision, and only it decides a gate. -/
lemma Agrees.undecidedGate (h : Agrees l) (hfiles : l'.record = l'.routing)
    (hdecision : l'.routing.gateDecision = l.routing.gateDecision)
    (hgate : l'.routing.gate = l.routing.gate ∨ l.routing.gateDecision = none ∧
      ∀ g, l'.routing.gate = some g → g.decided = false) : Agrees l' := by
  refine ⟨hfiles, ?_, ?_⟩
  · intro hnone g hg
    rw [hdecision] at hnone
    rcases hgate with hsame | ⟨-, hundecided⟩
    · exact h.undecided hnone g (hsame ▸ hg)
    · exact hundecided g hg
  · intro d hd
    rw [hdecision] at hd
    rcases hgate with hsame | ⟨hnone, -⟩
    · rw [hsame]
      exact h.decided d hd
    · rw [hnone] at hd
      cases hd

lemma Agrees.setStage (h : Agrees l) (stage : LifecycleStage) :
    Agrees { l with stage := stage } :=
  ⟨h.files, h.undecided, h.decided⟩

/-- Without a gate there is nothing to agree on but the files. -/
lemma agrees_of_none (hfiles : l.record = l.routing) (hgate : l.routing.gate = none)
    (hdecision : l.routing.gateDecision = none) : Agrees l := by
  refine ⟨hfiles, ?_, ?_⟩
  · intro _ g hg
    rw [hgate] at hg
    cases hg
  · intro d hd
    rw [hdecision] at hd
    cases hd

lemma agrees_runStart (intake : Intake) (attempt : Attempt) :
    Agrees (runStart rt id intake attempt).state := by
  unfold runStart
  dsimp only
  split
  · exact agrees_of_none rfl rfl rfl
  · split
    · exact agrees_of_none rfl rfl rfl
    · split
      · exact agrees_of_none rfl rfl rfl
      · split
        · exact agrees_of_none rfl rfl rfl
        · exact agrees_of_none rfl rfl rfl
        · exact agrees_of_none rfl rfl rfl

lemma agrees_runStartGo (h : Agrees l) (attempt : Attempt) :
    Agrees (l.runStartGo rt id attempt).state := by
  unfold runStartGo
  cases l.checkGo id with
  | error e => exact h
  | ok u =>
      have hfiles := h.setEntries fun e => { e with
        execution := some (enqueueForRouting rt l.pattern "explicit start-go" attempt) }
      dsimp only
      split
      · exact h.undecidedGate hfiles rfl (.inl rfl)
      · exact h.undecidedGate hfiles rfl (.inl rfl)
      · exact h.undecidedGate hfiles rfl (.inl rfl)

/-- Between files that agree, the pending gate and its result are those of either. -/
lemma Pending.of_agrees {gate : Gate} {result : ExecutionResult} (hp : l.Pending gate result)
    (h : Agrees l) : l.routing.gate = some gate ∧ l.routing.executionResult = some result := by
  have hgate := hp.found
  have hresult := hp.recorded
  rw [h.files, Option.or_self] at hgate hresult
  exact ⟨hgate, hresult⟩

lemma agrees_gateRun (h : Agrees l) {review : GateReview}
    (hok : l.runGateRun rt id review = .ok (l', notices)) : Agrees l' := by
  obtain ⟨gate, result, summary, hp, hnone, -, rfl⟩ := runGateRun_eq_ok hok
  rw [h.gateDecision_eq, Option.map_eq_none_iff] at hnone
  apply h.undecidedGate (h.setEntries _) rfl
  right
  refine ⟨hnone, ?_⟩
  intro g hg
  obtain rfl := Option.some.inj hg
  exact hp.undecided

lemma agrees_gateSync (h : Agrees l) {processed : List ProcessedFile} {now : Text}
    (hok : l.runGateSync id processed now = .ok (l', notices)) : Agrees l' := by
  obtain ⟨gate, result, execution, hp, hnone, -, hwritten⟩ := runGateSync_eq_ok hok
  rw [h.gateDecision_eq, Option.map_eq_none_iff] at hnone
  cases hwritten with
  | held pending =>
      apply Agrees.setStage
      apply h.undecidedGate (h.setEntries _) rfl
      right
      refine ⟨hnone, ?_⟩
      intro g hg
      obtain rfl := Option.some.inj hg
      exact hp.undecided
  | finished summary =>
      apply Agrees.setStage
      apply h.undecidedGate (h.setEntries _) rfl
      right
      refine ⟨hnone, ?_⟩
      intro g hg
      obtain rfl := Option.some.inj hg
      exact hp.undecided

lemma agrees_gateDecision (h : Agrees l) {verdict : GateVerdict} {reason : Option Text}
    {now path : Text} (hok : l.runGateDecision id verdict reason now path = .ok (l', notices)) :
    Agrees l' := by
  obtain ⟨gate, result, d, -, -, -, -, hstage, rfl⟩ := runGateDecision_eq_ok hok
  have hfiles := h.setEntries fun e => { e with
    gate := some (decidedGate gate d), gateDecision := some d }
  refine ⟨hfiles, ?_, ?_⟩
  · intro hnone
    cases hnone
  · intro d' hd
    obtain rfl := Option.some.inj hd
    refine ⟨?_, _, rfl, rfl, rfl⟩
    rw [hstage]
    cases verdict <;> decide

/-! ## What a sync writes -/

/-- Under a decision, a result that waits for it is projected. -/
lemma redecided_eq (h : Agrees l) (summary : ExecutionResult) : l.redecided summary =
    if isStopGatePending summary = true then
      l.routing.gateDecision.map fun d => (GateDecision.decided d, d.finalStage)
    else none := by
  unfold redecided
  split
  · rw [h.gateDecision_eq, Option.map_map]
    rfl
  · rfl

lemma projectedResult_eq (h : Agrees l) (summary : ExecutionResult) : l.projectedResult summary =
    if isStopGatePending summary = true then
      match l.routing.gateDecision with
      | some d => { summary with lifecycleStage := d.finalStage, gateRequired := false }
      | none => summary
    else summary := by
  unfold projectedResult
  rw [redecided_eq h]
  split_ifs with hpending
  · cases l.routing.gateDecision <;> rfl
  · rfl

/-- What is recorded is the projected result, at some time. -/
lemma recordedResult_atTime (summary : ExecutionResult) :
    ∃ time, l.recordedResult summary = atTime (l.projectedResult summary) time := by
  unfold recordedResult
  cases l.routing.executionResult with
  | none => exact ⟨_, rfl⟩
  | some r =>
      dsimp only
      split
      · exact ⟨r.syncedAt, rfl⟩
      · exact ⟨_, rfl⟩

/-- A result that is the same keeps its time. -/
lemma recordedResult_same {summary r : ExecutionResult}
    (hr : l.routing.executionResult = some r) (hsame : l.sameResult summary = true) :
    l.recordedResult summary = atTime (l.projectedResult summary) r.syncedAt := by
  simp only [recordedResult, hr, hsame, ↓reduceIte]
  rfl

/-- Under a decision only the result is written. -/
lemma synced_decided (h : Agrees l) {summary : ExecutionResult} {d : GateDecision}
    (hpending : isStopGatePending summary = true) (hd : l.routing.gateDecision = some d) :
    l.synced rt id summary = (l.recordResult (l.recordedResult summary), []) := by
  obtain ⟨-, g, hg, -, hsame⟩ := h.decided d hd
  have hredecided : l.redecided summary = some (GateDecision.decided d, d.finalStage) := by
    rw [redecided_eq h, if_pos hpending, hd]
    rfl
  have hrecord : l.record.gate.or l.routing.gate = some g := by
    rw [h.files, hg]
    rfl
  have hkept : ∀ r : ExecutionResult, (l.recordResult r).recordGate g = l.recordResult r := by
    intro r
    have hentries : ∀ e : Entries, e.gate = some g →
        ({ e with executionResult := some r, gate := some g } : Entries) =
          { e with executionResult := some r } := by
      intro e he
      rw [← he]
    have hroute := hentries l.routing hg
    have hrec := hentries l.record (by rw [h.files]; exact hg)
    simp only [recordResult, recordGate, setEntries, hroute, hrec]
  simp only [synced, hredecided, hrecord, hsame, hkept]

/-- A pending gate is summarised again. -/
lemma synced_pending {summary : ExecutionResult} (hnone : l.redecided summary = none)
    (hpending : isStopGatePending (l.recordedResult summary) = true) :
    l.synced rt id summary =
      ((l.recordResult (l.recordedResult summary)).recordGate
          (l.pendingGate (l.recordedResult summary)),
        if l.routing.gate.any fun g => sameGate g (l.pendingGate (l.recordedResult summary)) then []
        else [syncNotice rt id (l.recordedResult summary)]) := by
  simp only [synced, hnone, hpending, ↓reduceIte]

/-- Any other result is recorded alone. -/
lemma synced_plain {summary : ExecutionResult} (hnone : l.redecided summary = none)
    (hpending : isStopGatePending (l.recordedResult summary) = false) :
    l.synced rt id summary = (l.recordResult (l.recordedResult summary),
      if l.sameResult summary then [] else [syncNotice rt id (l.recordedResult summary)]) := by
  simp only [synced, hnone, hpending, Bool.false_eq_true, ↓reduceIte]

/-! ## What the last sync left -/

/-- A gate without what a review adds to it later. -/
def bare (g : Gate) : Gate :=
  { g with
    reviewPending := none
    reviewResult := none }

/-- The files hold what was read: under the decision in force, with a gate that is pending where it
waits for one; or as it was before a decision that came after it. -/
inductive Coherent (l : Lifecycle) (base : ExecutionResult) : Prop
  | current {r : ExecutionResult} (hr : l.routing.executionResult = some r)
      (hread : r = atTime (l.projectedResult base) r.syncedAt) (hstage : l.stage = r.lifecycleStage)
      (hgate : isStopGatePending r = true →
        ∃ g, l.routing.gate = some g ∧ bare g = l.pendingGate r)
  | decided {r : ExecutionResult} {d : GateDecision} (hr : l.routing.executionResult = some r)
      (hd : l.routing.gateDecision = some d) (hread : r = atTime base r.syncedAt)
      (hpending : isStopGatePending r = true) (hstage : l.stage = d.finalStage)

@[simp] lemma isStopGatePending_atTime (r : ExecutionResult) (time : Text) :
    isStopGatePending (atTime r time) = isStopGatePending r := rfl

/-- Projecting and setting a time commute. -/
lemma projectedResult_atTime (h : Agrees l) (r : ExecutionResult) (time : Text) :
    l.projectedResult (atTime r time) = atTime (l.projectedResult r) time := by
  rw [projectedResult_eq h, projectedResult_eq h, isStopGatePending_atTime]
  split_ifs
  · cases l.routing.gateDecision <;> rfl
  · rfl

lemma projectedResult_of_undecided (h : Agrees l) (hnone : l.routing.gateDecision = none)
    (r : ExecutionResult) : l.projectedResult r = r := by
  rw [projectedResult_eq h, hnone, ite_self]

/-- The projection depends on the decision alone. -/
lemma projectedResult_congr (h : Agrees l) (h' : Agrees l')
    (hsame : l'.routing.gateDecision = l.routing.gateDecision) (r : ExecutionResult) :
    l'.projectedResult r = l.projectedResult r := by
  rw [projectedResult_eq h, projectedResult_eq h', hsame]

/-- A result under a decision waits for none. -/
lemma not_pending_of_decided (h : Agrees l) {d : GateDecision}
    (hd : l.routing.gateDecision = some d) (r : ExecutionResult) :
    isStopGatePending (l.projectedResult r) = false := by
  rw [projectedResult_eq h, hd]
  split_ifs with hpending
  · rfl
  · simpa using hpending

/-- In files that agree, a gate that is pending is not decided, and the result is as it was read. -/
lemma Coherent.of_pending (h : Agrees l) {base result : ExecutionResult} {gate : Gate}
    (hcoherent : Coherent l base) (hp : l.Pending gate result)
    (hnone : l.routing.gateDecision = none) :
    result = atTime base result.syncedAt ∧ isStopGatePending result = true ∧
      bare gate = l.pendingGate result := by
  obtain ⟨hgate, hresult⟩ := hp.of_agrees h
  have hpending : isStopGatePending result = true := by
    simp [isStopGatePending, hp.required, hp.stage]
  cases hcoherent with
  | decided hr hd => rw [hnone] at hd; cases hd
  | current hr hread hstage hg =>
      rw [hresult] at hr
      obtain rfl := Option.some.inj hr
      rw [projectedResult_of_undecided h hnone] at hread
      obtain ⟨g, hgate', hbare⟩ := hg hpending
      rw [hgate] at hgate'
      obtain rfl := Option.some.inj hgate'
      exact ⟨hread, hpending, hbare⟩

/-- What a gate command leaves of a pending gate. -/
lemma Coherent.review (h : Agrees l) (h' : Agrees l') {base result : ExecutionResult}
    {gate g : Gate} {execution : GateReviewExecution} (hcoherent : Coherent l base)
    (hp : l.Pending gate result)
    (hnone : l.routing.gateDecision = none) (hdecision : l'.routing.gateDecision = none)
    (hr : l'.routing.executionResult = l.routing.executionResult)
    (hstage : l'.stage = .waitingUser) (hg : l'.routing.gate = some g)
    (hexecution : l'.gateReviewExecution = some execution)
    (hbare : bare g = { bare gate with reviewExecution := some execution })
    (hsame : ∀ r, l'.stopGateSummary r = l.stopGateSummary r) : Coherent l' base := by
  obtain ⟨hread, hpending, hgate⟩ := hcoherent.of_pending h hp hnone
  refine .current (hr.trans (hp.of_agrees h).2) ?_ (hstage.trans hp.stage.symm) ?_
  · rw [projectedResult_of_undecided h' hdecision]
    exact hread
  · intro _
    refine ⟨g, hg, ?_⟩
    rw [hbare, hgate, pendingGate, pendingGate, hsame, hexecution]

lemma coherent_gateRun (h : Agrees l) {base : ExecutionResult} (hcoherent : Coherent l base)
    {review : GateReview} (hok : l.runGateRun rt id review = .ok (l', notices)) :
    Coherent l' base := by
  have h' := agrees_gateRun h hok
  obtain ⟨gate, result, summary, hp, hnone, -, rfl⟩ := runGateRun_eq_ok hok
  rw [h.gateDecision_eq, Option.map_eq_none_iff] at hnone
  exact hcoherent.review h h' hp hnone hnone rfl hp.waiting rfl rfl rfl fun _ => rfl

/-- A review that is noted in the gate is the one the files name. -/
lemma gateReviewExecution_of_gate {execution : GateReviewExecution} {g : Gate}
    (hexecution : l.gateReviewExecution = some execution)
    (hroute : l'.routing.gateReviewExecution = l.routing.gateReviewExecution)
    (hrecord : l'.record.gateReviewExecution = l.record.gateReviewExecution)
    (hg : l'.routing.gate = some g) (hnoted : g.reviewExecution = some execution) :
    l'.gateReviewExecution = some execution := by
  unfold gateReviewExecution at hexecution ⊢
  rw [hroute, hrecord, hg, Option.bind_some, hnoted]
  cases hfirst : l.routing.gateReviewExecution with
  | some first =>
      rw [hfirst] at hexecution
      exact hexecution
  | none =>
      cases hsecond : l.record.gateReviewExecution with
      | some second =>
          rw [hfirst, hsecond] at hexecution
          exact hexecution
      | none => rfl

lemma coherent_gateSync (h : Agrees l) {base : ExecutionResult} (hcoherent : Coherent l base)
    {processed : List ProcessedFile} {now : Text}
    (hok : l.runGateSync id processed now = .ok (l', notices)) : Coherent l' base := by
  have h' := agrees_gateSync h hok
  obtain ⟨gate, result, execution, hp, hnone, hexecution, hwritten⟩ := runGateSync_eq_ok hok
  rw [h.gateDecision_eq, Option.map_eq_none_iff] at hnone
  cases hwritten with
  | held pending =>
      exact hcoherent.review h h' hp hnone hnone rfl rfl rfl
        (gateReviewExecution_of_gate hexecution rfl rfl rfl rfl) rfl fun _ => rfl
  | finished summary =>
      exact hcoherent.review h h' hp hnone hnone rfl rfl rfl
        (gateReviewExecution_of_gate hexecution rfl rfl rfl rfl) rfl fun _ => rfl

lemma coherent_gateDecision (h : Agrees l) {base : ExecutionResult} (hcoherent : Coherent l base)
    {verdict : GateVerdict} {reason : Option Text} {now path : Text}
    (hok : l.runGateDecision id verdict reason now path = .ok (l', notices)) :
    Coherent l' base := by
  obtain ⟨gate, result, d, -, hp, -, hnone, hstage, rfl⟩ := runGateDecision_eq_ok hok
  rw [h.gateDecision_eq, Option.map_eq_none_iff] at hnone
  obtain ⟨hread, hpending, -⟩ := hcoherent.of_pending h hp hnone
  exact .decided (hp.of_agrees h).2 rfl hread hpending rfl

/-! ## Syncing -/

section
variable {summary : ExecutionResult}

lemma agrees_recordGate (h : Agrees l) {g : Gate} (hnone : l.routing.gateDecision = none)
    (hg : g.decided = false) : Agrees (l.recordGate g) := by
  apply h.undecidedGate (h.setEntries _) rfl
  right
  refine ⟨hnone, ?_⟩
  intro g' hg'
  obtain rfl := Option.some.inj hg'
  exact hg

/-- Summarising a gate again keeps the review that is noted. -/
lemma gateReviewExecution_pendingGate (r : ExecutionResult) :
    ((l.recordResult r).recordGate (l.pendingGate r)).gateReviewExecution =
      l.gateReviewExecution := by
  cases hexecution : l.gateReviewExecution with
  | some execution => exact gateReviewExecution_of_gate hexecution rfl rfl rfl hexecution
  | none =>
      have hparts := hexecution
      simp only [gateReviewExecution, Option.or_eq_none_iff] at hparts
      obtain ⟨hroute, hrecord, -, -⟩ := hparts
      have hnoted : (l.pendingGate r).reviewExecution = none := hexecution
      show l.routing.gateReviewExecution.or (l.record.gateReviewExecution.or
        ((l.pendingGate r).reviewExecution.or (l.pendingGate r).reviewExecution)) = none
      rw [hroute, hrecord, hnoted]
      rfl

lemma agrees_synced (h : Agrees l) : Agrees (l.synced rt id summary).1 := by
  have hrecorded : ∀ r, Agrees (l.recordResult r) := fun r =>
    (h.undecidedGate (h.setEntries _) rfl (.inl rfl)).setStage r.lifecycleStage
  cases hredecided : l.redecided summary with
  | some decided =>
      rw [redecided_eq h] at hredecided
      split_ifs at hredecided with hpending
      obtain ⟨d, hd, -⟩ := Option.map_eq_some_iff.mp hredecided
      rw [synced_decided h hpending hd]
      exact hrecorded _
  | none =>
      cases hpending : isStopGatePending (l.recordedResult summary) with
      | true =>
          rw [synced_pending hredecided hpending]
          have hnone : l.routing.gateDecision = none := by
            cases hd : l.routing.gateDecision with
            | none => rfl
            | some d =>
                obtain ⟨time, htime⟩ := @recordedResult_atTime l summary
                rw [htime, isStopGatePending_atTime, not_pending_of_decided h hd] at hpending
                cases hpending
          exact agrees_recordGate (hrecorded _) hnone rfl
      | false =>
          rw [synced_plain hredecided hpending]
          exact hrecorded _

/-- What a sync leaves is coherent with what it read. -/
lemma coherent_synced (h : Agrees l) (time : Text) :
    Coherent (l.synced rt id summary).1 (atTime summary time) := by
  have h' := @agrees_synced rt id l summary h
  obtain ⟨synced, htime⟩ := @recordedResult_atTime l summary
  have hprojected : ∀ l' : Lifecycle, Agrees l' →
      l'.routing.gateDecision = l.routing.gateDecision →
      l.recordedResult summary = atTime (l'.projectedResult (atTime summary time))
        (l.recordedResult summary).syncedAt := by
    intro l' hagrees hsame
    rw [projectedResult_atTime hagrees, projectedResult_congr h hagrees hsame, htime]
    rfl
  cases hredecided : l.redecided summary with
  | some decided =>
      rw [redecided_eq h] at hredecided
      split_ifs at hredecided with hpending
      obtain ⟨d, hd, -⟩ := Option.map_eq_some_iff.mp hredecided
      rw [synced_decided h hpending hd] at h' ⊢
      refine .current rfl (hprojected _ h' rfl) rfl ?_
      intro hwaits
      rw [htime, isStopGatePending_atTime, not_pending_of_decided h hd] at hwaits
      cases hwaits
  | none =>
      cases hpending : isStopGatePending (l.recordedResult summary) with
      | true =>
          rw [synced_pending hredecided hpending] at h' ⊢
          refine .current rfl (hprojected _ h' rfl) rfl ?_
          intro _
          refine ⟨_, rfl, ?_⟩
          have hexecution := @gateReviewExecution_pendingGate l (l.recordedResult summary)
          show bare (l.pendingGate (l.recordedResult summary)) =
            { l.stopGateSummary (l.recordedResult summary) with
              reviewExecution := ((l.recordResult (l.recordedResult summary)).recordGate
                (l.pendingGate (l.recordedResult summary))).gateReviewExecution }
          rw [hexecution]
          rfl
      | false =>
          rw [synced_plain hredecided hpending] at h' ⊢
          refine .current rfl (hprojected _ h' rfl) rfl ?_
          intro hwaits
          rw [hpending] at hwaits
          cases hwaits

end

/-! ## Every state -/

lemma synced_stopGate (summary : ExecutionResult) :
    (l.synced rt id summary).1.stopGate = l.stopGate := by
  unfold synced
  cases l.redecided summary with
  | some decided =>
      cases l.record.gate.or l.routing.gate with
      | some gate => rfl
      | none => rfl
  | none =>
      dsimp only
      split
      · rfl
      · rfl

/-- A sync that reads the results that were seen finds what it left. -/
def Steady (id : Text) (l : Lifecycle) (seen : Option (List ProcessedFile)) : Prop :=
  ∀ processed processing now base, seen = some processed →
    l.readSummary id processed processing now = .ok base → Coherent l base

section
variable {seen : Option (List ProcessedFile)}

/-- A command that keeps what is read, and what it is coherent with, keeps the state steady. -/
lemma Steady.congr (h : Steady id l seen)
    (hrequest : l'.executionRequestId = l.executionRequestId) (hgate : l'.stopGate = l.stopGate)
    (hcoherent : ∀ base, Coherent l base → Coherent l' base) : Steady id l' seen := by
  intro processed processing now base hseen hread
  rw [readSummary_congr hrequest hgate] at hread
  exact hcoherent base (h processed processing now base hseen hread)

/-- Without a request, or with one that has no result yet, nothing is read. -/
lemma steady_of_unread (h : ∀ processed requestId, seen = some processed →
    l.executionRequestId = some requestId → findProcessedResult processed requestId = none) :
    Steady id l seen := by
  intro processed processing now base hseen hread
  cases hrequest : l.executionRequestId with
  | none =>
      simp only [readSummary, hrequest] at hread
      cases hread
  | some requestId =>
      simp only [readSummary, hrequest, h processed requestId hseen hrequest] at hread
      cases hread

/-- A request that is enqueued has the identity that was drawn. -/
lemma enqueueForRouting_enqueued {pattern : Option Text} {reason reason' receipt : Text}
    {attempt : Attempt} {request : ExecutionRequest}
    (h : enqueueForRouting rt pattern reason attempt = .enqueued reason' receipt request) :
    ∃ requestPath profile input drawn, attempt =
      .resolved request.requestId requestPath profile input receipt drawn := by
  unfold enqueueForRouting at h
  split at h
  · cases h
  · cases attempt with
    | rejected message => cases h
    | unresolved message receipt => cases h
    | resolved requestId requestPath profile input receipt drawn =>
        cases h
        exact ⟨_, _, _, drawn, rfl⟩

lemma steady_runStartGo (h : Steady id l seen) {attempt : Attempt}
    (hdraws : Draws seen (.startGo attempt)) :
    Steady id (l.runStartGo rt id attempt).state seen := by
  unfold runStartGo
  cases l.checkGo id with
  | error e => exact h
  | ok u =>
      dsimp only
      cases hexecution : enqueueForRouting rt l.pattern "explicit start-go" attempt with
      | waitingUser reason receipt =>
          apply steady_of_unread
          intro processed requestId _ hrequest
          cases hrequest
      | blocked reason =>
          apply steady_of_unread
          intro processed requestId _ hrequest
          cases hrequest
      | enqueued reason receipt request =>
          obtain ⟨requestPath, profile, input, drawn, rfl⟩ := enqueueForRouting_enqueued hexecution
          apply steady_of_unread
          intro processed requestId hseen hrequest
          have hnamed := executionRequestId_setStage.symm.trans hrequest
          rw [executionRequestId_enqueued fun _ => rfl] at hnamed
          obtain rfl := Option.some.inj hnamed
          exact hdraws processed _ requestPath profile input receipt drawn hseen rfl

/-- A sync leaves a state that reads alike. -/
lemma steady_synced (h : Agrees l) {processed : List ProcessedFile} {processing : Bool} {now : Text}
    {summary : ExecutionResult} (hread : l.readSummary id processed processing now = .ok summary) :
    Steady id (l.synced rt id summary).1 (some processed) := by
  intro processed' processing' now' base hseen hread'
  obtain rfl := Option.some.inj hseen
  rw [readSummary_congr (synced_names summary) (synced_stopGate summary),
    (readSummary_again hread processing' now').1] at hread'
  obtain rfl := Except.ok.inj hread'
  exact coherent_synced h now'

lemma runStartSync_eq_ok {processed : List ProcessedFile} {processing : Bool} {now : Text}
    (h : l.runStartSync rt id processed processing now = .ok (l', notices)) :
    ∃ summary, l.readSummary id processed processing now = .ok summary ∧
      l.synced rt id summary = (l', notices) := by
  rw [runStartSync_eq] at h
  cases hread : l.readSummary id processed processing now with
  | error e =>
      rw [hread] at h
      cases h
  | ok summary =>
      rw [hread] at h
      exact ⟨summary, rfl, Except.ok.inj h⟩

/-- A command that may raise. -/
lemma outcomeOf_keeps_of {motive : Lifecycle → Prop} (h : motive l)
    {r : Except Exc (Lifecycle × List LifecycleNotice)}
    (hok : ∀ l' notices, r = .ok (l', notices) → motive l') : motive (outcomeOf l r).state := by
  cases r with
  | error e => exact h
  | ok result => exact hok _ _ rfl

/-- What every command keeps but a sync. -/
lemma perform_keeps_steady (hagrees : Agrees l) (h : Steady id l seen) {command : Command}
    (hdraws : Draws seen command)
    (hother : ∀ processed processing now, command ≠ .startSync processed processing now) :
    Agrees (l.perform rt id command).state ∧ Steady id (l.perform rt id command).state seen := by
  cases command with
  | start intake attempt => exact ⟨hagrees, h⟩
  | startGo attempt => exact ⟨agrees_runStartGo hagrees attempt, steady_runStartGo h hdraws⟩
  | startSync processed processing now => exact absurd rfl (hother processed processing now)
  | gateRun review =>
      apply outcomeOf_keeps_of (motive := fun l' => Agrees l' ∧ Steady id l' seen) ⟨hagrees, h⟩
      intro l' notices hok
      refine ⟨agrees_gateRun hagrees hok, h.congr (runGateRun_names hok) ?_
        fun base hbase => coherent_gateRun hagrees hbase hok⟩
      obtain ⟨_, _, _, -, -, -, rfl⟩ := runGateRun_eq_ok hok
      rfl
  | gateSync processed now =>
      apply outcomeOf_keeps_of (motive := fun l' => Agrees l' ∧ Steady id l' seen) ⟨hagrees, h⟩
      intro l' notices hok
      refine ⟨agrees_gateSync hagrees hok, h.congr (runGateSync_names hok) ?_
        fun base hbase => coherent_gateSync hagrees hbase hok⟩
      obtain ⟨_, _, _, -, -, -, hwritten⟩ := runGateSync_eq_ok hok
      cases hwritten with
      | held pending => rfl
      | finished summary => rfl
  | gateDecision verdict reason now path =>
      apply outcomeOf_keeps_of (motive := fun l' => Agrees l' ∧ Steady id l' seen) ⟨hagrees, h⟩
      intro l' notices hok
      refine ⟨agrees_gateDecision hagrees hok, h.congr (runGateDecision_names hok) ?_
        fun base hbase => coherent_gateDecision hagrees hbase hok⟩
      obtain ⟨_, _, _, -, -, -, -, -, rfl⟩ := runGateDecision_eq_ok hok
      rfl

/-- In every state that is reached the files agree, and hold what the last sync saw. -/
lemma Reaches.steady (h : Reaches rt id l seen) : Agrees l ∧ Steady id l seen := by
  induction h with
  | started intake attempt =>
      refine ⟨agrees_runStart intake attempt, ?_⟩
      intro processed processing now base hseen
      cases hseen
  | synced h hok ih =>
      obtain ⟨summary, hread, hsynced⟩ := runStartSync_eq_ok hok
      have hagrees := @agrees_synced rt id _ summary ih.1
      have hsteady := @steady_synced rt id _ ih.1 _ _ _ _ hread
      rw [hsynced] at hagrees hsteady
      exact ⟨hagrees, hsteady⟩
  | other h command hdraws hother ih => exact perform_keeps_steady ih.1 ih.2 hdraws hother

end

/-! ## The second sync -/

/-- A decision that the recorded result does not show yet. -/
structure Unshown (l : Lifecycle) (d : GateDecision) (r : ExecutionResult) : Prop where
  decided : l.routing.gateDecision = some d
  recorded : l.routing.executionResult = some r
  waits : r.gateRequired = true

/-- The result under a decision, read at some time. -/
def underDecision (r : ExecutionResult) (d : GateDecision) (now : Text) : ExecutionResult :=
  { r with syncedAt := now, lifecycleStage := d.finalStage, gateRequired := false }

section
variable {base r : ExecutionResult}

/-- Recording the result that is recorded changes nothing. -/
lemma recordResult_self (h : Agrees l) (hr : l.routing.executionResult = some r)
    (hstage : l.stage = r.lifecycleStage) : l.recordResult r = l := by
  have hentries : ∀ e : Entries, e.executionResult = some r →
      ({ e with executionResult := some r } : Entries) = e := by
    intro e he
    rw [← he]
  have hroute := hentries l.routing hr
  have hrec := hentries l.record (by rw [h.files]; exact hr)
  simp only [recordResult, setEntries, hroute, hrec, ← hstage]

lemma recordGate_self (h : Agrees l) {g : Gate} (hg : l.routing.gate = some g) :
    l.recordGate g = l := by
  have hentries : ∀ e : Entries, e.gate = some g → ({ e with gate := some g } : Entries) = e := by
    intro e he
    rw [← he]
  have hroute := hentries l.routing hg
  have hrec := hentries l.record (by rw [h.files]; exact hg)
  simp only [recordGate, setEntries, hroute, hrec]

/-- A summary is the same as itself where the result it is of is. -/
lemma sameGate_pendingGate (hsame : sameExecutionResult r r = true) :
    sameGate (l.pendingGate r) (l.pendingGate r) = true := by
  simp only [sameExecutionResult, Bool.and_eq_true, decide_eq_true_eq] at hsame
  obtain ⟨⟨⟨⟨⟨⟨⟨⟨⟨-, -⟩, htask⟩, hstatus⟩, -⟩, -⟩, -⟩, -⟩, -⟩, -⟩ := hsame
  simp [sameGate, pendingGate, stopGateSummary, htask, hstatus]

/-- Where the files hold what is read, nothing is written and nothing is reported. -/
lemma synced_current (h : Agrees l) (hr : l.routing.executionResult = some r)
    (hread : r = atTime (l.projectedResult base) r.syncedAt) (hstage : l.stage = r.lifecycleStage)
    (hgate : isStopGatePending r = true → ∃ g, l.routing.gate = some g ∧ bare g = l.pendingGate r)
    (hself : sameExecutionResult r r = true)
    (hbare : l.routing.gateDecision = none → ∀ g, l.routing.gate = some g →
      g.reviewPending = none ∧ g.reviewResult = none) : l.synced rt id base = (l, []) := by
  have hsame : l.sameResult base = true := by
    have hprojected :
        sameExecutionResult r (atTime (l.projectedResult base) r.syncedAt) = true := by
      rw [← hread]
      exact hself
    simp only [sameResult, hr, Option.any_some]
    exact hprojected
  have hrecorded : l.recordedResult base = r := (recordedResult_same hr hsame).trans hread.symm
  cases hredecided : l.redecided base with
  | some decided =>
      rw [redecided_eq h] at hredecided
      split_ifs at hredecided with hpending
      obtain ⟨d, hd, -⟩ := Option.map_eq_some_iff.mp hredecided
      rw [synced_decided h hpending hd, hrecorded, recordResult_self h hr hstage]
  | none =>
      cases hpending : isStopGatePending (l.recordedResult base) with
      | false =>
          rw [synced_plain hredecided hpending, hrecorded, recordResult_self h hr hstage, hsame]
          rfl
      | true =>
          rw [synced_pending hredecided hpending, hrecorded, recordResult_self h hr hstage]
          rw [hrecorded] at hpending
          have hnone : l.routing.gateDecision = none := by
            cases hd : l.routing.gateDecision with
            | none => rfl
            | some d =>
                rw [hread, isStopGatePending_atTime, not_pending_of_decided h hd] at hpending
                cases hpending
          obtain ⟨g, hg, hg'⟩ := hgate hpending
          obtain ⟨hnopending, hnoresult⟩ := hbare hnone g hg
          have hsummary : g = l.pendingGate r := by
            rw [← hg', bare, ← hnopending, ← hnoresult]
          rw [← hsummary, recordGate_self h hg, hg, hsummary]
          simp [sameGate_pendingGate hself]

/-- Where a decision came after the result, the result is put under it. -/
lemma synced_unshown (h : Agrees l) {d : GateDecision} (hr : l.routing.executionResult = some r)
    (hd : l.routing.gateDecision = some d) (hread : r = atTime base r.syncedAt)
    (hpending : isStopGatePending r = true) :
    l.synced rt id base = (l.recordResult (underDecision r d base.syncedAt), []) := by
  have hbase : isStopGatePending base = true := by
    rw [hread] at hpending
    exact hpending
  have hprojected : l.projectedResult base = underDecision r d base.syncedAt := by
    rw [projectedResult_eq h, if_pos hbase, hd, hread]
    rfl
  have hrequired : r.gateRequired = true := by
    simp only [isStopGatePending, Bool.and_eq_true] at hpending
    exact hpending.1
  have hchanged : l.sameResult base = false := by
    simp [sameResult, hr, hprojected, sameExecutionResult, underDecision, hrequired]
  have hrecorded : l.recordedResult base = underDecision r d base.syncedAt := by
    simp only [recordedResult, hr, hchanged, hprojected, Bool.false_eq_true, ↓reduceIte]
  rw [synced_decided h hbase hd, hrecorded]

end

/-! ## The result -/

/-- What a sync does where no result is new: nothing, or it puts the result under a decision. -/
inductive Resynced (l : Lifecycle) (now : Text) : Lifecycle → Prop
  | unchanged : Resynced l now l
  | shown {d : GateDecision} {r : ExecutionResult} (hunshown : Unshown l d r) :
    Resynced l now (l.recordResult (underDecision r d now))

/-- The result that the files hold compares equal to itself, and a pending gate has no part of a
review that came back. -/
structure Plain (l : Lifecycle) : Prop where
  equals : ∀ r, l.routing.executionResult = some r → sameExecutionResult r r = true
  reviewed : l.routing.gateDecision = none → ∀ g, l.routing.gate = some g →
    g.reviewPending = none ∧ g.reviewResult = none

section
variable {processed : List ProcessedFile} {processing : Bool} {now : Text} {base : ExecutionResult}

/-- A sync that reads a result leaves what the next one leaves alone. -/
lemma synced_twice (h : Agrees l) (hcoherent : Coherent l base) (hplain : Plain l) :
    ∃ l', l.synced rt id base = (l', []) ∧ Resynced l base.syncedAt l' ∧
      ∀ time, l'.synced rt id (atTime base time) = (l', []) := by
  cases hcoherent with
  | @current r hr hread hstage hgate =>
      have hself := hplain.equals r hr
      refine ⟨l, synced_current h hr hread hstage hgate hself hplain.reviewed, .unchanged, ?_⟩
      intro time
      apply synced_current h hr _ hstage hgate hself hplain.reviewed
      rw [projectedResult_atTime h]
      exact hread
  | @decided r d hr hd hread hpending hstage =>
      have hsynced := @synced_unshown rt id l base r h d hr hd hread hpending
      have h' := @agrees_synced rt id l base h
      rw [hsynced] at h'
      have hwaits : r.gateRequired = true := by
        simp only [isStopGatePending, Bool.and_eq_true] at hpending
        exact hpending.1
      refine ⟨_, hsynced, .shown ⟨hd, hr, hwaits⟩, ?_⟩
      intro time
      apply synced_current (r := underDecision r d base.syncedAt) h' rfl _ rfl
      · intro hfalse
        cases hfalse
      · have hself := hplain.equals r hr
        simp only [sameExecutionResult, Bool.and_eq_true, decide_eq_true_eq] at hself
        simp [sameExecutionResult, underDecision, hself]
      · intro hnone
        rw [show (l.recordResult (underDecision r d base.syncedAt)).routing.gateDecision =
          l.routing.gateDecision from rfl, hd] at hnone
        cases hnone
      · have hbase : isStopGatePending (atTime base time) = true := by
          rw [hread] at hpending
          exact hpending
        rw [projectedResult_eq h', if_pos hbase]
        rw [show (l.recordResult (underDecision r d base.syncedAt)).routing.gateDecision =
          l.routing.gateDecision from rfl, hd, hread]
        rfl

/-- A sync as a command. -/
lemma perform_startSync_ok (hread : l.readSummary id processed processing now = .ok base)
    (hsynced : l.synced rt id base = (l', [])) :
    (l.perform rt id (.startSync processed processing now)).notices = [] ∧
      (l.perform rt id (.startSync processed processing now)).state = l' := by
  simp only [perform, runStartSync_eq, hread, Except.map, hsynced, outcomeOf, and_self]

lemma perform_startSync_error {e : Exc}
    (hread : l.readSummary id processed processing now = .error e) :
    (l.perform rt id (.startSync processed processing now)).notices = [] ∧
      (l.perform rt id (.startSync processed processing now)).state = l := by
  simp only [perform, runStartSync_eq, hread, Except.map, outcomeOf, and_self]

end

/-- Where no result is new since the last sync that succeeded, a sync reports nothing; it leaves all
files as they are unless a decision was made since, and then it puts the recorded result under the
decision.  The next one changes nothing. -/
theorem startSync_idempotent (rt : Runtime) (id : Text) (l : Lifecycle)
    (processed : List ProcessedFile) (h : Reaches rt id l (some processed)) (hplain : Plain l)
    (processing : Bool) (now : Text) :
    (l.perform rt id (.startSync processed processing now)).notices = [] ∧
      Resynced l now (l.perform rt id (.startSync processed processing now)).state ∧
      ∀ (processing' : Bool) (now' : Text),
        ((l.perform rt id (.startSync processed processing now)).state.perform rt id
          (.startSync processed processing' now')).notices = [] ∧
        ((l.perform rt id (.startSync processed processing now)).state.perform rt id
          (.startSync processed processing' now')).state =
            (l.perform rt id (.startSync processed processing now)).state := by
  obtain ⟨hagrees, hsteady⟩ := h.steady
  cases hread : l.readSummary id processed processing now with
  | error e =>
      obtain ⟨hnotices, hstate⟩ := @perform_startSync_error rt _ _ _ _ _ _ hread
      rw [hstate]
      refine ⟨hnotices, .unchanged, ?_⟩
      intro processing' now'
      cases hagain : l.readSummary id processed processing' now' with
      | error e' => exact perform_startSync_error hagain
      | ok base =>
          rw [(readSummary_again hagain processing now).1] at hread
          cases hread
  | ok base =>
      obtain ⟨l', hsynced, hresynced, htwice⟩ := @synced_twice rt id l base hagrees
        (hsteady processed processing now base rfl hread) hplain
      obtain ⟨hnotices, hstate⟩ := perform_startSync_ok hread hsynced
      have hnow : base.syncedAt = now := by
        have hsame := (readSummary_again hread processing now).1
        rw [hread] at hsame
        exact congrArg ExecutionResult.syncedAt (Except.ok.inj hsame)
      rw [hnow] at hresynced
      rw [hstate]
      refine ⟨hnotices, hresynced, ?_⟩
      intro processing' now'
      have hread' : l'.readSummary id processed processing' now' = .ok (atTime base now') := by
        have hnames := @synced_names rt id l base
        have hgate := @synced_stopGate rt id l base
        rw [hsynced] at hnames hgate
        rw [readSummary_congr hnames hgate]
        exact (readSummary_again hread processing' now').1
      exact perform_startSync_ok hread' (htwice now')

/-! ### A gate that is pending, and one that was decided -/

def gateParked : Lifecycle := (runStart .standard "gated" gatedIntake (.rejected [])).state

def gateExecuted : Lifecycle :=
  (gateParked.perform .standard "gated" (.startGo (smokeAttempt "first" drawn_first))).state

lemma runStartSync_gateExecuted : ∃ notices,
    gateExecuted.runStartSync .standard "gated" [doneResult] false "now" =
      .ok (gatePending, notices) := ⟨_, rfl⟩

lemma reaches_gatePending : Reaches .standard "gated" gatePending (some [doneResult]) := by
  have hparked : Reaches .standard "gated" gateParked none := .started gatedIntake (.rejected [])
  have hexecuted : Reaches .standard "gated" gateExecuted none :=
    hparked.other (.startGo (smokeAttempt "first" (by decide)))
      (fun _ _ _ _ _ _ _ hseen => by cases hseen) (fun _ _ _ => by simp)
  obtain ⟨notices, hsynced⟩ := runStartSync_gateExecuted
  exact hexecuted.synced hsynced

theorem startSync_idempotent_gatePending :
    (gatePending.perform .standard "gated" (.startSync [doneResult] false "later")).notices = [] ∧
      Resynced gatePending "later"
        (gatePending.perform .standard "gated" (.startSync [doneResult] false "later")).state := by
  have hplain : Plain gatePending := by
    constructor
    · intro r hr
      obtain rfl := Option.some.inj hr
      decide
    · intro _ g hg
      obtain rfl := Option.some.inj hg
      exact ⟨rfl, rfl⟩
  have h := startSync_idempotent .standard "gated" gatePending [doneResult] reaches_gatePending
    hplain false "later"
  exact ⟨h.1, h.2.1⟩

def gateReview : GateReview where
  daemonRuns := true
  envelope := .ok ()
  now := "noon"
  requestId := "review"
  requestPath := "inbox/review.json"
  profile := "profiles/stop_gate_review.yaml"
  inputPath := "tasks/gated-gate-input.md"
  expectedOutputPath := "tasks/gated-gate-review.md"

/-- The daemon's result for the review: it allows. -/
def allowedResult : ProcessedFile where
  name := "20260929-review.result.json"
  mtime := 2
  content := .ok (.obj [("task_id", .str "review"), ("request_id", .str "review"),
    ("status", .str "done"), ("stage_runs", .arr [.obj [("outcome", .str "allow")]]),
    ("transitions", .arr [])])

/-- The pending gate with a review enqueued, after another sync. -/
def gateEnqueued : Lifecycle := (gatePending.perform .standard "gated" (.gateRun gateReview)).state

def gateResynced : Lifecycle :=
  (gateEnqueued.perform .standard "gated"
    (.startSync [doneResult, allowedResult] false "evening")).state

lemma runStartSync_gateEnqueued : ∃ notices,
    gateEnqueued.runStartSync .standard "gated" [doneResult, allowedResult] false "evening" =
      .ok (gateResynced, notices) := ⟨_, rfl⟩

/-- The gate with the review that came back. -/
def gateReviewed : Lifecycle :=
  (gateResynced.perform .standard "gated"
    (.gateSync [doneResult, allowedResult] "night")).state

lemma reaches_gateReviewed :
    Reaches .standard "gated" gateReviewed (some [doneResult, allowedResult]) := by
  have henqueued : Reaches .standard "gated" gateEnqueued (some [doneResult]) :=
    reaches_gatePending.other (.gateRun gateReview) (fun _ _ _ _ _ _ _ _ hgo => by cases hgo)
      (fun _ _ _ => by simp)
  obtain ⟨notices, hsynced⟩ := runStartSync_gateEnqueued
  exact (henqueued.synced hsynced).other (.gateSync [doneResult, allowedResult] "night")
    (fun _ _ _ _ _ _ _ _ hgo => by cases hgo) (fun _ _ _ => by simp)

/-- Once the gate is decided, the next sync rewrites the recorded result; and once a review of a
pending gate came back, the next sync drops it and reports the result again. -/
theorem not_startSync_idempotent :
    (¬ ∀ (l : Lifecycle) (processed : List ProcessedFile) (processing : Bool) (now : Text),
      Reaches .standard "gated" l (some processed) →
        (l.perform .standard "gated" (.startSync processed processing now)).state = l) ∧
    ¬ ∀ (l : Lifecycle) (processed : List ProcessedFile) (processing : Bool) (now : Text),
      Reaches .standard "gated" l (some processed) → l.gateDecision = none →
        (l.perform .standard "gated" (.startSync processed processing now)).state = l ∧
        (l.perform .standard "gated" (.startSync processed processing now)).notices = [] := by
  constructor
  · intro hall
    have hreaches : Reaches .standard "gated" gateAllowed (some [doneResult]) :=
      reaches_gatePending.other (.gateDecision .allow none "later" "decision.yaml")
        (fun _ _ _ _ _ _ _ _ hgo => by cases hgo) (fun _ _ _ => by simp)
    have hsame := hall gateAllowed [doneResult] false "later" hreaches
    have hchanged := congrArg (fun l => l.routing.executionResult.map (·.gateRequired)) hsame
    revert hchanged
    decide
  · intro hall
    have hsame := hall gateReviewed _ false "later" reaches_gateReviewed rfl
    have hreported := congrArg List.length hsame.2
    revert hreported
    decide

end Lifecycle

end AgentOrch
