import AgentOrch.Properties.SealedRecords
import AgentOrch.Properties.Iteration

/-!
# What the gate made of the committed runs

In a run whose commits are the run loop's, every branching run in the history of an envelope task
went through the convergence gate: it was a success, the gate let it stand or held it, and the
seal keeps what the loop made of that.  `GateSealed` is this fact about one run, and
`Reachable.gateHistory` says that it holds of the whole history.
-/

namespace AgentOrch

open Py Json

/-! ## Settled successes -/

/-- Classification never waits for the user. -/
lemma classifyResult_ne_waitingUser {rt : Runtime} {allowed : List Text} {raw result : RunResult}
    (h : classifyResult rt allowed raw = .ok result) : result.classification ≠ .waitingUser := by
  obtain ⟨-, -, hplain, hstopped⟩ := classifyResult_spec h
  cases hstop : raw.containmentStop with
  | some stop =>
      have hblocked : result.classification = .blocked :=
        congrArg (fun t => t.2.1) (hstopped stop hstop)
      simp [hblocked]
  | none =>
      have hverdict : result.classification = (verdictOf rt allowed raw).2.1 :=
        congrArg (fun t => t.2.1) (hplain hstop)
      rw [hverdict]
      unfold verdictOf
      split
      · simp
      · split
        · split_ifs <;> simp
        · split
          · simp
          · split
            · simp
            · split
              · simp
              · simp
              · split_ifs <;> simp

/-- A run that is committed was classified as a success. -/
lemma Settles.success {rt : Runtime} {allowed : List Text} {context : Option ConvergenceContext}
    {raw classified scored : RunResult} (h : Settles rt allowed context raw classified scored)
    (hcommits : (reviewerOverride scored).classification = .success ∨
      (reviewerOverride scored).classification = .waitingUser) :
    classified.classification = .success := by
  have hscored : scored.classification = .success ∨ scored.classification = .waitingUser := by
    unfold reviewerOverride at hcommits
    split_ifs at hcommits with hroute
    · simp only [Bool.and_eq_true, decide_eq_true_eq] at hroute
      exact .inl hroute.1.2
    · exact hcommits
  rcases scoreWith_keeps h.scores with rfl | ⟨reason, rfl, hsuccess⟩
  · exact hscored.resolve_right (classifyResult_ne_waitingUser h.classifies)
  · exact hsuccess

/-! ## Sealed runs -/

/-- A run went through the gate as a success, and was sealed as the loop routed it. -/
structure GateSealed (rt : Runtime) (run : StageRun) (allowed : List Text)
    (context : ConvergenceContext) (raw classified scored : RunResult) : Prop where
  decoded : raw.Decoded
  settles : Settles rt allowed (some context) raw classified scored
  success : classified.classification = .success
  seals : sealRunManifest rt (reviewerOverride scored) = .ok (manifestOf (reviewerOverride scored))
  manifest : run.manifest = some (manifestOf (reviewerOverride scored))

namespace GateSealed

variable {rt : Runtime} {s : TaskStore} {run : StageRun} {allowed : List Text}
  {context : ConvergenceContext} {raw classified scored : RunResult}

/-- An intact run reads back the text the gate saw, up to line ends. -/
lemma readSealedRun (h : GateSealed rt run allowed context raw classified scored)
    (hintact : run.runToken ∉ s.damaged) :
    s.readSealedRun run = .ok ⟨manifestOf (reviewerOverride scored),
      universalNewlines classified.authoritativeText⟩ := by
  obtain ⟨htext, -, herror⟩ := reviewerOverride_keeps scored
  obtain ⟨hclassified, hscored, -⟩ := h.settles.text_eq
  have hresult : (reviewerOverride scored).authoritativeText = classified.authoritativeText := by
    rw [htext, hscored, hclassified]
  have hread := readSealedRun_of_sealed h.manifest (sealRunManifest_ok.mp h.seals).2.1 hintact
    (herror.trans (h.settles.channel h.success).1)
    (by rw [hresult, hclassified]; exact h.settles.encodable h.decoded (h.settles.channel h.success).2.2)
  rw [hread, hresult]

lemma sealedRecord (h : GateSealed rt run allowed context raw classified scored)
    (hintact : run.runToken ∉ s.damaged) :
    s.sealedRecord rt run =
      extractConvergence rt (universalNewlines classified.authoritativeText) none :=
  TaskStore.sealedRecord_of_read (h.readSealedRun hintact)

end GateSealed

/-! ## The history -/

namespace TaskStore

variable {rt : Runtime} {others : Taken} {s s' : TaskStore}

/-- Every committed branching run of an envelope task went through the gate. -/
def GateHistory (rt : Runtime) (s : TaskStore) : Prop :=
  ∀ envelope, extractEnvelope rt s.inputText = .ok (some envelope) →
    ∀ h ∈ s.committedRunHistory, s.profile.stageArity h.stage = .branching →
      ∃ allowed context raw classified scored,
        GateSealed rt h.run allowed context raw classified scored

/-- A settled success of a branching stage went through the gate. -/
lemma SettledFrom.gateSealed {before : List Text} {stage : Stage} {envelope : Envelope}
    {context : Option ConvergenceContext} {provider : Provider} {classified scored : RunResult}
    {run : StageRun}
    (h : SettledFrom rt s before stage (some envelope) context provider classified scored)
    (hbranching : s.profile.stageArity s.task.currentStage = .branching)
    (hsuccess : classified.classification = .success)
    (hseals : sealRunManifest rt (reviewerOverride scored) =
      .ok (manifestOf (reviewerOverride scored)))
    (hmanifest : run.manifest = some (manifestOf (reviewerOverride scored))) :
    ∃ c, context = some c ∧
      GateSealed rt run (allowedOutcomes (dictKeys stage.outcomes) true) c provider.raw classified
        scored := by
  obtain ⟨c, rfl⟩ := convergenceContext_branching h.scoredFrom (by
    rw [stage_name h.current]
    exact hbranching)
  have hraw : provider.raw.Decoded := by
    cases hprovider : provider with
    | returned raw => exact h.decoded raw hprovider
    | raised message =>
        have hexit := (h.settles.channel hsuccess).2.1
        rw [hprovider] at hexit
        cases hexit
  exact ⟨c, rfl, hraw, h.settles, hsuccess, hseals, hmanifest⟩

/-- One transaction keeps the gate's history. -/
lemma GateHistory.change {op : Operation} (hinv : s.GateHistory rt) (hnames : s.RowsNamed)
    (hlease : s.LeaseHeld) (hop : fromLoop rt op s) (h : Change rt others s op s') :
    s'.GateHistory rt := by
  intro envelope henvelope entry hentry hbranching
  have hsame : s'.profile.stageArity entry.stage = s.profile.stageArity entry.stage := by
    rw [profile, profile, h.frozen.1]
  have henvelope : extractEnvelope rt s.inputText = .ok (some envelope) := by
    rw [← henvelope, inputText, inputText, h.frozen.2]
  rw [hsame] at hbranching
  cases op with
  | commit stamp token result =>
      rcases hnames.history_commit hlease h with
        hhistory | ⟨run, hmanifest, -, hseals, hcommits, hhistory⟩
      · rw [hhistory] at hentry
        exact hinv envelope henvelope entry hentry hbranching
      · rw [hhistory, List.mem_append, List.mem_singleton] at hentry
        rcases hentry with hentry | rfl
        · exact hinv envelope henvelope entry hentry hbranching
        · cases hop with
          | stopped message hreads => rcases hcommits with hcommits | hcommits <;> cases hcommits
          | settled before stage envelope' context provider classified scored hfrom =>
              obtain rfl : envelope' = some envelope :=
                Except.ok.inj (hfrom.reads.symm.trans henvelope)
              obtain ⟨c, -, hsealed⟩ := hfrom.gateSealed hbranching
                (hfrom.settles.success hcommits) hseals hmanifest
              exact ⟨_, _, _, _, _, hsealed⟩
  | _ =>
      rw [hnames.history_kept hlease h (by simp)] at hentry
      exact hinv envelope henvelope entry hentry hbranching

lemma GateHistory.submitted (h : s.Submitted) : s.GateHistory rt := by
  obtain ⟨others, sub, h⟩ := h
  obtain ⟨-, rfl⟩ := submitTask_eq_ok h
  intro envelope henvelope entry hentry
  cases hentry

/-- Every branching run the loop committed for an envelope task went through the gate. -/
theorem Reachable.gateHistory {condition : Condition}
    (hloop : ∀ op s, condition op s → fromLoop rt op s) (h : s.Reachable rt condition) :
    s.GateHistory rt :=
  h.preserved_of (K := fun s => s.RowsNamed ∧ s.LeaseHeld)
    (fun _ h => ⟨h.rowsNamed, h.leaseHeld⟩) (fun _ => GateHistory.submitted)
    fun hknown hinv hop hchange => hinv.change hknown.1 hknown.2 (hloop _ _ hop) hchange

end TaskStore

end AgentOrch
